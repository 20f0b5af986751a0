import SlotNet.CommandLine
import Std.Time

/-!
# The program

The command line over the files, the standard output and the clock of the process.
-/

namespace SlotNet

/-- Files and output of the process. A file that cannot be read or written is reported as such. -/
def processFiles : CommandLine.Outside IO where
  read path := try return some (← IO.FS.readFile path) catch _ => return none
  write path text := try IO.FS.writeFile path text; return true catch _ => return false
  print line := IO.println line

/-- The present as date, time and offset, in universal time. -/
def presentText : IO String := do
  let now := Std.Time.DateTime.ofTimestamp (← Std.Time.Timestamp.now) Std.Time.TimeZone.ZoneRules.UTC
  return now.format "uuuu-MM-dd'T'HH:mm:ss.SSSSSSSSSxxx"

end SlotNet

def main (args : List String) : IO UInt32 := do
  SlotNet.CommandLine.run SlotNet.processFiles (some (← SlotNet.presentText)) args
