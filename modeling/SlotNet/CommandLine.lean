import SlotNet.Run

/-!
# The command line

The command is given the file of a configuration and runs it. The report goes to a second file if
one is named, otherwise to the standard output. What is done with files is left to the caller.
-/

namespace SlotNet.CommandLine

inductive Invocation where
  | help
  | version
  | run (config : String) (report : Option String)
  /-- The arguments make no sense. -/
  | misuse
  deriving DecidableEq, Repr

/-- The files that are named, at most two and none of them empty. -/
def named : List String → Invocation
  | [config] => if config.isEmpty then .misuse else .run config none
  | [config, report] =>
    if config.isEmpty ∨ report.isEmpty then .misuse else .run config (some report)
  | _ => .misuse

/-- Reads arguments one after the other, onto the files named before. Options end at `--`. The first
option or mistake decides. -/
def parse (files : List String) : List String → Invocation
  | [] => named files
  | arg :: rest =>
    if arg = "--" then named (files ++ rest)
    else if arg.startsWith "--" then
      if files.contains "" then .misuse
      else if arg = "--help" then .help
      else if arg = "--version" then .version
      else .misuse
    else
      match arg.toList with
      | '-' :: c :: _ =>
        if files.contains "" then .misuse
        else if c = 'h' then .help
        else if c = 'V' then .version
        else .misuse
      | _ => if 2 ≤ files.length then .misuse else parse (files ++ [arg]) rest

def versionText : String := "tdma-rl-simulator 0.1.0"

def helpText : String :=
  "\n".intercalate [
    "TDMA link-layer simulator with agent-driven slot reservation",
    "",
    "Usage: tdma-rl-simulator <CONFIG> [REPORT]",
    "",
    "Arguments:",
    "  <CONFIG>  Simulation configuration (TOML)",
    "  [REPORT]  Where to write the JSON report; printed to stdout when omitted",
    "",
    "Options:",
    "  -h, --help     Print help",
    "  -V, --version  Print version"]

/-- What the command may do outside. -/
structure Outside (m : Type → Type) where
  /-- The text of a file, if it can be read. -/
  read : String → m (Option String)
  /-- Writes a file. Tells whether that was possible. -/
  write : String → String → m Bool
  /-- Prints a line. -/
  print : String → m Unit

/-- The exit codes. -/
def success : UInt32 := 0

def failure : UInt32 := 1

def badUsage : UInt32 := 2

def brokenOff : UInt32 := 101

/-- The text of the report on a configuration, or the exit code. -/
def reportOn (source : String) (generatedAt : Option String) : Except UInt32 String :=
  match Config.ofToml source with
  | .error _ => .error brokenOff
  | .ok (.error _) => .error failure
  | .ok (.ok c) =>
    match Run.configured c with
    | .error _ => .error brokenOff
    | .ok report => .ok (report.text generatedAt)

/-- Carries out what the arguments ask for. Gives the exit code. -/
def run {m : Type → Type} [Monad m] (outside : Outside m) (generatedAt : Option String)
    (args : List String) : m UInt32 :=
  match parse [] args with
  | .help => do outside.print helpText; return success
  | .version => do outside.print versionText; return success
  | .misuse => return badUsage
  | .run config report => do
    match ← outside.read config with
    | none => return failure
    | some source =>
      match reportOn source generatedAt with
      | .error code => return code
      | .ok text =>
        match report with
        | none => do outside.print text; return success
        | some path => return if ← outside.write path text then success else failure

end SlotNet.CommandLine
