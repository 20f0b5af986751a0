import SlotNet.Decimal.Notation
import SlotNet.Json.Printer
import SlotNet.Stats

/-!
# Reports

The summary of a run: what was simulated, the figures, and all counters.
-/

namespace SlotNet

structure Report where
  seed : Nat
  nodeCount : Nat
  dataSlots : Nat
  simulatedSecs : Float
  frameDurationUs : Float
  throughputBps : Float
  averageDelayMs : Float
  deliveryRatio : Float
  controlOverhead : Float
  stats : Stats

namespace Report

/-- The report of a run that lasted `simulated`, with the throughput taken over `measured`. -/
def of (stats : Stats) (seed nodeCount dataSlots : Nat) (simulated measured frameDuration : Time) :
    Report :=
  { seed, nodeCount, dataSlots
    simulatedSecs := simulated.seconds
    frameDurationUs := frameDuration.seconds * 1e6
    throughputBps := stats.throughput measured
    averageDelayMs := stats.averageDelay.seconds * 1e3
    deliveryRatio := stats.deliveryRatio
    controlOverhead := stats.controlOverhead
    stats }

/-- A double in a report; what is no finite number is null. -/
def double (x : Float) : Json :=
  match Decimal.writeDouble? x with
  | some text => .number text
  | none => .null

/-- The report as JSON. The time at which it was made comes first, if it is given. -/
def toJson (r : Report) (generatedAt : Option String) : Json :=
  let made := match generatedAt with
    | some time => [("generated_at", Json.string time)]
    | none => []
  .object (made ++
    [("seed", .ofNat r.seed), ("node_count", .ofNat r.nodeCount),
     ("data_slots", .ofNat r.dataSlots), ("simulated_secs", double r.simulatedSecs),
     ("frame_duration_us", double r.frameDurationUs), ("throughput_bps", double r.throughputBps),
     ("average_delay_ms", double r.averageDelayMs), ("delivery_ratio", double r.deliveryRatio),
     ("control_overhead", double r.controlOverhead),
     ("stats", .object (r.stats.fields.map fun (name, n) => (name, .ofNat n)))])

def text (r : Report) (generatedAt : Option String) : String := (r.toJson generatedAt).pretty ""

end Report

end SlotNet
