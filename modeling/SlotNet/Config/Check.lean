import SlotNet.Config.Decode
import SlotNet.Decimal.Notation
import SlotNet.Frame
import SlotNet.Timing

/-!
# Which configurations are accepted

The first rule that a configuration breaks is the error. Where a log is kept, an accepted configuration
is noted in it with the length of its frames.
-/

namespace SlotNet

/-- Why a configuration is not accepted. -/
inductive ConfigError where
  /-- It is no TOML, or a field has a value of the wrong type. -/
  | malformed
  | noNodes
  | tooManyNodes (count : Nat)
  | badDuration (secs : Float)
  | badTrafficStart (secs : Float)
  | noDataSlots
  | emptySlot
  | noDataRate
  | badRange (metres : Float)
  | noQueueRoom
  | badThreshold (threshold : Nat)
  | noActionSlots
  | noTopDestinations
  | noAgentUrl
  | badRate (rate : Float)
  | packetTooLarge (size capacity : Nat)
  | badArea

namespace ConfigError

/-- The greatest number of nodes: owners have two digits in status messages. -/
def mostNodes : Nat := 99

/-- The greatest length of a run and the latest start of traffic, in seconds: a year. -/
def mostSeconds : Float := 31536000.0

def message : ConfigError → String
  | malformed => "Invalid TOML configuration"
  | noNodes => "Simulation must contain at least one node"
  | tooManyNodes count =>
    "Node count " ++ toString count ++ " exceeds maximum of " ++ toString mostNodes
  | badDuration secs =>
    "Invalid duration_secs " ++ Decimal.writePlain secs ++ ", must be positive and at most "
      ++ Decimal.writePlain mostSeconds
  | badTrafficStart secs =>
    "Invalid traffic start_secs " ++ Decimal.writePlain secs ++ ", must be between 0 and "
      ++ Decimal.writePlain mostSeconds
  | noDataSlots => "Invalid data_slots, must be positive"
  | emptySlot => "Slot durations must be positive"
  | noDataRate => "Invalid data_rate_bps, must be positive"
  | badRange metres =>
    "Invalid max_range_m " ++ Decimal.writePlain metres ++ ", must be positive"
  | noQueueRoom => "Invalid queue max_packets, must be positive"
  | badThreshold threshold =>
    "Invalid priority_threshold " ++ toString threshold ++ ", must be 1-9"
  | noActionSlots => "Invalid max_slots_per_action, must be positive"
  | noTopDestinations => "Invalid top_k, must be positive"
  | noAgentUrl => "HTTP agent requires a url"
  | badRate rate =>
    "Invalid packets_per_second " ++ Decimal.writePlain rate ++ ", must be positive"
  | packetTooLarge size capacity =>
    "Packet size " ++ toString size ++ " (+" ++ toString Frame.overhead
      ++ " header) does not fit a data slot carrying " ++ toString capacity ++ " bytes"
  | badArea => "Placement area must be non-negative"

end ConfigError

namespace Config

open ConfigError (mostNodes mostSeconds)

/-- The rules about nodes and times. -/
def checkRun (c : Config) : Except ConfigError Unit := do
  if c.nodeCount = 0 then .error .noNodes
  if mostNodes < c.nodeCount then .error (.tooManyNodes c.nodeCount)
  if ¬ (0.0 < c.durationSecs ∧ c.durationSecs ≤ mostSeconds) then
    .error (.badDuration c.durationSecs)
  if ¬ (0.0 ≤ c.traffic.startSecs ∧ c.traffic.startSecs ≤ mostSeconds) then
    .error (.badTrafficStart c.traffic.startSecs)

/-- The rules about slots, radio and queues. -/
def checkLink (c : Config) : Except ConfigError Unit := do
  if c.frame.dataSlots = 0 then .error .noDataSlots
  if c.frame.slotTimeUs = 0 ∨ c.frame.controlSlotTimeUs = 0 then .error .emptySlot
  if c.frame.dataRate = 0 then .error .noDataRate
  if ¬ 0.0 < c.maxRangeM then .error (.badRange c.maxRangeM)
  if c.queue.maxPackets = 0 then .error .noQueueRoom

/-- The rules about reservation and the agent. -/
def checkAgent (c : Config) : Except ConfigError Unit := do
  if c.reservation.priorityThreshold = 0 ∨ 9 < c.reservation.priorityThreshold then
    .error (.badThreshold c.reservation.priorityThreshold)
  if c.reservation.maxSlotsPerAction = 0 then .error .noActionSlots
  if c.environment.topK = 0 then .error .noTopDestinations
  match c.environment.agent with
  | .remote url _ => if url.isEmpty then .error .noAgentUrl
  | .random => .ok ()

/-- The rules about traffic: a rate, and packets that fit a data slot. -/
def checkTraffic (c : Config) : Except Fault (Except ConfigError Unit) := do
  if ¬ c.traffic.enabled then return .ok ()
  else if ¬ (0.0 < c.traffic.packetsPerSecond ∧ c.traffic.packetsPerSecond.isFinite) then
    return .error (.badRate c.traffic.packetsPerSecond)
  else
    let capacity ← Timing.capacity c.frame.slotTime c.frame.dataRate
    let size ← Count.add c.traffic.packetSize Frame.overhead
    if capacity < size then return .error (.packetTooLarge c.traffic.packetSize capacity)
    else return .ok ()

/-- The rule about the area for random positions. -/
def checkArea (c : Config) : Except ConfigError Unit :=
  if c.nodes.isEmpty ∧ ¬ (0.0 ≤ c.placement.widthM ∧ 0.0 ≤ c.placement.heightM) then
    .error .badArea
  else .ok ()

def check (c : Config) : Except Fault (Except ConfigError Unit) := do
  match (do checkRun c; checkLink c; checkAgent c) with
  | .error e => return .error e
  | .ok () =>
    match ← checkTraffic c with
    | .error e => return .error e
    | .ok () => return checkArea c

/-- All rules, and a note of the length of a frame where a log is kept. -/
def validate (logged : Bool) (c : Config) : Except Fault (Except ConfigError Unit) := do
  match ← c.check with
  | .error e => return .error e
  | .ok () =>
    if logged then
      let _ ← Timing.frameDuration c.frame c.nodeCount
      return .ok ()
    else return .ok ()

/-- The guard time from the range, in whole microseconds, where that is asked for. -/
def resolve (c : Config) : Config :=
  if c.frame.guardFromRange then
    { c with frame := { c.frame with
        guardTimeUs := Timing.guardForRange c.maxRangeM / 1000 % Count.limit } }
  else c

/-- The accepted configuration that a document's entries give. -/
def acceptEntries (logged : Bool) (entries : List (String × Toml.Value)) :
    Except Fault (Except ConfigError Config) :=
  match ofEntries? entries with
  | none => .ok (.error .malformed)
  | some c => (c.resolve.validate logged).map fun result => result.map fun _ => c.resolve

/-- The accepted configuration that a text in TOML gives. -/
def accept (logged : Bool) (source : String) : Except Fault (Except ConfigError Config) :=
  match Toml.parse? source with
  | none => .ok (.error .malformed)
  | some entries => acceptEntries logged entries

def ofEntries : List (String × Toml.Value) → Except Fault (Except ConfigError Config) :=
  acceptEntries true

/-- The command keeps a log. -/
def ofToml : String → Except Fault (Except ConfigError Config) := accept true

end Config

end SlotNet
