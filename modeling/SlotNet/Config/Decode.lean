import SlotNet.Config
import SlotNet.Toml.Reader

/-!
# Configurations from TOML

A section is a table whose unknown keys are passed over, or an array whose values fill the fields in
order; what is missing keeps its default. Numbers must fit their fields, and an integer may stand for
a float but not the other way round.
-/

namespace SlotNet.Config

open Toml (Value)

/-! ## Fields -/

/-- The values of the fields of a section. -/
inductive Section where
  | named (entries : List (String × Value))
  | inOrder (items : List Value)

/-- A section. A date has no fields, so that all keep their defaults. -/
def sectionOf? : Value → Option Section
  | .table entries => some (.named entries)
  | .array items => some (.inOrder items)
  | .date => some (.named [])
  | _ => none

/-- The value of a field by its name, or by its place. -/
def Section.field (s : Section) (name : String) (place : Nat) : Option Value :=
  match s with
  | .named entries => entries.lookup name
  | .inOrder items => items[place]?

/-- Reads a field, or keeps the default. -/
def Section.get {α : Type} (s : Section) (name : String) (place : Nat) (read : Value → Option α)
    (default : α) : Option α :=
  match s.field name place with
  | none => some default
  | some v => read v

/-- A natural number up to a greatest one. -/
def upTo (greatest : Nat) : Value → Option Nat
  | .integer (.ofNat n) => if n ≤ greatest then some n else none
  | _ => none

/-- A natural number. Integers in TOML have 63 bits for those. -/
def natural : Value → Option Nat := upTo Count.greatest

def byte : Value → Option Nat := upTo 255

def boolean : Value → Option Bool
  | .boolean b => some b
  | _ => none

def text : Value → Option String
  | .string s => some s
  | _ => none

def double : Value → Option Float
  | .float x => some x
  | .integer n => some (Int64.ofInt n).toFloat
  | _ => none

/-- A single: the one nearest to a double or to an integer. -/
def single : Value → Option Float32
  | .float x => some x.toFloat32
  | .integer n => some (Int64.ofInt n).toFloat32
  | _ => none

/-! ## Sections -/

/-- Reads a section, or keeps the default if it is not there. -/
def sub {α : Type} (s : Section) (name : String) (place : Nat) (default : α)
    (read : Section → Option α) : Option α :=
  s.get name place (fun v => (sectionOf? v).bind read) default

def frameOf (s : Section) : Option FrameLayout := do
  let d : FrameLayout := {}
  return {
    slotTimeUs := ← s.get "slot_time_us" 0 natural d.slotTimeUs
    controlSlotTimeUs := ← s.get "control_slot_time_us" 1 natural d.controlSlotTimeUs
    guardTimeUs := ← s.get "guard_time_us" 2 natural d.guardTimeUs
    interFrameGapUs := ← s.get "inter_frame_gap_us" 3 natural d.interFrameGapUs
    dataSlots := ← s.get "data_slots" 4 natural d.dataSlots
    dataRate := ← s.get "data_rate_bps" 5 natural d.dataRate
    rotateControlSlots := ← s.get "rotate_control_slots" 6 boolean d.rotateControlSlots
    guardFromRange := ← s.get "guard_from_range" 7 boolean d.guardFromRange }

def rangeOf (s : Section) : Option Float := s.get "max_range_m" 0 double 250.0

def queueOf (s : Section) : Option QueueLimits := do
  let d : QueueLimits := {}
  return {
    maxPackets := ← s.get "max_packets" 0 natural d.maxPackets
    maxDelayMs := ← s.get "max_delay_ms" 1 natural d.maxDelayMs }

def reservationOf (s : Section) : Option ReservationRules := do
  let d : ReservationRules := {}
  return {
    priorityThreshold := ← s.get "priority_threshold" 0 byte d.priorityThreshold
    usedSlotPenalty := ← s.get "used_slot_penalty" 1 single d.usedSlotPenalty
    maxSlotsPerAction := ← s.get "max_slots_per_action" 2 natural d.maxSlotsPerAction }

/-- Seconds that a remote agent is given by default. -/
def defaultTimeout : Nat := 30

/-- An agent: its kind and, if it is remote, the URL and the time it is given. In an array nothing may
stand behind the last field. -/
def agentOf : Value → Option AgentChoice
  | .table entries =>
    match entries.lookup "kind" with
    | some (.string "random") => some .random
    | some (.string "http") => do
      let s := Section.named entries
      let url ← (← s.field "url" 0) |> text
      return .remote url (← s.get "timeout_secs" 1 natural defaultTimeout)
    | _ => none
  | .array [.string "random"] => some .random
  | .array [.string "http", url] => (text url).map (.remote · defaultTimeout)
  | .array [.string "http", url, timeout] => do return .remote (← text url) (← natural timeout)
  | _ => none

def environmentOf (s : Section) : Option EnvironmentSettings := do
  let d : EnvironmentSettings := {}
  return {
    topK := ← s.get "top_k" 0 natural d.topK
    agent := ← s.get "agent" 1 agentOf d.agent }

def trafficOf (s : Section) : Option TrafficSettings := do
  let d : TrafficSettings := {}
  return {
    enabled := ← s.get "enabled" 0 boolean d.enabled
    startSecs := ← s.get "start_secs" 1 double d.startSecs
    packetSize := ← s.get "packet_size" 2 natural d.packetSize
    packetsPerSecond := ← s.get "packets_per_second" 3 double d.packetsPerSecond }

def placementOf (s : Section) : Option PlacementArea := do
  let d : PlacementArea := {}
  return {
    nodeCount := ← s.get "node_count" 0 natural d.nodeCount
    widthM := ← s.get "width_m" 1 double d.widthM
    heightM := ← s.get "height_m" 2 double d.heightM }

/-- A position. Both coordinates must be there. -/
def pointOf (v : Value) : Option Point := do
  let s ← sectionOf? v
  let x ← (← s.field "x" 0) |> double
  let y ← (← s.field "y" 1) |> double
  return ⟨x, y⟩

def pointsOf : Value → Option (List Point)
  | .array items => items.mapM pointOf
  | _ => none

/-- The configuration that the entries of a document give. -/
def ofEntries? (entries : List (String × Value)) : Option Config := do
  let s := Section.named entries
  let d : Config := {}
  return {
    seed := ← s.get "seed" 0 natural d.seed
    durationSecs := ← s.get "duration_secs" 1 double d.durationSecs
    frame := ← sub s "frame" 2 d.frame frameOf
    maxRangeM := ← sub s "channel" 3 d.maxRangeM rangeOf
    queue := ← sub s "queue" 4 d.queue queueOf
    reservation := ← sub s "reservation" 5 d.reservation reservationOf
    environment := ← sub s "environment" 6 d.environment environmentOf
    traffic := ← sub s "traffic" 7 d.traffic trafficOf
    placement := ← sub s "placement" 8 d.placement placementOf
    nodes := ← s.get "nodes" 9 pointsOf d.nodes }

end SlotNet.Config
