import SlotNet.EventQueue
import SlotNet.Timing
import SlotNet.Stats

/-!
# The radio channel

A transmission reaches every other endpoint within range after the travel time over the distance. A
receiver that still has a delivery from another sender under way gets neither: the earlier delivery
is cancelled, and so is the new one. A cancelled delivery counts as under way until its time.
-/

namespace SlotNet

/-- What happens in a run. -/
inductive Event where
  /-- A frame begins. -/
  | startFrame
  /-- A slot of the frame begins. -/
  | runSlot (slot : Nat)
  /-- A station has sent a frame and may use the rest of its slot. -/
  | continueSlot (node : Nat) (slotEnd : Time) (control : Bool)
  /-- A frame arrives at a receiver. -/
  | deliver (receiver : Nat) (frame : Frame)
  /-- The agent is asked for the next node. -/
  | envStep
  /-- A node makes a packet. -/
  | arrival (node : Nat)
  deriving DecidableEq, Repr

/-- A receiver on the channel. -/
structure Endpoint where
  node : Nat
  address : Address
  deriving DecidableEq, Repr

/-- A delivery under way. -/
structure InFlight where
  /-- The number of the delivery's event. -/
  delivery : Nat
  sender : Address
  receiver : Address
  deriving DecidableEq, Repr

structure TransmitOutcome where
  /-- Receivers within range. -/
  reached : Nat
  /-- Receivers at which it collided. -/
  collisions : Nat
  deriving DecidableEq, Repr

structure Channel where
  maxRange : Float
  endpoints : List Endpoint
  inFlight : List InFlight

namespace Channel

def new (maxRange : Float) : Channel := ⟨maxRange, [], []⟩

def register (c : Channel) (node : Nat) (address : Address) : Channel :=
  { c with endpoints := c.endpoints ++ [⟨node, address⟩] }

def clear (c : Channel) : Channel := { c with inFlight := [] }

/-- A transmission on its way through the listeners. -/
structure Spread where
  events : EventQueue Event
  stats : Stats
  /-- The new deliveries, in order. -/
  sent : List InFlight
  outcome : TransmitOutcome

/-- The deliveries that a sender's transmission to a receiver runs into. -/
def overlapping (underWay : List InFlight) (sender receiver : Address) : List InFlight :=
  underWay.filter fun t => t.receiver == receiver && t.sender != sender

/-- Cancels the events of deliveries. Tells how many were pending. -/
def cancelAll (events : EventQueue Event) : List InFlight → Nat × EventQueue Event
  | [] => (0, events)
  | t :: rest =>
    let (wasPending, events) := events.cancel t.delivery
    let (count, events) := cancelAll events rest
    ((if wasPending then 1 else 0) + count, events)

/-- The distance over which a listener hears a sender. The sender itself and listeners without a
position hear nothing, nor do those out of range. -/
def hearingDistance (maxRange : Float) (positions : List Point) (sender : Nat) (here : Point)
    (listener : Endpoint) : Option Float :=
  if listener.node = sender then none
  else match positions[listener.node]? with
    | none => none
    | some there =>
      let d := Point.distance here there
      if maxRange < d then none else some d

/-- Sends a frame to one listener over a distance. -/
def deliver (underWay : List InFlight) (sender : Address) (frame : Frame) (listener : Endpoint)
    (distance : Float) (s : Spread) : Except Fault Spread := do
  let hit := overlapping underWay sender listener.address
  let (cancelled, events) := cancelAll s.events hit
  let stats ← s.stats.recordCancelled cancelled
  let (id, events) ← events.schedule (Timing.propagationDelay distance)
    (.deliver listener.node frame)
  let sent := s.sent ++ [⟨id, sender, listener.address⟩]
  let reached := s.outcome.reached + 1
  if hit.isEmpty then
    return ⟨events, stats, sent, { s.outcome with reached }⟩
  else
    let (_, events) := events.cancel id
    let stats ← stats.recordCancelled 1
    let stats ← stats.recordCollision
    return ⟨events, stats, sent, ⟨reached, s.outcome.collisions + 1⟩⟩

def spread (maxRange : Float) (positions : List Point) (underWay : List InFlight) (sender : Endpoint)
    (here : Point) (frame : Frame) (listeners : List Endpoint) (s : Spread) :
    Except Fault Spread :=
  listeners.foldlM (fun s listener =>
    match hearingDistance maxRange positions sender.node here listener with
    | none => .ok s
    | some d => deliver underWay sender.address frame listener d s) s

/-- Broadcasts a frame from a node. A node that is not registered or has no position reaches
nobody. -/
def transmit (c : Channel) (sender : Nat) (frame : Frame) (events : EventQueue Event)
    (positions : List Point) (stats : Stats) :
    Except Fault (Channel × EventQueue Event × Stats × TransmitOutcome) :=
  match c.endpoints.find? (·.node == sender), positions[sender]? with
  | some endpoint, some here => do
    let underWay := c.inFlight.filter fun t => !events.isExpired t.delivery
    let s ← spread c.maxRange positions underWay endpoint here frame c.endpoints
      ⟨events, stats, [], ⟨0, 0⟩⟩
    return ({ c with inFlight := underWay ++ s.sent }, s.events, s.stats, s.outcome)
  | _, _ => .ok (c, events, stats, ⟨0, 0⟩)

end Channel

end SlotNet
