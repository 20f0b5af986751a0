import SlotNet.Environment
import SlotNet.Placement
import SlotNet.Station
import SlotNet.Traffic

/-!
# The network

All parts together: the controller, the stations, what they share, and the traffic. Handling an event
changes the network and tells what was done.
-/

namespace SlotNet

structure Grant where
  node : Nat
  start : Time
  duration : Time
  control : Bool
  /-- The frame that the station sent at once. -/
  sent : Option Frame
  deriving DecidableEq, Repr

inductive Handled where
  /-- A slot was given to stations. -/
  | granted (grants : List Grant)
  /-- A station used the rest of its slot. -/
  | continued (sent : Option Frame)
  /-- A station took a frame that is no status message. -/
  | received (what : Received)
  /-- A status message was merged, or could not be read. -/
  | merged (result : Except StatusError Nat)
  /-- A node made a packet, if it has a destination. -/
  | arrived (destination : Option Nat)
  /-- There was nothing to do. -/
  | nothing

structure Network where
  controller : Controller
  stations : List Station
  medium : Medium
  traffic : Traffic

namespace Network

/-- A channel on which the nodes `0`, …, `nodes - 1` listen. -/
def listeners (range : Float) (nodes : Nat) : Channel :=
  (List.range nodes).foldl (fun c node => c.register node (Address.ofNode node)) (Channel.new range)

/-- The network of a configuration, with so many stations. -/
def ofConfig (c : Config) (stations : Nat) : Except Fault Network := do
  let positions ← Placement.ofConfig c
  let controller ← Controller.ofConfig c
  return {
    controller
    stations := (List.range stations).map (Station.new · c.queue)
    medium := {
      events := .empty
      channel := listeners c.maxRangeM c.nodeCount
      positions
      routes := Routes.ofPositions c.maxRangeM positions
      stats := {}
      nextUid := 0
      dataRate := c.frame.dataRate }
    traffic := Traffic.new c.traffic ((c.seed + 1) % Count.limit) }

def now (n : Network) : Time := n.medium.now

/-- Lets the station of a node act. There may be no station for a node. -/
def onStation {α : Type} (n : Network) (node : Nat)
    (act : Station → Medium → Except Fault (Station × Medium × α)) :
    Except Fault (Network × Option α) :=
  match n.stations[node]? with
  | none => .ok (n, none)
  | some s => do
    let (s, m, result) ← act s n.medium
    return ({ n with stations := n.stations.set node s, medium := m }, some result)

/-- Forgets what waits at the stations, what is under way and what is to come. Gives the bytes that were
left in the data queues. -/
def tearDown (n : Network) : Except Fault (Nat × Network) := do
  let left ← (n.stations.map fun s => s.flush.1).foldlM Count.add 0
  return (left, { n with
    stations := n.stations.map fun s => s.flush.2
    medium := { n.medium with channel := n.medium.channel.clear, events := n.medium.events.clear } })

/-! ## Slots -/

/-- Gives a slot to the station of a node, if there is one. -/
def grant (n : Network) (node : Nat) (duration : Time) (control : Bool) :
    Except Fault (Network × List Grant) := do
  let (next, sent) ← n.onStation node fun s m => s.startSlot m duration control
  return (next, (sent.map fun frame => ⟨node, n.now, duration, control, frame⟩).toList)

/-- Gives a slot to the stations of some nodes, one after the other. -/
def grantAll (n : Network) (duration : Time) (control : Bool) :
    List Nat → Except Fault (Network × List Grant)
  | [] => .ok (n, [])
  | node :: rest => do
    let (n, grants) ← n.grant node duration control
    let (n, more) ← n.grantAll duration control rest
    return (n, grants ++ more)

/-- Runs a slot: the stations that may send get it, and what follows is scheduled. A slot outside the
frame does nothing. -/
def runSlot (n : Network) (slot : Nat) : Except Fault (Network × List Grant) := do
  if n.controller.totalSlots ≤ slot then return (n, [])
  else
    let controller := n.controller.openSlot slot
    let control := Timing.isControlSlot controller.nodeCount slot
    let (n, grants) ← grantAll { n with controller } (controller.slotDuration slot) control
      (controller.entitled slot)
    let (delay, next) ← controller.following slot
    let medium ← n.medium.schedule delay next
    return ({ n with medium }, grants)

/-- A frame begins, and with it slot 0. -/
def runFrame (n : Network) : Except Fault (Network × List Grant) :=
  let controller := n.controller.beginFrame
  let stats := { n.medium.stats with framesCompleted := controller.frameIndex - 1 }
  runSlot { n with controller, medium := { n.medium with stats } } 0

def start (n : Network) : Except Fault (Network × Bool) := do
  let (started, controller, events) ← n.controller.start n.medium.events
  return ({ n with controller, medium := { n.medium with events } }, started)

/-- Schedules the first packets of so many nodes. -/
def startTraffic (n : Network) (nodes : Nat) : Except Fault Network := do
  let (traffic, events) ← n.traffic.begin nodes n.medium.events
  return { n with traffic, medium := { n.medium with events } }

/-! ## Frames -/

def merge (n : Network) (message : List UInt8) (observer : Nat) :
    Except Fault (Network × Except StatusError Nat) := do
  let (controller, result) := n.controller.merge message observer
  let stats ← match result with
    | .ok conflicts => n.medium.stats.recordConflicts conflicts
    | .error _ => .ok n.medium.stats
  return ({ n with controller, medium := { n.medium with stats } }, result)

/-- A frame arrives at a node. Status messages are merged. -/
def deliver (n : Network) (receiver : Nat) (frame : Frame) : Except Fault (Network × Handled) := do
  let (n, what) ← n.onStation receiver fun s m => s.receive m frame
  match what with
  | none => return (n, .nothing)
  | some (.status content) =>
    let (n, result) ← n.merge content receiver
    return (n, .merged result)
  | some what => return (n, .received what)

/-- A station goes on with its slot. -/
def continueSlot (n : Network) (node : Nat) (slotEnd : Time) (control : Bool) :
    Except Fault (Network × Handled) := do
  let (n, sent) ← n.onStation node fun s m => s.continueSlot m slotEnd control
  return (n, (sent.map Handled.continued).getD .nothing)

def arrive (n : Network) (node : Nat) : Except Fault (Network × Handled) := do
  let (n, made) ← n.onStation node fun s m => do
    let (traffic, s, m, destination) ← n.traffic.arrive s m node
    return (s, m, traffic, destination)
  match made with
  | none => return (n, .nothing)
  | some (traffic, destination) => return ({ n with traffic }, .arrived destination)

/-! ## Events -/

/-- Handles an event. A step of the environment is no matter of the network. -/
def handle (n : Network) : Event → Except Fault (Network × Handled)
  | .startFrame => n.runFrame.map fun (n, grants) => (n, .granted grants)
  | .runSlot slot => (n.runSlot slot).map fun (n, grants) => (n, .granted grants)
  | .continueSlot node slotEnd control => n.continueSlot node slotEnd control
  | .deliver receiver frame => n.deliver receiver frame
  | .arrival node => n.arrive node
  | .envStep => .ok (n, .nothing)

def peekTime (n : Network) : Option Time × Network :=
  let (time, events) := n.medium.events.peekTime
  (time, { n with medium := { n.medium with events } })

/-- Takes the next event, if it is not later than `limit`. -/
def popUntil (n : Network) (limit : Time) : Option (Time × Event) × Network :=
  match n.peekTime with
  | (some time, n) =>
    if limit < time then (none, n)
    else
      let (next, events) := n.medium.events.pop
      (next, { n with medium := { n.medium with events } })
  | (none, n) => (none, n)

end Network

end SlotNet
