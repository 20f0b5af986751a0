import SlotNet.Medium
import SlotNet.StatusMessage

/-!
# Stations

The station of a node sends only in slots that it is given: one frame after the other as long as the
next one ends within the slot. Control slots empty the control queue, data slots the data queue.
-/

namespace SlotNet

/-- What a station did with a frame that arrived. -/
inductive Received where
  /-- It was meant for another station. -/
  | ignored
  /-- It is a status message. -/
  | status (content : List UInt8)
  /-- It has reached its destination. -/
  | delivered
  /-- It waits for the next hop. -/
  | forwarded
  /-- There was no room for it. -/
  | dropped
  /-- Control traffic that needs nothing done. -/
  | control
  deriving DecidableEq, Repr

structure Station where
  node : Nat
  address : Address
  queue : TransmitQueue
  deriving DecidableEq, Repr

namespace Station

def new (node : Nat) (limits : QueueLimits) : Station :=
  ⟨node, Address.ofNode node, TransmitQueue.new limits.maxPackets limits.maxDelay⟩

/-- Empties the queues. Gives the bytes that were left in the data queue. -/
def flush (s : Station) : Nat × Station := (s.queue.queuedBytes, { s with queue := s.queue.flush })

/-! ## Queueing -/

/-- Queues a frame. Dropped frames are counted. -/
def enqueue (s : Station) (m : Medium) (frame : Frame) :
    Except Fault (Station × Medium × Except EnqueueError QueueKind) := do
  let (queue, drops, result) ← s.queue.enqueue frame m.now
  let stats ← m.stats.recordDrops drops
  return ({ s with queue }, { m with stats }, result)

/-- Makes a packet for a destination and queues it. -/
def send (s : Station) (m : Medium) (destination size : Nat) :
    Except Fault (Station × Medium × Except EnqueueError QueueKind) :=
  let (uid, m) := m.takeUid
  s.enqueue m
    { uid, kind := .data, transmitter := s.address, receiver := .broadcast, source := s.node
      destination, createdAt := m.now, payload := .blank size }

def peek (s : Station) (m : Medium) (kind : QueueKind) :
    Except Fault (Station × Medium × Option QueueItem) := do
  let (queue, drops, item) ← s.queue.peek kind m.now
  let stats ← m.stats.recordDrops drops
  return ({ s with queue }, { m with stats }, item)

def dequeue (s : Station) (m : Medium) (kind : QueueKind) :
    Except Fault (Station × Medium × Option QueueItem) := do
  let (queue, drops, item) ← s.queue.dequeue kind m.now
  let stats ← m.stats.recordDrops drops
  return ({ s with queue }, { m with stats }, item)

/-! ## Sending -/

/-- To which address a queued frame goes next: control to all, data to the next hop. -/
def receiverOf (s : Station) (m : Medium) (kind : QueueKind) (item : QueueItem) : Option Address :=
  match kind with
  | .control => some .broadcast
  | .data => (m.routes.nextHop s.node item.frame.destination).map Address.ofNode

/-- The oldest frame that has a way to go, and to which address. Frames without a way are dropped
from the front of the queue and counted. -/
def nextToSend (kind : QueueKind) : Nat → Station → Medium →
    Except Fault (Station × Medium × Option (QueueItem × Address))
  | 0, s, m => .ok (s, m, none)
  | fuel + 1, s, m => do
    let (s, m, head) ← s.peek m kind
    match head with
    | none => return (s, m, none)
    | some item =>
      match s.receiverOf m kind item with
      | some address => return (s, m, some (item, address))
      | none =>
        let (queue, _) ← s.queue.remove kind item.frame.uid
        let stats ← m.stats.recordNoRoute
        nextToSend kind fuel { s with queue } { m with stats }

/-- Puts the oldest frame of a queue on the air and continues the slot after it. -/
def sendHead (s : Station) (m : Medium) (kind : QueueKind) (receiver : Address) (airtime slotEnd : Time) :
    Except Fault (Station × Medium × Option Frame) := do
  let (s, m, head) ← s.dequeue m kind
  match head with
  | none => return (s, m, none)
  | some item =>
    let frame := { item.frame with transmitter := s.address, receiver }
    let stats ← m.stats.recordTransmission frame.size frame.isData
    let (m, _) ← Medium.transmit { m with stats } s.node frame
    let m ← m.schedule airtime (.continueSlot s.node slotEnd (kind = .control))
    return (s, m, some frame)

/-- Uses a slot up to its end: sends the next frame if it ends in time. Gives the frame that was
sent. -/
def continueSlot (s : Station) (m : Medium) (slotEnd : Time) (control : Bool) :
    Except Fault (Station × Medium × Option Frame) := do
  let kind := if control then QueueKind.control else .data
  let (s, m, next) ← nextToSend kind ((s.queue.items kind).length + 1) s m
  match next with
  | none => return (s, m, none)
  | some (item, receiver) =>
    let airtime := Timing.airtime item.frame.size m.dataRate
    let finish ← Time.add m.now airtime
    if slotEnd < finish then return (s, m, none)
    else s.sendHead m kind receiver airtime slotEnd

/-- A slot begins now for the station. -/
def startSlot (s : Station) (m : Medium) (duration : Time) (control : Bool) :
    Except Fault (Station × Medium × Option Frame) := do
  let slotEnd ← Time.add m.now duration
  s.continueSlot m slotEnd control

/-! ## Receiving -/

/-- Takes a frame that arrives. Status messages are handed on, data at its destination is counted,
and other data is queued for the next hop. -/
def receive (s : Station) (m : Medium) (frame : Frame) :
    Except Fault (Station × Medium × Received) := do
  if frame.receiver ≠ s.address ∧ ¬ frame.receiver.isBroadcast then return (s, m, .ignored)
  else if frame.payload.startsWith StatusMessage.marker then
    return (s, m, .status frame.payload.toList)
  else if ¬ frame.isData ∨ frame.receiver.isBroadcast then return (s, m, .control)
  else
    let stats ← m.stats.recordReception frame.size
    if frame.destination = s.node then
      let stats ← stats.recordDelivery frame.payload.size (m.now - frame.createdAt)
      return (s, { m with stats }, .delivered)
    else
      let (s, m, result) ← s.enqueue { m with stats } frame
      return (s, m, match result with | .ok _ => .forwarded | .error _ => .dropped)

end Station

end SlotNet
