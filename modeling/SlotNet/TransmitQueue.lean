import SlotNet.Frame

/-!
# Transmit queues

A station has two bounded queues, one for control frames and one for data. A frame whose age has
reached the greatest delay is dropped at the next use. Every operation gives the frames that it
dropped, in order, with the reason.
-/

namespace SlotNet

/-- The two queues of a station. -/
inductive QueueKind where
  | control
  | data
  deriving DecidableEq, Repr

namespace QueueKind

def name : QueueKind → String
  | .control => "Control"
  | .data => "Data"

/-- With this begins the payload of every control frame. -/
def controlMark : List UInt8 := "#TDMA".toUTF8.toList

/-- The queue of a frame: routing and marked payloads are control, all else is data. -/
def ofFrame (f : Frame) : QueueKind :=
  if f.kind = .routing ∨ f.payload.startsWith controlMark then .control else .data

end QueueKind

inductive DropReason where
  | expired
  | queueFull
  | tooLarge
  deriving DecidableEq, Repr

structure QueueItem where
  frame : Frame
  enqueuedAt : Time
  deriving DecidableEq, Repr

structure Drop where
  item : QueueItem
  reason : DropReason
  deriving DecidableEq, Repr

inductive EnqueueError where
  | queueFull (kind : QueueKind)
  | tooLarge (size : Nat)
  deriving DecidableEq, Repr

structure TransmitQueue where
  control : List QueueItem
  data : List QueueItem
  /-- Most frames in each queue. -/
  maxPackets : Nat
  /-- The age at which a frame is dropped. -/
  maxDelay : Time
  /-- Bytes on air of the frames in the data queue. -/
  queuedBytes : Nat
  deriving DecidableEq, Repr

namespace TransmitQueue

/-- The largest frame in bytes on air. -/
def maxFrameBytes : Nat := 1500

def new (maxPackets : Nat) (maxDelay : Time) : TransmitQueue := ⟨[], [], maxPackets, maxDelay, 0⟩

def items (q : TransmitQueue) : QueueKind → List QueueItem
  | .control => q.control
  | .data => q.data

def setItems (q : TransmitQueue) (kind : QueueKind) (items : List QueueItem) : TransmitQueue :=
  match kind with
  | .control => { q with control := items }
  | .data => { q with data := items }

/-- The queues with fewer bytes counted, if the queue is the one for data. -/
def release (q : TransmitQueue) (kind : QueueKind) (bytes : Nat) : Except Fault TransmitQueue :=
  match kind with
  | .control => .ok q
  | .data => (Count.sub q.queuedBytes bytes).map fun n => { q with queuedBytes := n }

/-! ## Ageing -/

/-- Splits frames into those younger than the greatest delay and those that have reached it. -/
def prune (maxDelay now : Time) : List QueueItem → Except Fault (List QueueItem × List QueueItem)
  | [] => .ok ([], [])
  | item :: rest => do
    let deadline ← Time.add item.enqueuedAt maxDelay
    let (kept, expired) ← prune maxDelay now rest
    return if now < deadline then (item :: kept, expired) else (kept, item :: expired)

/-- The sum of the sizes on air. -/
def bytesOf : List QueueItem → Nat
  | [] => 0
  | item :: rest => item.frame.size + bytesOf rest

/-- Drops the frames of one queue that are too old. -/
def cleanup (q : TransmitQueue) (kind : QueueKind) (now : Time) :
    Except Fault (TransmitQueue × List Drop) := do
  let (kept, expired) ← prune q.maxDelay now (q.items kind)
  let q ← (q.setItems kind kept).release kind (bytesOf expired)
  return (q, expired.map (⟨·, .expired⟩))

/-- Drops the frames of both queues that are too old, those of `first` first. -/
def cleanupBoth (q : TransmitQueue) (first second : QueueKind) (now : Time) :
    Except Fault (TransmitQueue × List Drop) := do
  let (q, drops) ← q.cleanup first now
  let (q, more) ← q.cleanup second now
  return (q, drops ++ more)

/-! ## Operations -/

/-- Adds a frame to its queue, unless it is too large or the queue is full. -/
def enqueue (q : TransmitQueue) (frame : Frame) (now : Time) :
    Except Fault (TransmitQueue × List Drop × Except EnqueueError QueueKind) := do
  let (q, drops) ← q.cleanupBoth .data .control now
  let kind := QueueKind.ofFrame frame
  let item : QueueItem := ⟨frame, now⟩
  if maxFrameBytes < frame.size then
    return (q, drops ++ [⟨item, .tooLarge⟩], .error (.tooLarge frame.size))
  else if q.maxPackets ≤ (q.items kind).length then
    return (q, drops ++ [⟨item, .queueFull⟩], .error (.queueFull kind))
  else
    let bytes ← if kind = .data then Count.add q.queuedBytes frame.size else .ok q.queuedBytes
    let q := { q.setItems kind (q.items kind ++ [item]) with queuedBytes := bytes }
    return (q, drops, .ok kind)

def dequeue (q : TransmitQueue) (kind : QueueKind) (now : Time) :
    Except Fault (TransmitQueue × List Drop × Option QueueItem) := do
  let (q, drops) ← q.cleanupBoth .control .data now
  match q.items kind with
  | [] => return (q, drops, none)
  | item :: rest =>
    let q ← (q.setItems kind rest).release kind item.frame.size
    return (q, drops, some item)

def peek (q : TransmitQueue) (kind : QueueKind) (now : Time) :
    Except Fault (TransmitQueue × List Drop × Option QueueItem) := do
  let (q, drops) ← q.cleanupBoth .control .data now
  return (q, drops, (q.items kind).head?)

/-- Takes the first frame with a number out of a queue. Tells whether there was one. -/
def remove (q : TransmitQueue) (kind : QueueKind) (uid : Nat) :
    Except Fault (TransmitQueue × Bool) :=
  match (q.items kind).find? (·.frame.uid == uid) with
  | none => .ok (q, false)
  | some item => do
    let rest := (q.items kind).eraseP (·.frame.uid == uid)
    let q ← (q.setItems kind rest).release kind item.frame.size
    return (q, true)

/-- Empties both queues without a word. -/
def flush (q : TransmitQueue) : TransmitQueue :=
  { q with control := [], data := [], queuedBytes := 0 }

/-! ## The backlog -/

/-- The totals with some bytes more for a destination. New destinations come last. -/
def addBytes (destination bytes : Nat) : List (Nat × Nat) → List (Nat × Nat)
  | [] => [(destination, bytes)]
  | (d, n) :: rest =>
    if d = destination then (d, n + bytes) :: rest else (d, n) :: addBytes destination bytes rest

/-- The payload bytes in the data queue for each destination, in the order of first appearance. -/
def backlog (q : TransmitQueue) : List (Nat × Nat) :=
  q.data.foldl (fun totals item =>
    addBytes item.frame.destination item.frame.payload.size totals) []

/-- The `k` destinations with the greatest backlog, the greatest first. Equal ones keep their order. -/
def top (q : TransmitQueue) (k : Nat) : List (Nat × Nat) :=
  (q.backlog.mergeSort fun a b => b.2 ≤ a.2).take k

end TransmitQueue

def EnqueueError.message : EnqueueError → String
  | .queueFull kind => kind.name ++ " queue is full"
  | .tooLarge size =>
    "frame of " ++ toString size ++ " bytes exceeds " ++ toString TransmitQueue.maxFrameBytes
      ++ " bytes"

end SlotNet
