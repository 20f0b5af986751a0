import SlotNet.Time

/-!
# The event queue

Events wait in the order of their times, and those of one time in the order in which they were
scheduled. A cancelled event stays until the events before it are gone; then it is dropped without
being handed out. The number of an event is never given again.
-/

namespace SlotNet

structure Entry (ε : Type) where
  time : Time
  /-- The number of the event. -/
  id : Nat
  event : ε
  cancelled : Bool

/-- Events to come, and the time reached. -/
structure EventQueue (ε : Type) where
  now : Time
  nextId : Nat
  entries : List (Entry ε)

namespace EventQueue

variable {ε : Type}

/-- At time zero, with nothing scheduled. -/
def empty : EventQueue ε := ⟨0, 0, []⟩

/-- The list with an entry behind those that are not later. -/
def insert (e : Entry ε) : List (Entry ε) → List (Entry ε)
  | [] => [e]
  | x :: xs => if e.time < x.time then e :: x :: xs else x :: insert e xs

/-- Schedules an event at a time, or now if that has passed. Gives its number. -/
def scheduleAt (q : EventQueue ε) (time : Time) (event : ε) : Nat × EventQueue ε :=
  (q.nextId,
    { q with nextId := q.nextId + 1, entries := insert ⟨max time q.now, q.nextId, event, false⟩ q.entries })

/-- Schedules an event after a delay. Gives its number. -/
def schedule (q : EventQueue ε) (delay : Time) (event : ε) : Except Fault (Nat × EventQueue ε) :=
  (Time.add q.now delay).map fun time => q.scheduleAt time event

/-- Will the event still be handed out? -/
def isPending (q : EventQueue ε) (id : Nat) : Bool :=
  q.entries.any fun e => e.id == id && !e.cancelled

/-- Is the event gone: handed out, or cancelled and dropped? -/
def isExpired (q : EventQueue ε) (id : Nat) : Bool :=
  !q.entries.any fun e => e.id == id

/-- Marks the entry with a number. -/
def cancelEntry (id : Nat) (e : Entry ε) : Entry ε :=
  if e.id = id then { e with cancelled := true } else e

/-- Cancels an event. Tells whether it was pending. -/
def cancel (q : EventQueue ε) (id : Nat) : Bool × EventQueue ε :=
  (q.isPending id, { q with entries := q.entries.map (cancelEntry id) })

/-- Drops the cancelled events at the front. -/
def settle (q : EventQueue ε) : EventQueue ε :=
  { q with entries := q.entries.dropWhile (·.cancelled) }

def peekTime (q : EventQueue ε) : Option Time × EventQueue ε :=
  let q := q.settle
  (q.entries.head?.map (·.time), q)

/-- The next event, whose time becomes the present. -/
def pop (q : EventQueue ε) : Option (Time × ε) × EventQueue ε :=
  let q := q.settle
  match q.entries with
  | [] => (none, q)
  | e :: rest => (some (e.time, e.event), { q with now := e.time, entries := rest })

/-- The number of events that will still be handed out. -/
def length (q : EventQueue ε) : Nat := q.entries.countP fun e => !e.cancelled

def clear (q : EventQueue ε) : EventQueue ε := { q with entries := [] }

end EventQueue

end SlotNet
