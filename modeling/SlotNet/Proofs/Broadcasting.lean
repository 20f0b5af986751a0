import Mathlib.Order.WithBot
import SlotNet.Proofs.Acts
import SlotNet.Proofs.Channel

/-!
# Runs of an event loop that broadcasts

The handlers of an event loop broadcast frames and schedule events of their own. Events leave the
queue only by being handed out. What was scheduled for which receiver, what was cancelled and what
was handed out is written down.
-/

namespace SlotNet

/-- A delivery that a transmission scheduled. -/
structure Delivery where
  /-- The transmission, by its place in the run. -/
  call : Nat
  /-- The event that was being handled. -/
  during : WithBot Key
  time : Time
  /-- The number of its event. -/
  id : Nat
  sender : Address
  receiver : Address
  event : Event

namespace Delivery

def key (d : Delivery) : Key := toLex (d.time, d.id)

def inFlight (d : Delivery) : InFlight := ⟨d.id, d.sender, d.receiver⟩

/-- Is the delivery still to come when the later transmission is made, cancelled or not? -/
def Overlaps (d later : Delivery) : Prop :=
  d.call < later.call ∧ later.during < (d.key : WithBot Key)

/-- Are they for one receiver and from two senders? -/
def Rivals (d e : Delivery) : Prop := d.receiver = e.receiver ∧ d.sender ≠ e.sender

instance (d later : Delivery) : Decidable (d.Overlaps later) := inferInstanceAs (Decidable (_ ∧ _))

instance (d e : Delivery) : Decidable (d.Rivals e) := inferInstanceAs (Decidable (_ ∧ _))

end Delivery

/-- An event loop with a channel. -/
structure Loop where
  events : EventQueue Event
  channel : Channel
  stats : Stats
  /-- The event that is being handled. -/
  handling : WithBot Key
  /-- The number of transmissions so far. -/
  calls : Nat
  /-- What they scheduled, in order. -/
  deliveries : List Delivery
  /-- Numbers of the events that were cancelled. -/
  cancelled : List Nat
  /-- The events that were handed out, in order. -/
  handed : List (Entry Event)
  /-- Receivers within range of the transmissions, summed up. -/
  reached : Nat

namespace Loop

/-- What the handlers and the loop do. -/
inductive Act where
  | register (node : Nat) (address : Address)
  | schedule (delay : Time) (event : Event)
  | scheduleAt (time : Time) (event : Event)
  /-- An event is cancelled that is no delivery. -/
  | cancel (id : Nat)
  /-- Other things are counted. -/
  | count (stats : Stats)
  /-- The next event is looked at and handed out. -/
  | handle
  | transmit (sender : Nat) (frame : Frame) (positions : List Point)

def start (maxRange : Float) : Loop where
  events := .empty
  channel := .new maxRange
  stats := {}
  handling := ⊥
  calls := 0
  deliveries := []
  cancelled := []
  handed := []
  reached := 0

/-- The numbers of the cancelled events that still wait. -/
def marks (events : EventQueue Event) : List Nat :=
  (events.entries.filter (·.cancelled)).map (·.id)

theorem mem_marks {events : EventQueue Event} {id : Nat} :
    id ∈ marks events ↔ ∃ e ∈ events.entries, e.cancelled = true ∧ e.id = id := by
  simp [marks, and_assoc]

/-- The deliveries to some listeners of a frame that a sender broadcasts now; their numbers begin
with `id`. -/
def deliveriesTo (s : Loop) (sender : Endpoint) (here : Point) (frame : Frame)
    (positions : List Point) : Nat → List Endpoint → List Delivery
  | _, [] => []
  | id, listener :: rest =>
    match Channel.hearingDistance s.channel.maxRange positions sender.node here listener with
    | none => s.deliveriesTo sender here frame positions id rest
    | some distance =>
      { call := s.calls, during := s.handling
        time := s.events.now + Timing.propagationDelay distance, id
        sender := sender.address, receiver := listener.address
        event := .deliver listener.node frame } ::
      s.deliveriesTo sender here frame positions (id + 1) rest

/-- The deliveries of a frame that a node broadcasts now. -/
def deliveriesOf (s : Loop) (sender : Nat) (frame : Frame) (positions : List Point) :
    List Delivery :=
  match s.channel.endpoints.find? (·.node == sender), positions[sender]? with
  | some endpoint, some here =>
    s.deliveriesTo endpoint here frame positions s.events.nextId s.channel.endpoints
  | _, _ => []

/-- The state after an act, if the act is possible. -/
def step (s : Loop) : Act → Option Loop
  | .register node address => some { s with channel := s.channel.register node address }
  | .schedule delay event =>
    match s.events.schedule delay event with
    | .ok (_, events) => some { s with events }
    | .error _ => none
  | .scheduleAt time event => some { s with events := (s.events.scheduleAt time event).2 }
  | .cancel id =>
    if s.deliveries.all (·.id != id) then
      let events := (s.events.cancel id).2
      some { s with events, cancelled := s.cancelled ++ marks events }
    else none
  | .count stats =>
    if stats.collisions = s.stats.collisions ∧
      stats.cancelledDeliveries = s.stats.cancelledDeliveries then some { s with stats }
    else none
  | .handle =>
    match s.events.settle.entries.head?, s.events.peekTime.2.pop with
    | some e, (some (time, event), events) => some { s with
        events, handling := (toLex (time, e.id) : Key)
        handed := s.handed ++ [⟨time, e.id, event, false⟩] }
    | _, _ => none
  | .transmit sender frame positions =>
    match s.channel.transmit sender frame s.events positions s.stats with
    | .ok (channel, events, stats, outcome) => some { s with
        channel, events, stats, calls := s.calls + 1
        deliveries := s.deliveries ++ s.deliveriesOf sender frame positions
        cancelled := s.cancelled ++ marks events
        reached := s.reached + outcome.reached }
    | .error _ => none

def run : List Act → Loop → Option Loop := Acts.run step

variable {s s' : Loop}

theorem step_handle (hs : s.events.Ordered) (h : s.step .handle = some s') :
    ∃ e ∈ s.events.entries, e.cancelled = false ∧ s'.events.Ordered ∧
      s'.events.now = e.time ∧ s'.events.nextId = s.events.nextId ∧
      (∀ x, x ∈ s'.events.entries ↔ x ∈ s.events.entries ∧ e.key < x.key) ∧
      (∀ x ∈ s.events.entries, x.key < e.key → x.cancelled = true) ∧
      s' = { s with events := s'.events, handling := e.key, handed := s.handed ++ [e] } := by
  rw [step, EventQueue.pop_peekTime] at h
  cases hp : s.events.pop with
  | mk r events =>
    cases r with
    | none =>
      cases hh : s.events.settle.entries.head? <;> simp [hh, hp] at h
    | some r =>
      obtain ⟨time, event⟩ := r
      obtain ⟨e, he, hc, rfl, rfl, hhead, hnow, hnext, hmem, hdrop, hord⟩ :=
        EventQueue.pop_some hs hp
      simp only [hhead, hp, Option.some.injEq] at h
      subst h
      refine ⟨e, he, hc, hord, hnow, hnext, hmem, hdrop, ?_⟩
      rw [← hc]
      rfl

end Loop

end SlotNet
