import SlotNet.Channel
import SlotNet.Proofs.EventQueue

/-!
# What a transmission does to the events

`cancelAll_spec` says which events a collision marks, and `deliver_ok` what sending to one listener
leaves behind: one event more, marked if it ran into others, and those marked too.
-/

namespace SlotNet

def InFlight.numbered (hit : List InFlight) (id : Nat) : Bool := hit.any (·.delivery == id)

theorem InFlight.numbered_iff {hit : List InFlight} {id : Nat} :
    numbered hit id = true ↔ ∃ t ∈ hit, t.delivery = id := by
  simp [numbered]

/-- An entry that is cancelled if a condition holds. -/
def Entry.cancelIf {ε : Type} (e : Entry ε) (b : Bool) : Entry ε :=
  { e with cancelled := e.cancelled || b }

namespace EventQueue

variable {ε : Type} {q : EventQueue ε}

theorem cancelEntry_eq (id : Nat) (e : Entry ε) : cancelEntry id e = e.cancelIf (id == e.id) := by
  unfold cancelEntry Entry.cancelIf
  by_cases h : e.id = id
  · rw [if_pos h, beq_iff_eq.2 h.symm, Bool.or_true]
  · rw [if_neg h, beq_eq_false_iff_ne.2 (Ne.symm h), Bool.or_false]

theorem isPending_iff {id : Nat} :
    q.isPending id = true ↔ ∃ e ∈ q.entries, e.id = id ∧ e.cancelled = false := by
  simp [isPending]

theorem isExpired_iff {id : Nat} : q.isExpired id = true ↔ ∀ e ∈ q.entries, e.id ≠ id := by
  simp [isExpired]

end EventQueue

namespace Channel

variable {q : EventQueue Event}

theorem cancelAll_cons (q : EventQueue Event) (t : InFlight) (rest : List InFlight) :
    cancelAll q (t :: rest)
      = ((if q.isPending t.delivery then 1 else 0) + (cancelAll (q.cancel t.delivery).2 rest).1,
          (cancelAll (q.cancel t.delivery).2 rest).2) := rfl

theorem cancelAll_spec (q : EventQueue Event) (hit : List InFlight) :
    (cancelAll q hit).2 = { q with
      entries := q.entries.map fun e => e.cancelIf (InFlight.numbered hit e.id) } := by
  induction hit generalizing q with
  | nil =>
    simp only [cancelAll, InFlight.numbered, List.any_nil, Entry.cancelIf, Bool.or_false]
    rw [List.map_id']
  | cons t rest ih =>
    rw [cancelAll_cons]
    dsimp only
    rw [ih]
    simp only [EventQueue.cancel, List.map_map]
    congr 1
    refine List.map_congr_left fun e _ => ?_
    simp only [Function.comp_apply, EventQueue.cancelEntry_eq, Entry.cancelIf, InFlight.numbered,
      List.any_cons, Bool.or_assoc]

theorem ordered_cancelAll (h : q.Ordered) (hit : List InFlight) : (cancelAll q hit).2.Ordered := by
  induction hit generalizing q with
  | nil => exact h
  | cons t rest ih =>
    rw [cancelAll_cons]
    exact ih (h.cancel t.delivery)

/-- The counters after a transmission to one listener cancelled so many pending deliveries of others,
and its own one if it collided. -/
def countHit (s : Stats) (cancelled : Nat) (collided : Bool) : Stats :=
  { s with
    collisions := s.collisions + collided.toNat
    cancelledDeliveries := s.cancelledDeliveries + cancelled + collided.toNat }

theorem deliver_ok {underWay : List InFlight} {sender : Address} {frame : Frame}
    {listener : Endpoint} {distance : Float} {s s' : Spread} (hs : s.events.Ordered)
    (h : deliver underWay sender frame listener distance s = .ok s') :
    let hit := overlapping underWay sender listener.address
    let time := s.events.now + Timing.propagationDelay distance
    s'.sent = s.sent ++ [⟨s.events.nextId, sender, listener.address⟩] ∧
    s'.outcome.reached = s.outcome.reached + 1 ∧
    s'.stats = countHit s.stats (cancelAll s.events hit).1 (!hit.isEmpty) ∧
    s'.events.Ordered ∧ s'.events.now = s.events.now ∧
    s'.events.nextId = s.events.nextId + 1 ∧
    ∀ e, e ∈ s'.events.entries ↔
      e = ⟨time, s.events.nextId, .deliver listener.node frame, !hit.isEmpty⟩ ∨
        ∃ x ∈ s.events.entries, e = x.cancelIf (InFlight.numbered hit x.id) := by
  dsimp only
  have hspec := cancelAll_spec s.events (overlapping underWay sender listener.address)
  have hord := ordered_cancelAll hs (overlapping underWay sender listener.address)
  unfold deliver at h
  cases hc : cancelAll s.events (overlapping underWay sender listener.address) with
  | mk n events =>
    rw [hc] at hspec hord
    dsimp only at hspec hord
    simp only [hc, Fault.bind_eq_ok] at h
    obtain ⟨stats, h1, ⟨id, events'⟩, h2, h3⟩ := h
    obtain ⟨k, hk, rfl⟩ := Fault.map_eq_ok.1 h1
    obtain rfl := (Count.add_eq_ok hk).1
    obtain ⟨rfl, rfl⟩ := EventQueue.schedule_ok h2
    have hord' := hord.scheduleAt (events.now + Timing.propagationDelay distance)
      (.deliver listener.node frame)
    have hnow : events.now = s.events.now := by rw [hspec]
    have hnext : events.nextId = s.events.nextId := by rw [hspec]
    have hentry : events.entryAt (events.now + Timing.propagationDelay distance)
        (.deliver listener.node frame)
        = ⟨s.events.now + Timing.propagationDelay distance, s.events.nextId,
            .deliver listener.node frame, false⟩ := by
      rw [EventQueue.entryAt, hnow, hnext, Nat.max_eq_left (Nat.le_add_right _ _)]
    have hmem : ∀ x, x ∈ events.entries ↔ ∃ y ∈ s.events.entries, y.cancelIf
        (InFlight.numbered (overlapping underWay sender listener.address) y.id) = x := by
      intro x
      rw [hspec, List.mem_map]
    by_cases he : (overlapping underWay sender listener.address).isEmpty = true
    · rw [if_pos he] at h3
      cases h3
      refine ⟨by rw [hnext], rfl, ?_, hord', hnow, congrArg (· + 1) hnext, fun e => ?_⟩
      · simp [he, countHit]
      · rw [EventQueue.mem_scheduleAt, hentry, hmem, he]
        simp only [Bool.not_true, eq_comm]
    · rw [if_neg he] at h3
      obtain ⟨stats', h4, stats'', h5, h6⟩ := by simpa only [Fault.bind_eq_ok] using h3
      obtain ⟨k, hk, rfl⟩ := Fault.map_eq_ok.1 h4
      obtain rfl := (Count.add_eq_ok hk).1
      obtain ⟨k, hk, rfl⟩ := Fault.map_eq_ok.1 h5
      obtain rfl := (Count.add_eq_ok hk).1
      cases h6
      rw [Bool.not_eq_true] at he
      refine ⟨by rw [hnext], rfl, ?_, hord'.cancel _, hnow, congrArg (· + 1) hnext, fun e => ?_⟩
      · simp [he, countHit]
      · rw [EventQueue.mem_cancel]
        simp only [EventQueue.mem_scheduleAt, hentry, hmem, he, hnext, Bool.not_false]
        constructor
        · rintro ⟨x, rfl | ⟨y, hy, rfl⟩, rfl⟩
          · exact .inl (by simp [EventQueue.cancelEntry])
          · refine .inr ⟨y, hy, if_neg ?_⟩
            exact Nat.ne_of_lt (hs.lt_nextId y hy)
        · rintro (rfl | ⟨y, hy, rfl⟩)
          · exact ⟨_, .inl rfl, by simp [EventQueue.cancelEntry]⟩
          · refine ⟨_, .inr ⟨y, hy, rfl⟩, if_neg ?_⟩
            exact Nat.ne_of_lt (hs.lt_nextId y hy)

end Channel

end SlotNet
