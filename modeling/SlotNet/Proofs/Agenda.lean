import Mathlib.Data.List.MinMax
import SlotNet.Proofs.EventQueue

/-!
# What a queue of events answers

An agenda holds the time and the events to come, in no order. Everything that a queue is asked has a
plain answer there: the next event is the one with the least key, and cancelling takes an event out at
once. `Reliable` is what a caller may rely on, in terms of the answers alone, and `Agenda.reliable`
says that the answers of an agenda are so.
-/

namespace SlotNet

/-! ## Requests and answers -/

inductive Query (ε : Type) where
  | schedule (delay : Time) (event : ε)
  | scheduleAt (time : Time) (event : ε)
  | cancel (id : Nat)
  | pop
  | peekTime
  | length
  | clear

inductive Answer (ε : Type) where
  /-- The number of the new event. -/
  | scheduled (id : Nat)
  | cancelled (wasPending : Bool)
  /-- The next event. Its number is no part of what the caller is told. -/
  | popped (next : Option (Time × ε)) (id : Option Nat)
  | time (next : Option Time)
  | count (pending : Nat)
  | cleared

/-- Something that answers requests. -/
structure Server (ε σ : Type) where
  start : σ
  ask : Query ε → σ → Except Fault (Answer ε × σ)
  clock : σ → Time

/-- A request with its answer, and the time after it. -/
structure Exchanged (ε : Type) where
  request : Query ε
  answer : Answer ε
  clock : Time

namespace Server

variable {ε σ τ : Type}

def talk (S : Server ε σ) : List (Query ε) → σ → Except Fault (List (Exchanged ε) × σ)
  | [], s => .ok ([], s)
  | r :: rest, s => do
    let (answer, s) ← S.ask r s
    let (more, s') ← S.talk rest s
    return (⟨r, answer, S.clock s⟩ :: more, s')

/-- The answers to some requests from the start on. -/
def answers (S : Server ε σ) (requests : List (Query ε)) : Except Fault (List (Exchanged ε)) :=
  (S.talk requests S.start).map Prod.fst

variable {S : Server ε σ} {s s' : σ} {first rest : List (Query ε)} {r : Query ε}
  {l l' : List (Exchanged ε)}

theorem talk_cons_ok : S.talk (r :: rest) s = .ok (l, s') ↔
    ∃ answer t more, S.ask r s = .ok (answer, t) ∧ S.talk rest t = .ok (more, s') ∧
      l = ⟨r, answer, S.clock t⟩ :: more := by
  constructor
  · intro h
    obtain ⟨⟨answer, t⟩, h1, h⟩ := Fault.bind_eq_ok.1 h
    obtain ⟨⟨more, u⟩, h2, h⟩ := Fault.bind_eq_ok.1 h
    cases h
    exact ⟨answer, t, more, h1, h2, rfl⟩
  · rintro ⟨answer, t, more, h1, h2, rfl⟩
    exact Fault.bind_eq_ok.2 ⟨_, h1, Fault.bind_eq_ok.2 ⟨_, h2, rfl⟩⟩

theorem talk_append_ok : S.talk (first ++ rest) s = .ok (l, s') ↔
    ∃ l₁ t l₂, S.talk first s = .ok (l₁, t) ∧ S.talk rest t = .ok (l₂, s') ∧ l = l₁ ++ l₂ := by
  induction first generalizing s l with
  | nil =>
    constructor
    · exact fun h => ⟨[], s, l, rfl, h, rfl⟩
    · rintro ⟨l₁, t, l₂, h1, h2, rfl⟩
      cases h1
      exact h2
  | cons r first ih =>
    rw [List.cons_append, talk_cons_ok]
    constructor
    · rintro ⟨answer, t, more, h1, h2, rfl⟩
      obtain ⟨l₁, u, l₂, h3, h4, rfl⟩ := ih.1 h2
      exact ⟨_, u, l₂, talk_cons_ok.2 ⟨answer, t, l₁, h1, h3, rfl⟩, h4, rfl⟩
    · rintro ⟨l₁, u, l₂, h1, h2, rfl⟩
      obtain ⟨answer, t, more, h3, h4, rfl⟩ := talk_cons_ok.1 h1
      exact ⟨answer, t, more ++ l₂, h3, ih.2 ⟨more, u, l₂, h4, h2, rfl⟩, rfl⟩

theorem answers_ok : S.answers first = .ok l ↔ ∃ s, S.talk first S.start = .ok (l, s) := by
  unfold answers
  rw [Fault.map_eq_ok]
  constructor
  · rintro ⟨⟨l, s⟩, h, rfl⟩
    exact ⟨s, h⟩
  · rintro ⟨s, h⟩
    exact ⟨(l, s), h, rfl⟩

theorem talk_of_answers_append (h : S.talk first S.start = .ok (l, s))
    (h' : S.answers (first ++ rest) = .ok (l ++ l')) : ∃ s', S.talk rest s = .ok (l', s') := by
  obtain ⟨s', h'⟩ := answers_ok.1 h'
  obtain ⟨l₁, t, l₂, h1, h2, hl⟩ := talk_append_ok.1 h'
  obtain ⟨rfl, rfl⟩ := Prod.mk.inj (Except.ok.inj (h.symm.trans h1))
  obtain rfl := List.append_cancel_left hl
  exact ⟨s', h2⟩

/-! ## Equal answers -/

/-- The same fault, or the same answer and related states. -/
def Agree {α : Type} (R : σ → τ → Prop) (x : Except Fault (α × σ)) (y : Except Fault (α × τ)) :
    Prop :=
  (∃ e, x = .error e ∧ y = .error e) ∨ ∃ a s t, x = .ok (a, s) ∧ y = .ok (a, t) ∧ R s t

theorem Agree.ofOk {α : Type} {R : σ → τ → Prop} {x : α × σ} {y : α × τ} (ha : x.1 = y.1)
    (hs : R x.2 y.2) : Agree R (.ok x) (.ok y) := .inr ⟨y.1, x.2, y.2, by rw [← ha], rfl, hs⟩

theorem Agree.bind {α β : Type} {R : σ → τ → Prop} {x : Except Fault (α × σ)}
    {y : Except Fault (α × τ)} {f : α × σ → Except Fault (β × σ)} {g : α × τ → Except Fault (β × τ)}
    (h : Agree R x y) (hfg : ∀ a s t, R s t → Agree R (f (a, s)) (g (a, t))) :
    Agree R (x >>= f) (y >>= g) := by
  rcases h with ⟨e, rfl, rfl⟩ | ⟨a, s, t, rfl, rfl, hst⟩
  · exact .inl ⟨e, rfl, rfl⟩
  · exact hfg a s t hst

theorem agree_talk {T : Server ε τ} {R : σ → τ → Prop} (hclock : ∀ s t, R s t → S.clock s = T.clock t)
    (hask : ∀ r s t, R s t → Agree R (S.ask r s) (T.ask r t)) (requests : List (Query ε)) {s : σ}
    {t : τ} (hst : R s t) : Agree R (S.talk requests s) (T.talk requests t) := by
  induction requests generalizing s t with
  | nil => exact .inr ⟨[], s, t, rfl, rfl, hst⟩
  | cons r rest ih =>
    refine (hask r s t hst).bind fun answer s' t' hst' => (ih hst').bind fun more s'' t'' hst'' => ?_
    rw [hclock s' t' hst']
    exact .inr ⟨_, s'', t'', rfl, rfl, hst''⟩

/-- Servers answer alike if their states can be related so that every request keeps the relation. -/
theorem answers_eq {T : Server ε τ} {R : σ → τ → Prop} (hstart : R S.start T.start)
    (hclock : ∀ s t, R s t → S.clock s = T.clock t)
    (hask : ∀ r s t, R s t → Agree R (S.ask r s) (T.ask r t)) : S.answers = T.answers := by
  funext requests
  unfold answers
  rcases agree_talk hclock hask requests hstart with ⟨e, h1, h2⟩ | ⟨l, s, t, h1, h2, -⟩
  · rw [h1, h2]
    rfl
  · rw [h1, h2]
    rfl

end Server

/-! ## What a caller may rely on -/

namespace Exchanged

variable {ε : Type}

/-- The number that was given to a new event. -/
def scheduled? (x : Exchanged ε) : Option Nat :=
  match x.answer with
  | .scheduled id => some id
  | _ => none

def fired? (x : Exchanged ε) : Option Nat :=
  match x.answer with
  | .popped _ id => id
  | _ => none

def cancelled? (x : Exchanged ε) : Option Nat :=
  match x.request, x.answer with
  | .cancel id, .cancelled true => some id
  | _, _ => none

end Exchanged

/-- What holds of the answers, whatever is asked. -/
structure Reliable {ε : Type} (answers : List (Query ε) → Except Fault (List (Exchanged ε))) :
    Prop where
  /-- No number is given twice. -/
  fresh : ∀ requests l, answers requests = .ok l → (l.filterMap Exchanged.scheduled?).Nodup
  /-- The clock never goes back. -/
  forward : ∀ requests l, answers requests = .ok l → l.Pairwise fun x y => x.clock ≤ y.clock
  /-- Each event fires at most once. -/
  once : ∀ requests l, answers requests = .ok l → (l.filterMap Exchanged.fired?).Nodup
  /-- An event that was cancelled never fires, neither before nor after. -/
  silent : ∀ requests l, answers requests = .ok l →
    ∀ id ∈ l.filterMap Exchanged.cancelled?, id ∉ l.filterMap Exchanged.fired?
  /-- Only what was scheduled fires. -/
  known : ∀ requests l, answers requests = .ok l →
    ∀ id ∈ l.filterMap Exchanged.fired?, id ∈ l.filterMap Exchanged.scheduled?
  /-- What was scheduled before a clear does not fire after it. -/
  gone : ∀ before after l l', answers (before ++ [.clear]) = .ok l →
    answers (before ++ [.clear] ++ after) = .ok (l ++ l') →
    ∀ id ∈ l.filterMap Exchanged.scheduled?, id ∉ l'.filterMap Exchanged.fired?
  /-- To cancel by such a number is answered in the negative, and no other answer is changed. -/
  inert : ∀ before between rest l l' l'', answers (before ++ [.clear]) = .ok l →
    answers (before ++ [.clear] ++ between) = .ok (l ++ l') →
    answers (before ++ [.clear] ++ between ++ rest) = .ok (l ++ l' ++ l'') →
    ∀ id ∈ l.filterMap Exchanged.scheduled?, ∃ x : Exchanged ε, x.answer = .cancelled false ∧
      answers (before ++ [.clear] ++ between ++ .cancel id :: rest) = .ok (l ++ l' ++ x :: l'')

/-! ## The agenda -/

/-- An event to come. -/
structure Booking (ε : Type) where
  time : Time
  id : Nat
  event : ε
  deriving DecidableEq, Repr

def Booking.key {ε : Type} (b : Booking ε) : Key := toLex (b.time, b.id)

/-- The time, the next number, and the events to come. Their order means nothing. -/
structure Agenda (ε : Type) where
  clock : Time
  nextId : Nat
  pending : List (Booking ε)

namespace Agenda

variable {ε : Type}

def empty : Agenda ε := ⟨0, 0, []⟩

/-- A new event, not before now, with a number that was never given. -/
def scheduleAt (a : Agenda ε) (time : Time) (event : ε) : Answer ε × Agenda ε :=
  (.scheduled a.nextId,
    { a with nextId := a.nextId + 1, pending := ⟨max time a.clock, a.nextId, event⟩ :: a.pending })

def without (a : Agenda ε) (id : Nat) : Agenda ε :=
  { a with pending := a.pending.filter (·.id != id) }

def first (a : Agenda ε) : Option (Booking ε) := a.pending.argmin Booking.key

def pop (a : Agenda ε) : Answer ε × Agenda ε :=
  match a.first with
  | none => (.popped none none, a)
  | some b => (.popped (some (b.time, b.event)) (some b.id), { a.without b.id with clock := b.time })

def ask : Query ε → Agenda ε → Except Fault (Answer ε × Agenda ε)
  | .schedule delay event, a => (Time.add a.clock delay).map (a.scheduleAt · event)
  | .scheduleAt time event, a => .ok (a.scheduleAt time event)
  | .cancel id, a => .ok (.cancelled (a.pending.any (·.id == id)), a.without id)
  | .pop, a => .ok a.pop
  | .peekTime, a => .ok (.time (a.first.map Booking.time), a)
  | .length, a => .ok (.count a.pending.length, a)
  | .clear, a => .ok (.cleared, { a with pending := [] })

def server (ε : Type) : Server ε (Agenda ε) := ⟨empty, ask, clock⟩

def Has (a : Agenda ε) (id : Nat) : Prop := ∃ b ∈ a.pending, b.id = id

/-- Every event to come has its own number, and none is overdue. -/
structure Sound (a : Agenda ε) : Prop where
  distinct : (a.pending.map Booking.id).Nodup
  lt_nextId : ∀ b ∈ a.pending, b.id < a.nextId
  clock_le : ∀ b ∈ a.pending, a.clock ≤ b.time

variable {a a' : Agenda ε} {b : Booking ε} {id : Nat}

theorem sound_clear (a : Agenda ε) : ({ a with pending := [] } : Agenda ε).Sound :=
  ⟨List.nodup_nil, nofun, nofun⟩

theorem sound_empty : (empty : Agenda ε).Sound := sound_clear empty

theorem Sound.eq_of_id (h : a.Sound) {b b' : Booking ε} (hb : b ∈ a.pending) (hb' : b' ∈ a.pending)
    (hid : b.id = b'.id) : b = b' := List.inj_on_of_nodup_map h.distinct hb hb' hid

theorem first_eq_none : a.first = none ↔ a.pending = [] := List.argmin_eq_none

theorem mem_of_first (h : a.first = some b) : b ∈ a.pending := List.argmin_mem h

theorem key_le_of_first (h : a.first = some b) {x : Booking ε} (hx : x ∈ a.pending) :
    b.key ≤ x.key := List.le_of_mem_argmin hx h

theorem time_le_of_key_le {x y : Booking ε} (h : x.key ≤ y.key) : x.time ≤ y.time :=
  (Prod.Lex.toLex_le_toLex.1 h).elim Nat.le_of_lt fun h => Nat.le_of_eq h.1

theorem Sound.first_eq (h : a.Sound) (hb : b ∈ a.pending) (hle : ∀ x ∈ a.pending, b.key ≤ x.key) :
    a.first = some b := by
  cases hf : a.first with
  | none =>
    rw [first_eq_none.1 hf] at hb
    cases hb
  | some m =>
    have hm := mem_of_first hf
    have hkey : m.key = b.key := le_antisymm (key_le_of_first hf hb) (hle m hm)
    have hid : m.id = b.id := congrArg (fun k : Key => (ofLex k).2) hkey
    rw [h.eq_of_id hm hb hid]

theorem mem_without {x : Booking ε} : x ∈ (a.without id).pending ↔ x ∈ a.pending ∧ x.id ≠ id := by
  simp [without]

theorem without_of_not_has (h : ¬ a.Has id) : a.without id = a := by
  have hall : a.pending.filter (·.id != id) = a.pending := by
    rw [List.filter_eq_self]
    intro b hb
    exact bne_iff_ne.2 fun hid => h ⟨b, hb, hid⟩
  rw [without, hall]

theorem any_eq_true : a.pending.any (·.id == id) = true ↔ a.Has id := by
  simp [Has]

theorem Sound.without (h : a.Sound) (id : Nat) : (a.without id).Sound :=
  ⟨h.distinct.sublist (List.filter_sublist.map _), fun b hb => h.lt_nextId b (mem_without.1 hb).1,
    fun b hb => h.clock_le b (mem_without.1 hb).1⟩

theorem Sound.scheduleAt (h : a.Sound) (time : Time) (event : ε) :
    (a.scheduleAt time event).2.Sound := by
  refine ⟨List.nodup_cons.2 ⟨fun hm => ?_, h.distinct⟩, fun b hb => ?_, fun b hb => ?_⟩
  · obtain ⟨b, hb, hid⟩ := List.mem_map.1 hm
    exact Nat.ne_of_lt (h.lt_nextId b hb) hid
  · rcases List.mem_cons.1 hb with rfl | hb
    · exact Nat.lt_succ_self _
    · exact Nat.lt_succ_of_lt (h.lt_nextId b hb)
  · rcases List.mem_cons.1 hb with rfl | hb
    · exact Nat.le_max_right _ _
    · exact h.clock_le b hb

/-- What one request does: numbers are given in order, the clock goes on, nothing comes back, and what
fires or is cancelled was to come and is so no longer. -/
structure Moves (a : Agenda ε) (x : Exchanged ε) (a' : Agenda ε) : Prop where
  sound : a'.Sound
  clock : a.clock ≤ a'.clock
  stamp : x.clock = a'.clock
  scheduled : (x.scheduled? = none ∧ a'.nextId = a.nextId) ∨
    (x.scheduled? = some a.nextId ∧ a'.nextId = a.nextId + 1)
  has : ∀ id, a'.Has id → a.Has id ∨ x.scheduled? = some id
  fired : ∀ id, x.fired? = some id → a.Has id ∧ ¬ a'.Has id
  cancelled : ∀ id, x.cancelled? = some id → a.Has id ∧ ¬ a'.Has id ∧ x.fired? = none

theorem over_without (id : Nat) :
    (∀ n, (a.without id).Has n → a.Has n) ∧ ¬ (a.without id).Has id := by
  constructor
  · rintro n ⟨b, hb, hn⟩
    exact ⟨b, (mem_without.1 hb).1, hn⟩
  · rintro ⟨b, hb, hid⟩
    exact (mem_without.1 hb).2 hid

theorem Sound.moves_scheduleAt (h : a.Sound) (r : Query ε) (time : Time) (event : ε) :
    Moves a ⟨r, (a.scheduleAt time event).1, (a.scheduleAt time event).2.clock⟩
      (a.scheduleAt time event).2 := by
  refine ⟨h.scheduleAt time event, Nat.le_refl _, rfl, .inr ⟨rfl, rfl⟩, ?_, nofun, ?_⟩
  · rintro id ⟨b, hb, rfl⟩
    rcases List.mem_cons.1 hb with rfl | hb
    · exact .inr rfl
    · exact .inl ⟨b, hb, rfl⟩
  · cases r <;> exact nofun

theorem Sound.moves_cancel (h : a.Sound) (id : Nat) :
    Moves a ⟨.cancel id, .cancelled (a.pending.any (·.id == id)), a.clock⟩ (a.without id) := by
  obtain ⟨hback, hover⟩ := over_without (a := a) id
  refine ⟨h.without id, Nat.le_refl _, rfl, .inl ⟨rfl, rfl⟩, fun n hn => .inl (hback n hn), nofun, ?_⟩
  intro n hn
  by_cases hany : a.pending.any (·.id == id) = true
  · simp only [Exchanged.cancelled?, hany, Option.some.injEq] at hn
    subst hn
    exact ⟨any_eq_true.1 hany, hover, rfl⟩
  · rw [Bool.not_eq_true] at hany
    simp [Exchanged.cancelled?, hany] at hn

theorem Sound.moves_pop (h : a.Sound) (hf : a.first = some b) :
    Moves a ⟨.pop, .popped (some (b.time, b.event)) (some b.id), b.time⟩
      { a.without b.id with clock := b.time } := by
  have hb := mem_of_first hf
  have hw := h.without b.id
  obtain ⟨hback, hover⟩ := over_without (a := a) b.id
  refine ⟨⟨hw.distinct, hw.lt_nextId, fun x hx => ?_⟩, h.clock_le b hb, rfl, .inl ⟨rfl, rfl⟩,
    fun n hn => .inl (hback n hn), fun n hn => ?_, nofun⟩
  · exact time_le_of_key_le (key_le_of_first hf (mem_without.1 hx).1)
  · obtain rfl : b.id = n := Option.some.inj hn
    exact ⟨⟨b, hb, rfl⟩, hover⟩

theorem Sound.ask (h : a.Sound) {r : Query ε} {answer : Answer ε}
    (hask : ask r a = .ok (answer, a')) : Moves a ⟨r, answer, a'.clock⟩ a' := by
  cases r with
  | schedule delay event =>
    obtain ⟨time, -, hs⟩ := Fault.map_eq_ok.1 hask
    cases hs
    exact h.moves_scheduleAt _ time event
  | scheduleAt time event =>
    cases hask
    exact h.moves_scheduleAt _ time event
  | cancel id =>
    cases hask
    exact h.moves_cancel id
  | pop =>
    rw [Agenda.ask, Agenda.pop] at hask
    cases hf : a.first with
    | none =>
      simp only [hf] at hask
      cases hask
      exact ⟨h, Nat.le_refl _, rfl, .inl ⟨rfl, rfl⟩, fun _ => .inl, nofun, nofun⟩
    | some b =>
      simp only [hf] at hask
      cases hask
      exact h.moves_pop hf
  | peekTime =>
    cases hask
    exact ⟨h, Nat.le_refl _, rfl, .inl ⟨rfl, rfl⟩, fun _ => .inl, nofun, nofun⟩
  | length =>
    cases hask
    exact ⟨h, Nat.le_refl _, rfl, .inl ⟨rfl, rfl⟩, fun _ => .inl, nofun, nofun⟩
  | clear =>
    cases hask
    refine ⟨sound_clear a, Nat.le_refl _, rfl, .inl ⟨rfl, rfl⟩, ?_, nofun, nofun⟩
    rintro id ⟨b, hb, -⟩
    cases hb

/-! ## Runs of requests -/

/-- What some requests do. -/
structure Course (a : Agenda ε) (l : List (Exchanged ε)) (a' : Agenda ε) : Prop where
  sound : a'.Sound
  nextId_le : a.nextId ≤ a'.nextId
  scheduled : l.filterMap Exchanged.scheduled? = List.range' a.nextId (a'.nextId - a.nextId)
  /-- Nothing that is over comes back. -/
  has : ∀ id, id < a.nextId → a'.Has id → a.Has id
  /-- What fires was to come, or is scheduled meanwhile. -/
  fired : ∀ id ∈ l.filterMap Exchanged.fired?, a.Has id ∨ a.nextId ≤ id ∧ id < a'.nextId
  cancelled : ∀ id ∈ l.filterMap Exchanged.cancelled?, a.Has id ∨ a.nextId ≤ id ∧ id < a'.nextId
  once : (l.filterMap Exchanged.fired?).Nodup
  silent : ∀ id ∈ l.filterMap Exchanged.cancelled?, id ∉ l.filterMap Exchanged.fired?
  clock_le : ∀ x ∈ l, a.clock ≤ x.clock
  forward : l.Pairwise fun x y => x.clock ≤ y.clock

theorem Has.lt (h : a.Has id) (hs : a.Sound) : id < a.nextId := by
  obtain ⟨b, hb, rfl⟩ := h
  exact hs.lt_nextId b hb

variable {l : List (Exchanged ε)} {x : Exchanged ε}

theorem Course.not_mem (h : Course a l a') (hlt : id < a.nextId) (hno : ¬ a.Has id) :
    id ∉ l.filterMap Exchanged.fired? ∧ id ∉ l.filterMap Exchanged.cancelled? := by
  constructor
  · intro hm
    rcases h.fired id hm with hhas | ⟨hle, -⟩
    · exact hno hhas
    · omega
  · intro hm
    rcases h.cancelled id hm with hhas | ⟨hle, -⟩
    · exact hno hhas
    · omega

theorem Moves.nextId_le (h : Moves a x a') : a.nextId ≤ a'.nextId := by
  rcases h.scheduled with ⟨-, hn⟩ | ⟨-, hn⟩ <;> omega

theorem Moves.has_or_new (h : Moves a x a') (hhas : a'.Has id) : a.Has id ∨ id = a.nextId := by
  rcases h.has id hhas with hold | hnew
  · exact .inl hold
  · rcases h.scheduled with ⟨hnone, -⟩ | ⟨hsome, -⟩
    · rw [hnone] at hnew
      cases hnew
    · rw [hsome] at hnew
      exact .inr (Option.some.inj hnew).symm

theorem Moves.back {a₁ : Agenda ε} (h : Moves a x a₁) (hle : a₁.nextId ≤ a'.nextId)
    (hlater : a₁.Has id ∨ (a₁.nextId ≤ id ∧ id < a'.nextId)) :
    a.Has id ∨ (a.nextId ≤ id ∧ id < a'.nextId) := by
  rcases hlater with hhas | ⟨hge, hlt⟩
  · have hlt := hhas.lt h.sound
    rcases h.has_or_new hhas with hold | rfl
    · exact .inl hold
    · exact .inr ⟨Nat.le_refl _, Nat.lt_of_lt_of_le hlt hle⟩
  · exact .inr ⟨h.nextId_le.trans hge, hlt⟩

theorem Course.cons {a₁ : Agenda ε} (hs : a.Sound) (h : Moves a x a₁) (hrest : Course a₁ l a') :
    Course a (x :: l) a' := by
  have hle := h.nextId_le
  have hnext := hrest.nextId_le
  -- an event that the first request ended has its number from before
  have hgone : ∀ id, a.Has id → ¬ a₁.Has id →
      id ∉ l.filterMap Exchanged.fired? ∧ id ∉ l.filterMap Exchanged.cancelled? :=
    fun id hhas hno => hrest.not_mem (Nat.lt_of_lt_of_le (hhas.lt hs) hle) hno
  refine ⟨hrest.sound, hle.trans hnext, ?scheduled, ?has, ?fired, ?cancelled, ?once, ?silent,
    ?clock_le, ?forward⟩
  case scheduled =>
    rw [List.filterMap_cons, hrest.scheduled]
    rcases h.scheduled with ⟨hx, hn⟩ | ⟨hx, hn⟩
    · rw [hx, hn]
    · rw [hx, hn]
      show a.nextId :: List.range' (a.nextId + 1) (a'.nextId - (a.nextId + 1)) = _
      rw [← List.range'_succ, show a'.nextId - (a.nextId + 1) + 1 = a'.nextId - a.nextId by omega]
  case has =>
    intro id hlt hhas
    rcases h.has_or_new (hrest.has id (Nat.lt_of_lt_of_le hlt hle) hhas) with hold | rfl
    · exact hold
    · exact absurd hlt (Nat.lt_irrefl _)
  case fired =>
    intro id hm
    obtain ⟨y, hy, hid⟩ := List.mem_filterMap.1 hm
    rcases List.mem_cons.1 hy with rfl | hy
    · exact .inl (h.fired id hid).1
    · exact h.back hnext (hrest.fired id (List.mem_filterMap.2 ⟨y, hy, hid⟩))
  case cancelled =>
    intro id hm
    obtain ⟨y, hy, hid⟩ := List.mem_filterMap.1 hm
    rcases List.mem_cons.1 hy with rfl | hy
    · exact .inl (h.cancelled id hid).1
    · exact h.back hnext (hrest.cancelled id (List.mem_filterMap.2 ⟨y, hy, hid⟩))
  case once =>
    rw [List.filterMap_cons]
    cases hx : x.fired? with
    | none => exact hrest.once
    | some id =>
      obtain ⟨hhas, hno⟩ := h.fired id hx
      exact List.nodup_cons.2 ⟨(hgone id hhas hno).1, hrest.once⟩
  case silent =>
    intro id hc hf
    obtain ⟨y, hy, hyid⟩ := List.mem_filterMap.1 hc
    obtain ⟨z, hz, hzid⟩ := List.mem_filterMap.1 hf
    rcases List.mem_cons.1 hy with rfl | hyl <;> rcases List.mem_cons.1 hz with rfl | hzl
    · obtain ⟨-, -, hnone⟩ := h.cancelled id hyid
      rw [hnone] at hzid
      cases hzid
    · obtain ⟨hhas, hno, -⟩ := h.cancelled id hyid
      exact (hgone id hhas hno).1 (List.mem_filterMap.2 ⟨z, hzl, hzid⟩)
    · obtain ⟨hhas, hno⟩ := h.fired id hzid
      exact (hgone id hhas hno).2 (List.mem_filterMap.2 ⟨y, hyl, hyid⟩)
    · exact hrest.silent id (List.mem_filterMap.2 ⟨y, hyl, hyid⟩)
        (List.mem_filterMap.2 ⟨z, hzl, hzid⟩)
  case clock_le =>
    intro y hy
    rcases List.mem_cons.1 hy with rfl | hy
    · rw [h.stamp]
      exact h.clock
    · exact h.clock.trans (hrest.clock_le y hy)
  case forward => exact List.pairwise_cons.2 ⟨fun y hy => h.stamp ▸ hrest.clock_le y hy, hrest.forward⟩

theorem Sound.talk {requests : List (Query ε)} (h : a.Sound)
    (ht : (server ε).talk requests a = .ok (l, a')) : Course a l a' := by
  induction requests generalizing a l with
  | nil =>
    cases ht
    exact ⟨h, Nat.le_refl _, by simp, fun _ _ => id, nofun, nofun, List.nodup_nil, nofun, nofun, .nil⟩
  | cons r rest ih =>
    obtain ⟨answer, t, more, h1, h2, rfl⟩ := Server.talk_cons_ok.1 ht
    have hmoves := h.ask h1
    exact .cons h hmoves (ih hmoves.sound h2)

theorem not_has_of_clear {before : List (Query ε)}
    (h : (server ε).talk (before ++ [.clear]) a = .ok (l, a')) (id : Nat) : ¬ a'.Has id := by
  obtain ⟨l₁, t, l₂, -, h1, -⟩ := Server.talk_append_ok.1 h
  obtain ⟨answer, u, more, h2, h3, -⟩ := Server.talk_cons_ok.1 h1
  cases h2
  cases h3
  rintro ⟨b, hb, -⟩
  cases hb

theorem ask_cancel_of_not_has (h : ¬ a.Has id) :
    ask (.cancel id) a = .ok (.cancelled false, a) := by
  have hany : a.pending.any (·.id == id) = false := by
    rw [← Bool.not_eq_true]
    exact fun hany => h (any_eq_true.1 hany)
  rw [ask, hany, without_of_not_has h]

theorem Course.lt_of_scheduled (h : Course empty l a) (hid : id ∈ l.filterMap Exchanged.scheduled?) :
    id < a.nextId := by
  rw [h.scheduled, List.mem_range'_1] at hid
  have hle := h.nextId_le
  omega

theorem reliable : Reliable (server ε).answers where
  fresh requests l h := by
    obtain ⟨a, ht⟩ := Server.answers_ok.1 h
    rw [(sound_empty.talk ht).scheduled]
    exact List.nodup_range'
  forward requests l h := by
    obtain ⟨a, ht⟩ := Server.answers_ok.1 h
    exact (sound_empty.talk ht).forward
  once requests l h := by
    obtain ⟨a, ht⟩ := Server.answers_ok.1 h
    exact (sound_empty.talk ht).once
  silent requests l h := by
    obtain ⟨a, ht⟩ := Server.answers_ok.1 h
    exact (sound_empty.talk ht).silent
  known requests l h id hid := by
    obtain ⟨a, ht⟩ := Server.answers_ok.1 h
    have hcourse := sound_empty.talk ht
    rw [hcourse.scheduled, List.mem_range'_1]
    rcases hcourse.fired id hid with ⟨b, hb, -⟩ | ⟨hle, hlt⟩
    · cases hb
    · exact ⟨hle, by omega⟩
  gone before after l l' h h' id hid := by
    obtain ⟨a, ht⟩ := Server.answers_ok.1 h
    obtain ⟨a', ht'⟩ := Server.talk_of_answers_append ht h'
    have hcourse := sound_empty.talk ht
    exact ((hcourse.sound.talk ht').not_mem (hcourse.lt_of_scheduled hid) (not_has_of_clear ht id)).1
  inert before between rest l l' l'' h h' h'' id hid := by
    obtain ⟨a, ht⟩ := Server.answers_ok.1 h
    obtain ⟨a', ht'⟩ := Server.talk_of_answers_append ht h'
    have hall : (server ε).talk (before ++ [.clear] ++ between) empty = .ok (l ++ l', a') :=
      Server.talk_append_ok.2 ⟨l, a, l', ht, ht', rfl⟩
    obtain ⟨a'', ht''⟩ := Server.talk_of_answers_append hall h''
    have hcourse := sound_empty.talk ht
    have hno : ¬ a'.Has id := fun hhas => not_has_of_clear ht id
      ((hcourse.sound.talk ht').has id (hcourse.lt_of_scheduled hid) hhas)
    refine ⟨⟨.cancel id, .cancelled false, a'.clock⟩, rfl, Server.answers_ok.2 ⟨a'', ?_⟩⟩
    have hmore : (server ε).talk (.cancel id :: rest) a'
        = .ok (⟨.cancel id, .cancelled false, a'.clock⟩ :: l'', a'') :=
      Server.talk_cons_ok.2 ⟨_, a', l'', ask_cancel_of_not_has hno, ht'', rfl⟩
    exact Server.talk_append_ok.2 ⟨l ++ l', a', _, hall, hmore, rfl⟩

end Agenda

end SlotNet
