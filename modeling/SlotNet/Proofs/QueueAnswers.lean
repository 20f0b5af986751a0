import Mathlib.Data.Multiset.MapFold
import Std.Data.HashMap.Lemmas
import SlotNet.Proofs.Agenda
import SlotNet.Proofs.Channel

/-!
# Queues that answer as an agenda

The events can wait in a list by their keys, where a cancelled one stays until it is at the front, or
in any heap, with a table that says of each event in it whether it was cancelled. `answers_as_agenda`:
to every sequence of requests both give the answers of an agenda.
-/

namespace SlotNet

variable {ε : Type}

/-! ## The list -/

def Entry.booking (e : Entry ε) : Booking ε := ⟨e.time, e.id, e.event⟩

namespace EventQueue

def ask : Query ε → EventQueue ε → Except Fault (Answer ε × EventQueue ε)
  | .schedule delay event, q => (q.schedule delay event).map fun (id, q) => (.scheduled id, q)
  | .scheduleAt time event, q =>
    let (id, q) := q.scheduleAt time event
    .ok (.scheduled id, q)
  | .cancel id, q =>
    let (wasPending, q) := q.cancel id
    .ok (.cancelled wasPending, q)
  | .pop, q =>
    let (next, q') := q.pop
    .ok (.popped next (q.settle.entries.head?.map (·.id)), q')
  | .peekTime, q =>
    let (time, q) := q.peekTime
    .ok (.time time, q)
  | .length, q => .ok (.count q.length, q)
  | .clear, q => .ok (.cleared, q.clear)

def server (ε : Type) : Server ε (EventQueue ε) := ⟨empty, ask, now⟩

/-- The agenda has what is not cancelled. -/
structure Tracks (q : EventQueue ε) (a : Agenda ε) : Prop where
  ordered : q.Ordered
  sound : a.Sound
  now : q.now = a.clock
  nextId : q.nextId = a.nextId
  mem : ∀ b, b ∈ a.pending ↔ ∃ e ∈ q.entries, e.cancelled = false ∧ e.booking = b

variable {q : EventQueue ε} {a : Agenda ε}

theorem tracks_empty : (empty : EventQueue ε).Tracks .empty :=
  ⟨ordered_empty, Agenda.sound_empty, rfl, rfl, fun b => by simp [empty, Agenda.empty]⟩

theorem mem_settle {e : Entry ε} (he : e ∈ q.entries) (hc : e.cancelled = false) :
    e ∈ q.settle.entries := by
  have hsplit : q.entries = q.entries.takeWhile (·.cancelled) ++ q.settle.entries :=
    List.takeWhile_append_dropWhile.symm
  rw [hsplit] at he
  rcases List.mem_append.1 he with he | he
  · rw [List.mem_takeWhile_imp he] at hc
    cases hc
  · exact he

theorem Tracks.settle (h : q.Tracks a) : q.settle.Tracks a := by
  refine ⟨h.ordered.settle, h.sound, h.now, h.nextId, fun b => ?_⟩
  rw [h.mem]
  constructor
  · rintro ⟨e, he, hc, rfl⟩
    exact ⟨e, mem_settle he hc, hc, rfl⟩
  · rintro ⟨e, he, hc, rfl⟩
    exact ⟨e, (List.dropWhile_suffix _).subset he, hc, rfl⟩

theorem Tracks.first (h : q.Tracks a) : q.settle.entries.head?.map Entry.booking = a.first := by
  have hs := h.settle
  cases he : q.settle.entries with
  | nil =>
    have hnone : a.pending = [] := by
      rw [List.eq_nil_iff_forall_not_mem]
      intro b hb
      obtain ⟨e, hmem, -⟩ := (hs.mem b).1 hb
      rw [he] at hmem
      cases hmem
    exact (Agenda.first_eq_none.2 hnone).symm
  | cons e rest =>
    have hpending : e.cancelled = false := by
      have := List.head?_dropWhile_not (fun x : Entry ε => x.cancelled) q.entries
      rw [show q.entries.dropWhile (fun x => x.cancelled) = e :: rest from he] at this
      simpa using this
    have hsorted := hs.ordered.sorted
    rw [he] at hsorted
    refine (h.sound.first_eq ((hs.mem _).2 ⟨e, he ▸ .head _, hpending, rfl⟩) fun x hx => ?_).symm
    obtain ⟨y, hy, -, rfl⟩ := (hs.mem x).1 hx
    rw [he] at hy
    rcases List.mem_cons.1 hy with rfl | hy
    · exact le_refl _
    · exact le_of_lt ((List.pairwise_cons.1 hsorted).1 y hy)

theorem Tracks.scheduleAt (h : q.Tracks a) (time : Time) (event : ε) :
    (q.scheduleAt time event).2.Tracks (a.scheduleAt time event).2 := by
  refine ⟨h.ordered.scheduleAt time event, h.sound.scheduleAt time event, h.now,
    congrArg (· + 1) h.nextId, fun b => ?_⟩
  have hb : (q.entryAt time event).booking = ⟨max time a.clock, a.nextId, event⟩ := by
    rw [Entry.booking, entryAt, h.now, h.nextId]
  show b ∈ _ :: a.pending ↔ _
  simp only [List.mem_cons, mem_scheduleAt, h.mem, ← hb]
  constructor
  · rintro (rfl | ⟨e, he, hc, rfl⟩)
    · exact ⟨_, .inl rfl, rfl, rfl⟩
    · exact ⟨e, .inr he, hc, rfl⟩
  · rintro ⟨e, rfl | he, hc, rfl⟩
    · exact .inl rfl
    · exact .inr ⟨e, he, hc, rfl⟩

theorem Tracks.cancel (h : q.Tracks a) (id : Nat) : (q.cancel id).2.Tracks (a.without id) := by
  refine ⟨h.ordered.cancel id, h.sound.without id, h.now, h.nextId, fun b => ?_⟩
  rw [Agenda.mem_without, h.mem]
  have hbooking : ∀ e : Entry ε, (cancelEntry id e).booking = e.booking := fun e => by
    rw [Entry.booking, time_cancelEntry, id_cancelEntry, event_cancelEntry, Entry.booking]
  have hpending : ∀ e : Entry ε, (cancelEntry id e).cancelled = false ↔
      e.cancelled = false ∧ e.id ≠ id := fun e => by
    rw [← Bool.not_eq_true, cancelled_cancelEntry, not_or, Bool.not_eq_true]
  constructor
  · rintro ⟨⟨e, he, hc, rfl⟩, hid⟩
    exact ⟨_, mem_cancel.2 ⟨e, he, rfl⟩, (hpending e).2 ⟨hc, hid⟩, hbooking e⟩
  · rintro ⟨e', he', hc, rfl⟩
    obtain ⟨e, he, rfl⟩ := mem_cancel.1 he'
    obtain ⟨hc, hid⟩ := (hpending e).1 hc
    rw [hbooking]
    exact ⟨⟨e, he, hc, rfl⟩, hid⟩

theorem Tracks.isPending (h : q.Tracks a) (id : Nat) :
    q.isPending id = a.pending.any (·.id == id) := by
  rw [Bool.eq_iff_iff, isPending_iff, Agenda.any_eq_true]
  constructor
  · rintro ⟨e, he, rfl, hc⟩
    exact ⟨e.booking, (h.mem _).2 ⟨e, he, hc, rfl⟩, rfl⟩
  · rintro ⟨b, hb, rfl⟩
    obtain ⟨e, he, hc, rfl⟩ := (h.mem b).1 hb
    exact ⟨e, he, rfl, hc⟩

theorem Tracks.length (h : q.Tracks a) : q.length = a.pending.length := by
  have hperm : ((q.entries.filter (!·.cancelled)).map (·.id)).Perm (a.pending.map Booking.id) := by
    refine (List.perm_ext_iff_of_nodup (h.ordered.distinct.sublist (List.filter_sublist.map _))
      h.sound.distinct).2 fun id => ?_
    simp only [List.mem_map, List.mem_filter, Bool.not_eq_true', h.mem]
    constructor
    · rintro ⟨e, ⟨he, hc⟩, rfl⟩
      exact ⟨e.booking, ⟨e, he, hc, rfl⟩, rfl⟩
    · rintro ⟨b, ⟨e, he, hc, rfl⟩, rfl⟩
      exact ⟨e, ⟨he, hc⟩, rfl⟩
  have hlength := hperm.length_eq
  rw [List.length_map, List.length_map] at hlength
  rw [EventQueue.length, List.countP_eq_length_filter, hlength]

theorem Tracks.pop (h : q.Tracks a) :
    Server.Agree Tracks (ask .pop q) (Agenda.ask .pop a) := by
  have hfirst := h.first
  rw [EventQueue.ask, Agenda.ask, Agenda.pop, ← hfirst]
  cases he : q.settle.entries with
  | nil =>
    have hpop : q.pop = (none, q.settle) := by simp only [EventQueue.pop, he]
    rw [hpop]
    exact .ofOk rfl h.settle
  | cons e rest =>
    have hpop : q.pop
        = (some (e.time, e.event), { q.settle with now := e.time, entries := rest }) := by
      simp only [EventQueue.pop, he]
    obtain ⟨x, hin, -, -, -, hhead, -, -, hmem, -, hord⟩ := pop_some h.ordered hpop
    rw [he, List.head?_cons, Option.some.injEq] at hhead
    subst hhead
    rw [he] at hfirst
    have hw := h.sound.without e.id
    rw [hpop]
    refine .ofOk rfl ⟨hord, ⟨hw.distinct, hw.lt_nextId, fun b hb => ?_⟩, rfl, h.nextId, fun b => ?_⟩
    · exact Agenda.time_le_of_key_le (Agenda.key_le_of_first hfirst.symm (Agenda.mem_without.1 hb).1)
    · show b ∈ (a.without e.id).pending ↔ _
      rw [Agenda.mem_without, h.mem]
      constructor
      · rintro ⟨⟨y, hy, hc, rfl⟩, hne⟩
        have hyin := mem_settle hy hc
        rw [he] at hyin
        rcases List.mem_cons.1 hyin with rfl | hyin
        · exact absurd rfl hne
        · exact ⟨y, hyin, hc, rfl⟩
      · rintro ⟨y, hy, hc, rfl⟩
        obtain ⟨hyin, hlt⟩ := (hmem y).1 hy
        refine ⟨⟨y, hyin, hc, rfl⟩, fun hid => ?_⟩
        rw [h.ordered.eq_of_id hyin hin hid] at hlt
        exact lt_irrefl _ hlt

theorem Tracks.ask (h : q.Tracks a) (r : Query ε) :
    Server.Agree Tracks (ask r q) (Agenda.ask r a) := by
  cases r with
  | schedule delay event =>
    rw [EventQueue.ask, Agenda.ask, schedule, h.now]
    cases Time.add a.clock delay with
    | error e => exact .inl ⟨e, rfl, rfl⟩
    | ok time => exact .ofOk (congrArg Answer.scheduled h.nextId) (h.scheduleAt time event)
  | scheduleAt time event => exact .ofOk (congrArg Answer.scheduled h.nextId) (h.scheduleAt time event)
  | cancel id => exact .ofOk (congrArg Answer.cancelled (h.isPending id)) (h.cancel id)
  | pop => exact h.pop
  | peekTime =>
    have htime : q.settle.entries.head?.map Entry.time = a.first.map Booking.time := by
      rw [← h.first, Option.map_map]
      rfl
    exact .ofOk (congrArg Answer.time htime) h.settle
  | length => exact .ofOk (congrArg Answer.count h.length) h
  | clear =>
    exact .ofOk rfl ⟨ordered_clear q, Agenda.sound_clear a, h.now, h.nextId,
      fun b => by simp [EventQueue.clear]⟩

end EventQueue

/-! ## Heaps -/

/-- A heap: what can be done with one, and what is in it. -/
structure Heap (α η : Type) where
  empty : η
  push : α → η → η
  peek : η → Option α
  pop : η → Option (α × η)
  elements : η → Multiset α

/-- A heap gives a greatest one of its elements. -/
structure Heap.Lawful {α η : Type} (H : Heap α η) (cmp : α → α → Ordering) : Prop where
  empty : H.elements H.empty = 0
  push : ∀ x h, H.elements (H.push x h) = x ::ₘ H.elements h
  peek_none : ∀ h, H.peek h = none → H.elements h = 0
  peek_some : ∀ h x, H.peek h = some x → x ∈ H.elements h ∧ ∀ y ∈ H.elements h, cmp y x ≠ .gt
  pop_none : ∀ h, H.pop h = none → H.elements h = 0
  pop_some : ∀ h x h', H.pop h = some (x, h') →
    H.elements h = x ::ₘ H.elements h' ∧ ∀ y ∈ H.elements h, cmp y x ≠ .gt

/-- Earlier events are greater, and among those of one time the ones scheduled first. -/
def Booking.cmp (b c : Booking ε) : Ordering :=
  match compare c.time b.time with
  | .eq => compare c.id b.id
  | o => o

theorem Booking.cmp_ne_gt {b c : Booking ε} : b.cmp c ≠ .gt ↔ c.key ≤ b.key := by
  unfold cmp key
  rw [Prod.Lex.toLex_le_toLex]
  rcases lt_trichotomy c.time b.time with hlt | heq | hgt
  · simp [Nat.compare_eq_lt.2 hlt, hlt]
  · simp [heq, Nat.compare_eq_gt]
  · simp [Nat.compare_eq_gt.2 hgt, Nat.not_lt_of_gt hgt, Nat.ne_of_gt hgt]

/-- What became of an event in the heap. -/
inductive Standing where
  | pending
  | cancelled
  deriving DecidableEq, Repr

/-- Events in a heap, with a table of those in it by their numbers. -/
structure HeapQueue (η : Type) where
  now : Time
  heap : η
  live : Std.HashMap Nat (Time × Standing)
  nextSeq : Nat

namespace HeapQueue

variable {η : Type} (H : Heap (Booking ε) η)

def empty : HeapQueue η := ⟨0, H.empty, ∅, 0⟩

theorem size_erase_lt {live : Std.HashMap Nat (Time × Standing)} {id : Nat} {s : Standing}
    (h : live[id]?.map Prod.snd = some s) : (live.erase id).size < live.size := by
  have hmem : id ∈ live := by
    rw [Std.HashMap.mem_iff_isSome_getElem?]
    cases hl : live[id]? with
    | none => rw [hl] at h; cases h
    | some v => rfl
  have hpos : live.size ≠ 0 := by
    intro hzero
    have hempty := Std.HashMap.isEmpty_eq_size_eq_zero (m := live)
    rw [hzero] at hempty
    exact Std.HashMap.not_mem_of_isEmpty hempty hmem
  rw [Std.HashMap.size_erase, if_pos hmem]
  omega

/-- Takes cancelled events off the top. -/
def drain (heap : η) (live : Std.HashMap Nat (Time × Standing)) :
    η × Std.HashMap Nat (Time × Standing) :=
  match H.peek heap with
  | none => (heap, live)
  | some head =>
    if _ : live[head.id]?.map Prod.snd = some .cancelled then
      drain ((H.pop heap).elim heap Prod.snd) (live.erase head.id)
    else (heap, live)
termination_by live.size
decreasing_by exact size_erase_lt ‹_›

def drained (q : HeapQueue η) : HeapQueue η :=
  { q with heap := (drain H q.heap q.live).1, live := (drain H q.heap q.live).2 }

def scheduleAt (q : HeapQueue η) (time : Time) (event : ε) : Answer ε × HeapQueue η :=
  let time := max time q.now
  (.scheduled q.nextSeq,
    { q with
      nextSeq := q.nextSeq + 1
      heap := H.push ⟨time, q.nextSeq, event⟩ q.heap
      live := q.live.insert q.nextSeq (time, .pending) })

def cancel (q : HeapQueue η) (id : Nat) : Bool × HeapQueue η :=
  match q.live[id]? with
  | some (time, .pending) => (true, { q with live := q.live.insert id (time, .cancelled) })
  | _ => (false, q)

def pop (q : HeapQueue η) : Answer ε × HeapQueue η :=
  let q := q.drained H
  match H.pop q.heap with
  | none => (.popped none none, q)
  | some (b, heap) =>
    (.popped (some (b.time, b.event)) (some b.id),
      { q with now := b.time, heap, live := q.live.erase b.id })

def ask : Query ε → HeapQueue η → Except Fault (Answer ε × HeapQueue η)
  | .schedule delay event, q => (Time.add q.now delay).map (q.scheduleAt H · event)
  | .scheduleAt time event, q => .ok (q.scheduleAt H time event)
  | .cancel id, q =>
    let (wasPending, q) := q.cancel id
    .ok (.cancelled wasPending, q)
  | .pop, q => .ok (q.pop H)
  | .peekTime, q => .ok (.time ((H.peek (q.drained H).heap).map Booking.time), q.drained H)
  | .length, q => .ok (.count (q.live.toList.countP (·.2.2 = .pending)), q)
  | .clear, q => .ok (.cleared, { q with heap := H.empty, live := ∅ })

def server : Server ε (HeapQueue η) := ⟨empty H, ask H, now⟩

/-- The table has exactly the events of the heap, each with its own number, and the agenda has those
that are pending. -/
structure Coherent (heap : η) (live : Std.HashMap Nat (Time × Standing))
    (pending : List (Booking ε)) : Prop where
  distinct : ((H.elements heap).map Booking.id).Nodup
  live_iff : ∀ id, id ∈ live ↔ ∃ b ∈ H.elements heap, b.id = id
  mem : ∀ b, b ∈ pending ↔ b ∈ H.elements heap ∧ live[b.id]?.map Prod.snd = some .pending

variable {H} {heap : η} {live : Std.HashMap Nat (Time × Standing)} {pending : List (Booking ε)}

theorem Coherent.eq_of_id (h : Coherent H heap live pending) {b c : Booking ε}
    (hb : b ∈ H.elements heap) (hc : c ∈ H.elements heap) (hid : b.id = c.id) : b = c :=
  Multiset.inj_on_of_nodup_map h.distinct b hb c hc hid

theorem Coherent.pop (h : Coherent H heap live pending) {b : Booking ε} {rest : η}
    (hrest : H.elements heap = b ::ₘ H.elements rest) :
    Coherent H rest (live.erase b.id) (pending.filter (·.id != b.id)) := by
  have hd := h.distinct
  rw [hrest, Multiset.map_cons, Multiset.nodup_cons] at hd
  have hne : ∀ c ∈ H.elements rest, c.id ≠ b.id := fun c hc hid =>
    hd.1 (Multiset.mem_map.2 ⟨c, hc, hid⟩)
  refine ⟨hd.2, fun id => ?_, fun c => ?_⟩
  · rw [Std.HashMap.mem_erase, h.live_iff, hrest]
    constructor
    · rintro ⟨hid, c, hc, rfl⟩
      rcases Multiset.mem_cons.1 hc with rfl | hc
      · simp at hid
      · exact ⟨c, hc, rfl⟩
    · rintro ⟨c, hc, rfl⟩
      exact ⟨beq_false_of_ne (hne c hc).symm, c, Multiset.mem_cons_of_mem hc, rfl⟩
  · rw [List.mem_filter, h.mem, hrest, Multiset.mem_cons, Std.HashMap.getElem?_erase]
    constructor
    · rintro ⟨⟨rfl | hc, hlive⟩, hid⟩
      · simp at hid
      · rw [if_neg (by simpa using (hne c hc).symm)]
        exact ⟨hc, hlive⟩
    · rintro ⟨hc, hlive⟩
      rw [if_neg (by simpa using (hne c hc).symm)] at hlive
      exact ⟨⟨.inr hc, hlive⟩, by simpa using hne c hc⟩

theorem Coherent.eq_of_greatest (h : Coherent H heap live pending) {b c : Booking ε}
    (hb : b ∈ H.elements heap) (hc : c ∈ H.elements heap)
    (hbc : b.cmp c ≠ .gt) (hcb : c.cmp b ≠ .gt) : b = c := by
  have hkey : b.key = c.key := le_antisymm (Booking.cmp_ne_gt.1 hcb) (Booking.cmp_ne_gt.1 hbc)
  exact h.eq_of_id hb hc (congrArg (fun k : Key => (ofLex k).2) hkey)

theorem Coherent.pop_of_peek (hH : H.Lawful Booking.cmp) (h : Coherent H heap live pending)
    {b : Booking ε} (hb : H.peek heap = some b) :
    ∃ rest, H.pop heap = some (b, rest) ∧ H.elements heap = b ::ₘ H.elements rest := by
  obtain ⟨hmem, hmax⟩ := hH.peek_some heap b hb
  cases hp : H.pop heap with
  | none =>
    rw [hH.pop_none heap hp] at hmem
    cases Multiset.notMem_zero b hmem
  | some r =>
    obtain ⟨c, rest⟩ := r
    obtain ⟨hrest, hmax'⟩ := hH.pop_some heap c rest hp
    have hc : c ∈ H.elements heap := hrest ▸ Multiset.mem_cons_self c _
    obtain rfl := h.eq_of_greatest hmem hc (hmax' b hmem) (hmax c hc)
    exact ⟨rest, rfl, hrest⟩

/-- Cancelled events are taken off the top, and what is then on top is pending. -/
theorem Coherent.drain (hH : H.Lawful Booking.cmp) (h : Coherent H heap live pending) :
    Coherent H (drain H heap live).1 (drain H heap live).2 pending ∧
      H.elements (HeapQueue.drain H heap live).1 ≤ H.elements heap ∧
      ∀ b, H.peek (HeapQueue.drain H heap live).1 = some b → b ∈ pending := by
  fun_induction HeapQueue.drain H heap live with
  | case1 heap live hpeek =>
    refine ⟨h, le_refl _, fun b hb => ?_⟩
    rw [hpeek] at hb
    cases hb
  | case2 heap live head hpeek hcancelled ih =>
    obtain ⟨rest, hpop, hrest⟩ := h.pop_of_peek hH hpeek
    rw [hpop] at ih ⊢
    have hkept : pending.filter (·.id != head.id) = pending := by
      rw [List.filter_eq_self]
      intro b hb
      obtain ⟨hmem, hlive⟩ := (h.mem b).1 hb
      rw [bne_iff_ne]
      intro hid
      rw [hid, hcancelled] at hlive
      cases hlive
    have hnext := h.pop hrest
    rw [hkept] at hnext
    obtain ⟨hc, hle, htop⟩ := ih hnext
    refine ⟨hc, hle.trans ?_, htop⟩
    rw [hrest]
    exact Multiset.le_cons_self _ _
  | case3 heap live head hpeek hcancelled =>
    refine ⟨h, le_refl _, fun b hb => ?_⟩
    obtain rfl := Option.some.inj (hpeek.symm.trans hb)
    have hmem := (hH.peek_some heap head hpeek).1
    have hlive := (h.live_iff head.id).2 ⟨head, hmem, rfl⟩
    rw [Std.HashMap.mem_iff_isSome_getElem?] at hlive
    refine (h.mem head).2 ⟨hmem, ?_⟩
    obtain ⟨v, hv⟩ := Option.isSome_iff_exists.1 hlive
    rw [hv] at hcancelled ⊢
    obtain ⟨t, _ | _⟩ := v
    · rfl
    · exact absurd rfl hcancelled

/-- A heap with its table, and the agenda. -/
structure Tracks (H : Heap (Booking ε) η) (q : HeapQueue η) (a : Agenda ε) : Prop where
  sound : a.Sound
  now : q.now = a.clock
  nextSeq : q.nextSeq = a.nextId
  lt_nextSeq : ∀ b ∈ H.elements q.heap, b.id < q.nextSeq
  coherent : Coherent H q.heap q.live a.pending

variable {q : HeapQueue η} {a : Agenda ε}

theorem coherent_empty (hH : H.Lawful Booking.cmp) : Coherent H H.empty ∅ [] := by
  have hnone : ∀ b, b ∉ H.elements H.empty := fun b => by
    rw [hH.empty]
    exact Multiset.notMem_zero b
  refine ⟨?_, fun id => ?_, fun b => ?_⟩
  · rw [hH.empty]
    exact Multiset.nodup_zero
  · constructor
    · exact fun h => absurd h Std.HashMap.not_mem_empty
    · rintro ⟨b, hb, -⟩
      exact absurd hb (hnone b)
  · constructor
    · exact fun h => absurd h List.not_mem_nil
    · exact fun h => absurd h.1 (hnone b)

theorem tracks_empty (hH : H.Lawful Booking.cmp) : (empty H).Tracks H .empty := by
  refine ⟨Agenda.sound_empty, rfl, rfl, fun b hb => ?_, coherent_empty hH⟩
  replace hb : b ∈ H.elements H.empty := hb
  rw [hH.empty] at hb
  exact absurd hb (Multiset.notMem_zero b)

theorem Tracks.drained (hH : H.Lawful Booking.cmp) (h : q.Tracks H a) :
    (q.drained H).Tracks H a := by
  obtain ⟨hc, hle, -⟩ := h.coherent.drain hH
  exact ⟨h.sound, h.now, h.nextSeq, fun b hb => h.lt_nextSeq b (Multiset.mem_of_le hle hb), hc⟩

/-- What is on top when the cancelled events are gone is first on the agenda. -/
theorem Tracks.first (hH : H.Lawful Booking.cmp) (h : q.Tracks H a) :
    H.peek (q.drained H).heap = a.first := by
  obtain ⟨hc, -, htop⟩ := h.coherent.drain hH
  cases hp : H.peek (q.drained H).heap with
  | none =>
    have hzero := hH.peek_none _ hp
    refine (Agenda.first_eq_none.2 ?_).symm
    rw [List.eq_nil_iff_forall_not_mem]
    intro b hb
    have hmem := ((hc.mem b).1 hb).1
    replace hzero : H.elements (HeapQueue.drain H q.heap q.live).1 = 0 := hzero
    rw [hzero] at hmem
    exact Multiset.notMem_zero b hmem
  | some b =>
    refine (h.sound.first_eq (htop b hp) fun x hx => ?_).symm
    exact Booking.cmp_ne_gt.1 ((hH.peek_some _ b hp).2 x ((hc.mem x).1 hx).1)

theorem Tracks.has_iff (h : q.Tracks H a) (id : Nat) :
    a.Has id ↔ q.live[id]?.map Prod.snd = some .pending := by
  constructor
  · rintro ⟨b, hb, rfl⟩
    exact ((h.coherent.mem b).1 hb).2
  · intro hlive
    have hmem : id ∈ q.live := by
      rw [Std.HashMap.mem_iff_isSome_getElem?]
      cases hl : q.live[id]? with
      | none => rw [hl] at hlive; cases hlive
      | some v => rfl
    obtain ⟨b, hb, rfl⟩ := (h.coherent.live_iff id).1 hmem
    exact ⟨b, (h.coherent.mem b).2 ⟨hb, hlive⟩, rfl⟩

theorem Tracks.scheduleAt (hH : H.Lawful Booking.cmp) (h : q.Tracks H a) (time : Time) (event : ε) :
    (q.scheduleAt H time event).1 = (a.scheduleAt time event).1 ∧
      (q.scheduleAt H time event).2.Tracks H (a.scheduleAt time event).2 := by
  have hnew : ∀ b ∈ H.elements q.heap, b.id ≠ q.nextSeq := fun b hb =>
    Nat.ne_of_lt (h.lt_nextSeq b hb)
  have hbooking : (⟨max time q.now, q.nextSeq, event⟩ : Booking ε)
      = ⟨max time a.clock, a.nextId, event⟩ := by rw [h.now, h.nextSeq]
  refine ⟨congrArg Answer.scheduled h.nextSeq, h.sound.scheduleAt time event, h.now,
    congrArg (· + 1) h.nextSeq, fun b hb => ?_, ?_⟩
  · replace hb : b ∈ H.elements (H.push ⟨max time q.now, q.nextSeq, event⟩ q.heap) := hb
    rw [hH.push, Multiset.mem_cons] at hb
    rcases hb with rfl | hb
    · exact Nat.lt_succ_self _
    · exact Nat.lt_succ_of_lt (h.lt_nextSeq b hb)
  · show Coherent H (H.push ⟨max time q.now, q.nextSeq, event⟩ q.heap)
      (q.live.insert q.nextSeq (max time q.now, .pending))
      (⟨max time a.clock, a.nextId, event⟩ :: a.pending)
    rw [← hbooking]
    refine ⟨?_, fun id => ?_, fun b => ?_⟩
    · rw [hH.push, Multiset.map_cons, Multiset.nodup_cons]
      refine ⟨fun hm => ?_, h.coherent.distinct⟩
      obtain ⟨b, hb, hid⟩ := Multiset.mem_map.1 hm
      exact hnew b hb hid
    · rw [hH.push, Std.HashMap.mem_insert, h.coherent.live_iff, beq_iff_eq]
      simp only [Multiset.mem_cons, exists_eq_or_imp]
    · rw [hH.push, List.mem_cons, Multiset.mem_cons, h.coherent.mem, Std.HashMap.getElem?_insert]
      constructor
      · rintro (rfl | ⟨hb, hlive⟩)
        · exact ⟨.inl rfl, by simp⟩
        · refine ⟨.inr hb, ?_⟩
          rwa [if_neg (by simpa using (hnew b hb).symm)]
      · rintro ⟨rfl | hb, hlive⟩
        · exact .inl rfl
        · rw [if_neg (by simpa using (hnew b hb).symm)] at hlive
          exact .inr ⟨hb, hlive⟩

theorem Tracks.cancel (h : q.Tracks H a) (id : Nat) :
    (q.cancel id).1 = a.pending.any (·.id == id) ∧
      (q.cancel id).2.Tracks H (a.without id) := by
  by_cases hlive : q.live[id]?.map Prod.snd = some .pending
  · have hany := Agenda.any_eq_true.2 ((h.has_iff id).2 hlive)
    obtain ⟨⟨time, standing⟩, hget, hst⟩ := Option.map_eq_some_iff.1 hlive
    obtain rfl : standing = .pending := hst
    have hcancel : q.cancel id
        = (true, { q with live := q.live.insert id (time, .cancelled) }) := by
      unfold HeapQueue.cancel
      rw [hget]
    have hmem : id ∈ q.live := by
      rw [Std.HashMap.mem_iff_isSome_getElem?, hget]
      rfl
    rw [hcancel, hany]
    refine ⟨rfl, h.sound.without id, h.now, h.nextSeq, h.lt_nextSeq, h.coherent.distinct, fun n => ?_,
      fun b => ?_⟩
    · rw [← h.coherent.live_iff, Std.HashMap.mem_insert, beq_iff_eq]
      exact ⟨fun hn => hn.elim (fun hid => hid ▸ hmem) fun hn => hn, .inr⟩
    · rw [Agenda.mem_without, h.coherent.mem, Std.HashMap.getElem?_insert, and_assoc]
      refine and_congr_right fun hb => ?_
      by_cases hid : b.id = id
      · simp [hid]
      · rw [if_neg (by simpa using Ne.symm hid)]
        exact ⟨And.left, fun hb => ⟨hb, hid⟩⟩
  · have hno : ¬ a.Has id := fun hhas => hlive ((h.has_iff id).1 hhas)
    have hany : a.pending.any (·.id == id) = false := by
      rw [← Bool.not_eq_true]
      exact fun hany => hno (Agenda.any_eq_true.1 hany)
    have hcancel : q.cancel id = (false, q) := by
      unfold HeapQueue.cancel
      split
      · rename_i hget
        rw [hget] at hlive
        exact absurd rfl hlive
      · rfl
    rw [hcancel, hany, Agenda.without_of_not_has hno]
    exact ⟨rfl, h⟩

theorem Tracks.pop (hH : H.Lawful Booking.cmp) (h : q.Tracks H a) :
    (q.pop H).1 = a.pop.1 ∧ (q.pop H).2.Tracks H a.pop.2 := by
  have hfirst := h.first hH
  have hd := h.drained hH
  unfold HeapQueue.pop Agenda.pop
  dsimp only
  cases hp : H.peek (q.drained H).heap with
  | none =>
    have hzero := hH.peek_none _ hp
    have hnone : H.pop (q.drained H).heap = none := by
      cases hpop : H.pop (q.drained H).heap with
      | none => rfl
      | some r =>
        have hcons := (hH.pop_some _ r.1 r.2 hpop).1
        rw [hzero] at hcons
        exact absurd hcons.symm (Multiset.cons_ne_zero)
    rw [← hfirst, hp, hnone]
    exact ⟨rfl, hd⟩
  | some b =>
    obtain ⟨rest, hpop, hrest⟩ := hd.coherent.pop_of_peek hH hp
    have hb := Agenda.mem_of_first (hfirst.symm.trans hp)
    have hw := h.sound.without b.id
    rw [← hfirst, hp, hpop]
    refine ⟨rfl, ⟨hw.distinct, hw.lt_nextId, fun x hx => ?_⟩, rfl, h.nextSeq, fun x hx => ?_,
      hd.coherent.pop hrest⟩
    · exact Agenda.time_le_of_key_le
        (Agenda.key_le_of_first (hfirst.symm.trans hp) (Agenda.mem_without.1 hx).1)
    · refine hd.lt_nextSeq x ?_
      rw [hrest]
      exact Multiset.mem_cons_of_mem hx

theorem Tracks.length (h : q.Tracks H a) :
    q.live.toList.countP (·.2.2 = .pending) = a.pending.length := by
  have hkeys : (q.live.toList.map Prod.fst).Nodup := by
    rw [Std.HashMap.map_fst_toList_eq_keys]
    exact Std.HashMap.nodup_keys
  have hperm : ((q.live.toList.filter (·.2.2 = .pending)).map Prod.fst).Perm
      (a.pending.map Booking.id) := by
    refine (List.perm_ext_iff_of_nodup (hkeys.sublist (List.filter_sublist.map _))
      h.sound.distinct).2 fun id => ?_
    rw [show id ∈ a.pending.map Booking.id ↔ a.Has id from List.mem_map, h.has_iff]
    simp only [List.mem_map, List.mem_filter, decide_eq_true_eq, Option.map_eq_some_iff]
    constructor
    · rintro ⟨⟨n, v⟩, ⟨hv, hst⟩, rfl⟩
      exact ⟨v, Std.HashMap.mem_toList_iff_getElem?_eq_some.1 hv, hst⟩
    · rintro ⟨v, hv, hst⟩
      exact ⟨(id, v), ⟨Std.HashMap.mem_toList_iff_getElem?_eq_some.2 hv, hst⟩, rfl⟩
  have hlength := hperm.length_eq
  rw [List.length_map, List.length_map] at hlength
  rw [List.countP_eq_length_filter, hlength]

theorem Tracks.ask (hH : H.Lawful Booking.cmp) (h : q.Tracks H a) (r : Query ε) :
    Server.Agree (Tracks H) (ask H r q) (Agenda.ask r a) := by
  cases r with
  | schedule delay event =>
    rw [HeapQueue.ask, Agenda.ask, h.now]
    cases Time.add a.clock delay with
    | error e => exact .inl ⟨e, rfl, rfl⟩
    | ok time =>
      obtain ⟨hanswer, hs⟩ := h.scheduleAt hH time event
      exact .ofOk hanswer hs
  | scheduleAt time event =>
    obtain ⟨hanswer, hs⟩ := h.scheduleAt hH time event
    exact .ofOk hanswer hs
  | cancel id =>
    obtain ⟨hanswer, hs⟩ := h.cancel id
    exact .ofOk (congrArg Answer.cancelled hanswer) hs
  | pop =>
    obtain ⟨hanswer, hs⟩ := h.pop hH
    exact .ofOk hanswer hs
  | peekTime =>
    exact .ofOk (congrArg (fun b => Answer.time (b.map Booking.time)) (h.first hH)) (h.drained hH)
  | length => exact .ofOk (congrArg Answer.count h.length) h
  | clear =>
    refine .ofOk rfl ⟨Agenda.sound_clear a, h.now, h.nextSeq, fun b hb => ?_, coherent_empty hH⟩
    replace hb : b ∈ H.elements H.empty := hb
    rw [hH.empty] at hb
    exact absurd hb (Multiset.notMem_zero b)

end HeapQueue

/-! ## The answers -/

/-- To every sequence of requests the list of events and any lawful heap with its table give the
answers of an agenda, and so these are reliable. -/
theorem answers_as_agenda {η : Type} (H : Heap (Booking ε) η) (hH : H.Lawful Booking.cmp) :
    (EventQueue.server ε).answers = (Agenda.server ε).answers ∧
      (HeapQueue.server H).answers = (Agenda.server ε).answers ∧
      Reliable (EventQueue.server ε).answers ∧ Reliable (HeapQueue.server H).answers := by
  have hlist : (EventQueue.server ε).answers = (Agenda.server ε).answers :=
    Server.answers_eq EventQueue.tracks_empty (fun _ _ h => h.now) fun r _ _ h => h.ask r
  have hheap : (HeapQueue.server H).answers = (Agenda.server ε).answers :=
    Server.answers_eq (HeapQueue.tracks_empty hH) (fun _ _ h => h.now) fun r _ _ h => h.ask hH r
  exact ⟨hlist, hheap, hlist ▸ Agenda.reliable, hheap ▸ Agenda.reliable⟩

/-- A heap that is a list in no order. -/
def Heap.unsorted [DecidableEq ε] : Heap (Booking ε) (List (Booking ε)) where
  empty := []
  push := List.cons
  peek l := l.argmin Booking.key
  pop l := (l.argmin Booking.key).map fun b => (b, l.erase b)
  elements l := l

theorem Heap.lawful_unsorted [DecidableEq ε] :
    (Heap.unsorted : Heap (Booking ε) (List (Booking ε))).Lawful Booking.cmp where
  empty := rfl
  push _ _ := rfl
  peek_none l h := congrArg Multiset.ofList (List.argmin_eq_none.1 h)
  peek_some l b h := ⟨List.argmin_mem h, fun y hy =>
    Booking.cmp_ne_gt.2 (List.le_of_mem_argmin hy h)⟩
  pop_none l h := congrArg Multiset.ofList (List.argmin_eq_none.1 (Option.map_eq_none_iff.1 h))
  pop_some l b l' h := by
    obtain ⟨c, hc, hv⟩ := Option.map_eq_some_iff.1 h
    cases hv
    refine ⟨?_, fun y hy => Booking.cmp_ne_gt.2 (List.le_of_mem_argmin hy hc)⟩
    exact Multiset.coe_eq_coe.2 (List.perm_cons_erase (List.argmin_mem hc))

/-- Two events for one time, the first of which is cancelled, and a clear. -/
def cancelledFirst : List (Query Nat) :=
  [.schedule 5 7, .schedule 5 8, .cancel 0, .peekTime, .pop, .scheduleAt 2 9, .clear, .cancel 2, .pop]

theorem answers_as_agenda_cancelledFirst :
    (HeapQueue.server (Heap.unsorted (ε := Nat))).answers cancelledFirst = .ok
        [⟨.schedule 5 7, .scheduled 0, 0⟩, ⟨.schedule 5 8, .scheduled 1, 0⟩,
          ⟨.cancel 0, .cancelled true, 0⟩, ⟨.peekTime, .time (some 5), 0⟩,
          ⟨.pop, .popped (some (5, 8)) (some 1), 5⟩, ⟨.scheduleAt 2 9, .scheduled 2, 5⟩,
          ⟨.clear, .cleared, 5⟩, ⟨.cancel 2, .cancelled false, 5⟩, ⟨.pop, .popped none none, 5⟩] ∧
      Reliable (HeapQueue.server (Heap.unsorted (ε := Nat))).answers := by
  obtain ⟨hlist, hheap, -, hreliable⟩ := answers_as_agenda (Heap.unsorted (ε := Nat)) Heap.lawful_unsorted
  refine ⟨?_, hreliable⟩
  rw [hheap, ← hlist]
  rfl

end SlotNet
