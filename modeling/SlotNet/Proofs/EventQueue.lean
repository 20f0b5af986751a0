import Mathlib.Data.List.DropRight
import Mathlib.Data.List.Nodup
import Mathlib.Data.Prod.Lex
import SlotNet.EventQueue

/-!
# The order of the events

Events are handed out in the order of their keys, time first and then number. `Ordered` is what every
operation of the queue keeps; `pop_some` says which events a pop takes away.
-/

namespace SlotNet

/-- What an event waits by: its time, and among those of one time its number. -/
abbrev Key := Time ×ₗ Nat

namespace Entry

variable {ε : Type}

def key (e : Entry ε) : Key := toLex (e.time, e.id)

theorem key_lt_key {e x : Entry ε} :
    e.key < x.key ↔ e.time < x.time ∨ (e.time = x.time ∧ e.id < x.id) := Prod.Lex.toLex_lt_toLex

theorem time_le_of_key_lt {e x : Entry ε} (h : e.key < x.key) : e.time ≤ x.time :=
  (key_lt_key.1 h).elim Nat.le_of_lt fun ht => Nat.le_of_eq ht.1

end Entry

namespace EventQueue

variable {ε : Type} {q q' : EventQueue ε}

/-- The events wait in order, none of them before the present, and each has a number of its own. -/
structure Ordered (q : EventQueue ε) : Prop where
  sorted : q.entries.Pairwise fun a b => a.key < b.key
  distinct : (q.entries.map (·.id)).Nodup
  lt_nextId : ∀ e ∈ q.entries, e.id < q.nextId
  now_le : ∀ e ∈ q.entries, q.now ≤ e.time

theorem ordered_clear (q : EventQueue ε) : q.clear.Ordered := ⟨.nil, List.nodup_nil, nofun, nofun⟩

theorem ordered_empty : (empty : EventQueue ε).Ordered := ordered_clear empty

theorem Ordered.eq_of_id (h : q.Ordered) {a b : Entry ε} (ha : a ∈ q.entries)
    (hb : b ∈ q.entries) (hid : a.id = b.id) : a = b :=
  List.inj_on_of_nodup_map h.distinct ha hb hid

/-! ## Scheduling -/

theorem insert_perm (e : Entry ε) (l : List (Entry ε)) : (insert e l).Perm (e :: l) := by
  induction l with
  | nil => exact .refl _
  | cons x xs ih =>
    rw [insert]
    split
    · exact .refl _
    · exact (ih.cons x).trans (.swap e x xs)

theorem mem_insert {e x : Entry ε} {l : List (Entry ε)} : x ∈ insert e l ↔ x = e ∨ x ∈ l := by
  rw [(insert_perm e l).mem_iff, List.mem_cons]

theorem sorted_insert {e : Entry ε} {l : List (Entry ε)}
    (hl : l.Pairwise fun a b => a.key < b.key) (he : ∀ x ∈ l, x.id < e.id) :
    (insert e l).Pairwise fun a b => a.key < b.key := by
  induction l with
  | nil => exact List.pairwise_singleton _ _
  | cons x xs ih =>
    obtain ⟨hx, hxs⟩ := List.pairwise_cons.1 hl
    rw [insert]
    split
    · rename_i hlt
      have hex : e.key < x.key := Entry.key_lt_key.2 (.inl hlt)
      refine List.pairwise_cons.2 ⟨fun y hy => ?_, hl⟩
      rcases List.mem_cons.1 hy with rfl | hy
      · exact hex
      · exact hex.trans (hx y hy)
    · rename_i hle
      refine List.pairwise_cons.2 ⟨fun y hy => ?_, ih hxs fun y hy => he y (.tail _ hy)⟩
      rcases mem_insert.1 hy with rfl | hy
      · rw [Entry.key_lt_key]
        exact (Nat.lt_or_eq_of_le (Nat.le_of_not_lt hle)).imp_right fun ht =>
          ⟨ht, he x (.head _)⟩
      · exact hx y hy

def entryAt (q : EventQueue ε) (time : Time) (event : ε) : Entry ε :=
  ⟨max time q.now, q.nextId, event, false⟩

theorem mem_scheduleAt {time : Time} {event : ε} {e : Entry ε} :
    e ∈ (q.scheduleAt time event).2.entries ↔ e = q.entryAt time event ∨ e ∈ q.entries := mem_insert

theorem Ordered.scheduleAt (h : q.Ordered) (time : Time) (event : ε) :
    (q.scheduleAt time event).2.Ordered := by
  refine ⟨sorted_insert h.sorted h.lt_nextId, ?_, fun e he => ?_, fun e he => ?_⟩
  · refine (((insert_perm _ _).map _).nodup_iff).2 (List.nodup_cons.2 ⟨fun hm => ?_, h.distinct⟩)
    obtain ⟨x, hx, he⟩ := List.mem_map.1 hm
    exact Nat.ne_of_lt (h.lt_nextId x hx) he
  · rcases mem_scheduleAt.1 he with rfl | he
    · exact Nat.lt_succ_self _
    · exact Nat.lt_succ_of_lt (h.lt_nextId e he)
  · rcases mem_scheduleAt.1 he with rfl | he
    · exact Nat.le_max_right _ _
    · exact h.now_le e he

theorem schedule_ok {delay : Time} {event : ε} {id : Nat}
    (h : q.schedule delay event = .ok (id, q')) :
    id = q.nextId ∧ q' = (q.scheduleAt (q.now + delay) event).2 := by
  obtain ⟨time, ht, hs⟩ := Fault.map_eq_ok.1 h
  obtain rfl := (Time.add_eq_ok ht).1
  cases hs
  exact ⟨rfl, rfl⟩

/-! ## Cancelling -/

theorem mem_cancel {id : Nat} {e : Entry ε} :
    e ∈ (q.cancel id).2.entries ↔ ∃ x ∈ q.entries, cancelEntry id x = e := List.mem_map

@[simp] theorem key_cancelEntry (id : Nat) (e : Entry ε) : (cancelEntry id e).key = e.key := by
  unfold cancelEntry
  split <;> rfl

@[simp] theorem time_cancelEntry (id : Nat) (e : Entry ε) : (cancelEntry id e).time = e.time := by
  unfold cancelEntry
  split <;> rfl

@[simp] theorem id_cancelEntry (id : Nat) (e : Entry ε) : (cancelEntry id e).id = e.id := by
  unfold cancelEntry
  split <;> rfl

@[simp] theorem event_cancelEntry (id : Nat) (e : Entry ε) :
    (cancelEntry id e).event = e.event := by
  unfold cancelEntry
  split <;> rfl

theorem cancelled_cancelEntry (id : Nat) (e : Entry ε) :
    (cancelEntry id e).cancelled = true ↔ e.cancelled = true ∨ e.id = id := by
  unfold cancelEntry
  split
  · rename_i h
    simp [h]
  · rename_i h
    simp [h]

theorem Ordered.cancel (h : q.Ordered) (id : Nat) : (q.cancel id).2.Ordered := by
  refine ⟨?_, ?_, fun e he => ?_, fun e he => ?_⟩
  · exact h.sorted.map _ fun a b hab => by rw [key_cancelEntry, key_cancelEntry]; exact hab
  · show ((q.entries.map (cancelEntry id)).map (·.id)).Nodup
    rw [List.map_map, show (fun e : Entry ε => e.id) ∘ cancelEntry id = (·.id) from
      funext (id_cancelEntry id)]
    exact h.distinct
  · obtain ⟨x, hx, rfl⟩ := mem_cancel.1 he
    rw [id_cancelEntry]
    exact h.lt_nextId x hx
  · obtain ⟨x, hx, rfl⟩ := mem_cancel.1 he
    rw [time_cancelEntry]
    exact h.now_le x hx

/-! ## Handing out -/

theorem settle_settle (q : EventQueue ε) : q.settle.settle = q.settle := by
  simp only [settle, List.dropWhile_idempotent]

theorem Ordered.settle (h : q.Ordered) : q.settle.Ordered := by
  have hsub : q.settle.entries.Sublist q.entries := (List.dropWhile_suffix _).sublist
  exact ⟨h.sorted.sublist hsub, h.distinct.sublist (hsub.map _),
    fun e he => h.lt_nextId e (hsub.subset he), fun e he => h.now_le e (hsub.subset he)⟩

theorem pop_peekTime (q : EventQueue ε) : q.peekTime.2.pop = q.pop := by
  simp only [peekTime, pop, settle_settle]

/-- The first event that is not cancelled is handed out. Those before it are gone with it, those
behind it stay. -/
theorem pop_some (h : q.Ordered) {time : Time} {event : ε} (hpop : q.pop = (some (time, event), q')) :
    ∃ e ∈ q.entries, e.cancelled = false ∧ e.time = time ∧ e.event = event ∧
      q.settle.entries.head? = some e ∧ q'.now = time ∧ q'.nextId = q.nextId ∧
      (∀ x, x ∈ q'.entries ↔ x ∈ q.entries ∧ e.key < x.key) ∧
      (∀ x ∈ q.entries, x.key < e.key → x.cancelled = true) ∧ q'.Ordered := by
  have hsplit : q.entries = q.entries.takeWhile (·.cancelled) ++ q.settle.entries :=
    List.takeWhile_append_dropWhile.symm
  have hsorted := h.sorted
  have hdistinct := h.distinct
  rw [hsplit] at hsorted
  rw [hsplit, List.map_append] at hdistinct
  obtain ⟨-, hs, hbefore⟩ := List.pairwise_append.1 hsorted
  obtain ⟨-, hd, -⟩ := List.nodup_append.1 hdistinct
  unfold pop at hpop
  dsimp only at hpop
  cases hq : q.settle.entries with
  | nil => simp [hq] at hpop
  | cons e rest =>
    simp only [hq, Prod.mk.injEq, Option.some.injEq] at hpop
    obtain ⟨⟨rfl, rfl⟩, rfl⟩ := hpop
    rw [hq] at hs hd hbefore hsplit
    have hmem : ∀ x, x ∈ q.entries ↔ x ∈ q.entries.takeWhile (·.cancelled) ∨ x = e ∨ x ∈ rest := by
      intro x
      rw [← List.mem_cons, ← List.mem_append, ← hsplit]
    have hrest := List.pairwise_cons.1 hs
    have hin : ∀ x ∈ rest, x ∈ q.entries := fun x hx => (hmem x).2 (.inr (.inr hx))
    have htaken : ∀ x ∈ q.entries.takeWhile (·.cancelled), x.cancelled = true := fun x hx =>
      List.mem_takeWhile_imp hx
    refine ⟨e, (hmem e).2 (.inr (.inl rfl)), ?_, rfl, rfl, rfl, rfl, rfl, fun x => ?_, ?_, ?_⟩
    · have := List.head?_dropWhile_not (fun x : Entry ε => x.cancelled) q.entries
      rw [show q.entries.dropWhile (fun x => x.cancelled) = e :: rest from hq] at this
      simpa using this
    · constructor
      · exact fun hx => ⟨hin x hx, hrest.1 x hx⟩
      · rintro ⟨hx, hlt⟩
        rcases (hmem x).1 hx with hx | rfl | hx
        · exact absurd (hbefore x hx e (.head _)) (lt_asymm hlt)
        · exact absurd hlt (lt_irrefl _)
        · exact hx
    · intro x hx hlt
      rcases (hmem x).1 hx with hx | rfl | hx
      · exact htaken x hx
      · exact absurd hlt (lt_irrefl _)
      · exact absurd (hrest.1 x hx) (lt_asymm hlt)
    · refine ⟨hrest.2, (List.nodup_cons.1 hd).2, fun x hx => h.lt_nextId x (hin x hx),
        fun x hx => ?_⟩
      exact Entry.time_le_of_key_lt (hrest.1 x hx)

end EventQueue

end SlotNet
