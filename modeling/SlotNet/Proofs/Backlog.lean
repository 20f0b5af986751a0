import Mathlib.Algebra.GroupWithZero.Nat
import Mathlib.Data.List.Induction
import Mathlib.Data.List.Nodup
import SlotNet.TransmitQueue

/-!
# The top destinations

The backlog has the destinations of the data queue in the order of first appearance, each once and with all the
bytes that wait for it (`backlog_eq`). Ranked are those with more bytes first and those with as many as they
came (`Outranks`), because sorting keeps the order of equal ones. `Ranking` says which destinations are the top
ones, and `ranking_top` that the queue tells them.
-/

namespace SlotNet.TransmitQueue

def destinations (items : List QueueItem) : List Nat := items.map (·.frame.destination)

/-- The payload bytes for a destination. -/
def bytesTo (items : List QueueItem) (destination : Nat) : Nat :=
  ((items.filter (·.frame.destination = destination)).map (·.frame.payload.size)).sum

/-! ## The backlog -/

theorem addBytes_map {ds : List Nat} (hds : ds.Nodup) {bytes : Nat → Nat} {d : Nat}
    (hnone : d ∉ ds → bytes d = 0) (n : Nat) :
    addBytes d n (ds.map fun e => (e, bytes e))
      = (if d ∈ ds then ds else ds ++ [d]).map fun e => (e, bytes e + if d = e then n else 0) := by
  induction ds with
  | nil => simp [addBytes, hnone]
  | cons e ds ih =>
    obtain ⟨he, hds⟩ := List.nodup_cons.1 hds
    by_cases hed : e = d
    · subst hed
      have hrest : ds.map (fun e' => (e', bytes e' + if e = e' then n else 0))
          = ds.map fun e' => (e', bytes e') :=
        List.map_congr_left fun e' he' => by rw [if_neg (by rintro rfl; exact he he'), Nat.add_zero]
      simp [addBytes, hrest]
    · have hd : d ≠ e := Ne.symm hed
      have htail := ih hds fun hmem => hnone (by simp [hd, hmem])
      by_cases hmem : d ∈ ds <;> simp_all [addBytes]

theorem bytesTo_append_singleton (items : List QueueItem) (x : QueueItem) (d : Nat) :
    bytesTo (items ++ [x]) d
      = bytesTo items d + if x.frame.destination = d then x.frame.payload.size else 0 := by
  by_cases hd : x.frame.destination = d <;> simp [bytesTo, hd]

theorem bytesTo_eq_zero {items : List QueueItem} {d : Nat} (h : d ∉ destinations items) :
    bytesTo items d = 0 := by
  have hnone : items.filter (·.frame.destination = d) = [] := by
    rw [List.filter_eq_nil_iff]
    intro x hx hd
    exact h (List.mem_map.2 ⟨x, hx, of_decide_eq_true hd⟩)
  rw [bytesTo, hnone]
  rfl

theorem eraseDups_append_singleton (l : List Nat) (d : Nat) :
    (l ++ [d]).eraseDups = if d ∈ l.eraseDups then l.eraseDups else l.eraseDups ++ [d] := by
  rw [List.eraseDups_append]
  by_cases hd : d ∈ l <;> simp [hd, List.removeAll, List.eraseDups_cons]

theorem eraseDups_first (l : List Nat) :
    l.eraseDups.Pairwise fun a b => l.idxOf a < l.idxOf b := by
  induction l using List.reverseRecOn with
  | nil => exact .nil
  | append_singleton l d ih =>
    have hkept : l.eraseDups.Pairwise fun a b => (l ++ [d]).idxOf a < (l ++ [d]).idxOf b := by
      refine ih.imp_of_mem fun {a b} ha hb hab => ?_
      rwa [List.idxOf_append_of_mem (List.mem_eraseDups.1 ha),
        List.idxOf_append_of_mem (List.mem_eraseDups.1 hb)]
    rw [eraseDups_append_singleton]
    split
    · exact hkept
    · rename_i hd
      refine List.pairwise_append.2 ⟨hkept, List.pairwise_singleton _ _, fun a ha b hb => ?_⟩
      rw [List.mem_singleton.1 hb, List.idxOf_append_of_mem (List.mem_eraseDups.1 ha),
        List.idxOf_append_of_notMem (mt List.mem_eraseDups.2 hd)]
      exact Nat.lt_add_right _ (List.idxOf_lt_length_iff.2 (List.mem_eraseDups.1 ha))

theorem nodup_eraseDups (l : List Nat) : l.eraseDups.Nodup :=
  (eraseDups_first l).imp fun {a b} h (heq : a = b) => by
    subst heq
    exact Nat.lt_irrefl _ h

/-- The backlog has each destination once, as they first appear, with all bytes for it. -/
theorem backlog_eq (q : TransmitQueue) :
    q.backlog = (destinations q.data).eraseDups.map fun d => (d, bytesTo q.data d) := by
  unfold backlog
  generalize q.data = items
  induction items using List.reverseRecOn with
  | nil => rfl
  | append_singleton items x ih =>
    have hnone : x.frame.destination ∉ (destinations items).eraseDups →
        bytesTo items x.frame.destination = 0 :=
      fun h => bytesTo_eq_zero (mt List.mem_eraseDups.2 h)
    have hds : destinations (items ++ [x]) = destinations items ++ [x.frame.destination] := by
      rw [destinations, List.map_append]
      rfl
    rw [List.foldl_append, ih, List.foldl_cons, List.foldl_nil, addBytes_map (nodup_eraseDups _) hnone,
      hds, eraseDups_append_singleton]
    simp only [bytesTo_append_singleton]

/-! ## The ranks -/

/-- More bytes wait for the first destination, or as many and it came earlier. -/
def Outranks (items : List QueueItem) (a b : Nat) : Prop :=
  bytesTo items b < bytesTo items a ∨
    bytesTo items b = bytesTo items a ∧ (destinations items).idxOf a < (destinations items).idxOf b

/-- These are the top destinations of the items, at most `k`, with the bytes that wait for them. -/
structure Ranking (items : List QueueItem) (k : Nat) (top : List (Nat × Nat)) : Prop where
  bytes : ∀ x ∈ top, x.1 ∈ destinations items ∧ x.2 = bytesTo items x.1
  ranked : top.Pairwise fun x y => Outranks items x.1 y.1
  length_le : top.length ≤ k
  /-- A destination is left out only for `k` others. -/
  others : ∀ d ∈ destinations items, (∀ x ∈ top, x.1 ≠ d) →
    top.length = k ∧ ∀ x ∈ top, Outranks items x.1 d

variable {items : List QueueItem} {k : Nat} {top : List (Nat × Nat)}

theorem Ranking.descending (h : Ranking items k top) : top.Pairwise fun x y => y.2 ≤ x.2 := by
  refine h.ranked.imp_of_mem fun {x y} hx hy hxy => ?_
  rw [(h.bytes x hx).2, (h.bytes y hy).2]
  rcases hxy with hmore | ⟨hsame, -⟩
  · exact Nat.le_of_lt hmore
  · exact Nat.le_of_eq hsame

theorem pairwise_mergeSort_stable {α : Type} (le : α → α → Bool) {R : α → α → Prop} {l : List α}
    (htrans : ∀ a b c, le a b = true → le b c = true → le a c = true)
    (htotal : ∀ a b, (le a b || le b a) = true) (hl : l.Pairwise R) :
    (l.mergeSort le).Pairwise fun x y => le x y = true ∧ (le y x = true → R x y) := by
  have hsorted := List.pairwise_mergeSort (List.zipIdxLE_trans htrans) (List.zipIdxLE_total htotal) l.zipIdx
  have hperm : (l.zipIdx.mergeSort (List.zipIdxLE le)).Perm l.zipIdx := List.mergeSort_perm _ _
  have hplaces : (l.zipIdx.map Prod.snd).Nodup := by
    rw [List.zipIdx_map_snd]
    exact List.nodup_range'
  have hdistinct := hperm.nodup_iff.2 (List.Nodup.of_map _ hplaces)
  rw [← List.mergeSort_zipIdx, List.pairwise_map]
  refine (hsorted.and hdistinct).imp_of_mem ?_
  rintro ⟨x, i⟩ ⟨y, j⟩ hx hy ⟨hle, hne⟩
  have hx' : l[i]? = some x := List.mem_zipIdx_iff_getElem?.1 (hperm.subset hx)
  have hy' : l[j]? = some y := List.mem_zipIdx_iff_getElem?.1 (hperm.subset hy)
  obtain ⟨hi, rfl⟩ := List.getElem?_eq_some_iff.1 hx'
  obtain ⟨hj, rfl⟩ := List.getElem?_eq_some_iff.1 hy'
  simp only [List.zipIdxLE, Bool.if_false_right, Bool.if_true_right, Bool.and_eq_true, Bool.or_eq_true,
    Bool.not_eq_true', decide_eq_true_eq] at hle
  refine ⟨hle.1, fun hback => ?_⟩
  have hij : i ≤ j := hle.2.resolve_left (by simp [hback])
  have hlt : i < j := Nat.lt_of_le_of_ne hij (by rintro rfl; exact hne rfl)
  exact List.pairwise_iff_getElem.1 hl i j hi hj hlt

theorem pairwise_outranks (q : TransmitQueue) :
    (q.backlog.mergeSort fun a b => b.2 ≤ a.2).Pairwise fun x y => Outranks q.data x.1 y.1 := by
  have hfirst : q.backlog.Pairwise fun x y =>
      (destinations q.data).idxOf x.1 < (destinations q.data).idxOf y.1 := by
    rw [backlog_eq, List.pairwise_map]
    exact eraseDups_first _
  have hbytes : ∀ x ∈ q.backlog, x.2 = bytesTo q.data x.1 := by
    rw [backlog_eq]
    exact List.forall_mem_map.2 fun d _ => rfl
  have hsorted := pairwise_mergeSort_stable (fun a b : Nat × Nat => b.2 ≤ a.2)
    (by simp only [decide_eq_true_eq]; omega) (by simp only [Bool.or_eq_true, decide_eq_true_eq]; omega) hfirst
  refine hsorted.imp_of_mem fun {x y} hx hy hxy => ?_
  rw [List.mem_mergeSort] at hx hy
  simp only [decide_eq_true_eq] at hxy
  rw [Outranks, ← hbytes x hx, ← hbytes y hy]
  rcases Nat.lt_or_eq_of_le hxy.1 with hmore | hsame
  · exact .inl hmore
  · exact .inr ⟨hsame, hxy.2 (Nat.le_of_eq hsame.symm)⟩

/-- The top destinations are those of the data queue. -/
theorem ranking_top (q : TransmitQueue) (k : Nat) : Ranking q.data k (q.top k) := by
  have hmem : ∀ x, x ∈ (q.backlog.mergeSort fun a b => b.2 ≤ a.2) ↔
      ∃ d ∈ destinations q.data, (d, bytesTo q.data d) = x := by
    intro x
    rw [List.mem_mergeSort, backlog_eq, List.mem_map]
    simp only [List.mem_eraseDups]
  have hranked := pairwise_outranks q
  rw [← List.take_append_drop k (q.backlog.mergeSort _), List.pairwise_append] at hranked
  refine ⟨fun x hx => ?_, hranked.1, List.length_take_le _ _, fun d hd hout => ?_⟩
  · obtain ⟨d, hd, rfl⟩ := (hmem x).1 (List.mem_of_mem_take hx)
    exact ⟨hd, rfl⟩
  · have hrest := (hmem _).2 ⟨d, hd, rfl⟩
    rw [← List.take_append_drop k (q.backlog.mergeSort _), List.mem_append] at hrest
    have hdrop := hrest.resolve_left fun hin => hout _ hin rfl
    refine ⟨?_, fun x hx => hranked.2.2 x hx _ hdrop⟩
    have hlong := List.length_pos_of_mem hdrop
    rw [List.length_drop] at hlong
    exact List.length_take_of_le (by omega)

end SlotNet.TransmitQueue
