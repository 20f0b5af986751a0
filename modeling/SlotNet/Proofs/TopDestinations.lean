import SlotNet.Proofs.Backlog
import SlotNet.Proofs.QueueAccounts

/-!
# The ranking of all destinations

The top destinations are cut from one ranking of everything that waits (`RankedAll`), which the data queue alone
determines (`RankedAll.unique`). Its bytes are kept twice: destination by destination in the ranking, and as one
running count that each operation adjusts. `sum_backlog` says that the first account loses no payload, and
`Lawful.counted` that the second one is exact, so after any operations the two agree
(`QueueAccount.top_of_all_ranked`).
-/

namespace SlotNet

namespace TransmitQueue

/-- All destinations of the items, each once and with all the payload bytes for it: those with more bytes first,
and of those with as many the one that appears first. -/
structure RankedAll (items : List QueueItem) (all : List (Nat × Nat)) : Prop where
  nodup : (all.map (·.1)).Nodup
  mem_iff : ∀ d, d ∈ all.map (·.1) ↔ d ∈ destinations items
  bytes : ∀ x ∈ all, x.2 = bytesTo items x.1
  ordered : all.Pairwise fun x y => Outranks items x.1 y.1

variable {items : List QueueItem} {all all' : List (Nat × Nat)}

/-! ## One ranking -/

theorem Outranks.asymm {a b : Nat} (h : Outranks items a b) : ¬ Outranks items b a := by
  unfold Outranks at *
  omega

theorem RankedAll.mem (h : RankedAll items all) {x : Nat × Nat} :
    x ∈ all ↔ x.1 ∈ destinations items ∧ x.2 = bytesTo items x.1 := by
  constructor
  · intro hx
    exact ⟨(h.mem_iff x.1).1 (List.mem_map_of_mem hx), h.bytes x hx⟩
  · rintro ⟨hd, hbytes⟩
    obtain ⟨y, hy, hyx⟩ := List.mem_map.1 ((h.mem_iff x.1).2 hd)
    have hsame : y = x := Prod.ext hyx (by rw [h.bytes y hy, hbytes, hyx])
    exact hsame ▸ hy

/-- Two rankings of the same items have the same members, and no two members can stand in both orders. -/
theorem RankedAll.unique (h : RankedAll items all) (h' : RankedAll items all') : all = all' := by
  have hperm : all.Perm all' :=
    (List.perm_ext_iff_of_nodup h.nodup.of_map h'.nodup.of_map).2 fun x => h.mem.trans h'.mem.symm
  exact hperm.eq_of_pairwise (fun x y _ _ hxy hyx => absurd hyx hxy.asymm) h.ordered h'.ordered

theorem rankedAll_sort (q : TransmitQueue) :
    RankedAll q.data (q.backlog.mergeSort fun a b => b.2 ≤ a.2) := by
  have hperm : (q.backlog.mergeSort fun a b => b.2 ≤ a.2).Perm q.backlog := List.mergeSort_perm _ _
  have hfirst : q.backlog.map (·.1) = (destinations q.data).eraseDups := by
    rw [backlog_eq, List.map_map]
    exact List.map_id _
  refine ⟨?_, fun d => ?_, fun x hx => ?_, pairwise_outranks q⟩
  · rw [(hperm.map _).nodup_iff, hfirst]
    exact nodup_eraseDups _
  · rw [(hperm.map _).mem_iff, hfirst, List.mem_eraseDups]
  · have hx := hperm.subset hx
    rw [backlog_eq] at hx
    obtain ⟨d, -, rfl⟩ := List.mem_map.1 hx
    rfl

/-! ## The two accounts of the bytes -/

theorem sum_addBytes (d n : Nat) (totals : List (Nat × Nat)) :
    ((addBytes d n totals).map (·.2)).sum = (totals.map (·.2)).sum + n := by
  induction totals with
  | nil => simp [addBytes]
  | cons x rest ih =>
    unfold addBytes
    split
    · simp only [List.map_cons, List.sum_cons]
      omega
    · simp only [List.map_cons, List.sum_cons, ih]
      omega

theorem sum_backlog (q : TransmitQueue) :
    (q.backlog.map (·.2)).sum = (q.data.map (·.frame.payload.size)).sum := by
  unfold backlog
  induction q.data using List.reverseRecOn with
  | nil => rfl
  | append_singleton items x ih =>
    rw [List.foldl_append, List.foldl_cons, List.foldl_nil, sum_addBytes, ih]
    simp

theorem bytesOf_eq_payloads (items : List QueueItem) :
    bytesOf items = (items.map (·.frame.payload.size)).sum + Frame.overhead * items.length := by
  induction items with
  | nil => rfl
  | cons x items ih =>
    simp only [bytesOf, ih, Frame.size, List.map_cons, List.sum_cons, List.length_cons, Nat.mul_add]
    omega

theorem Lawful.sum_ranked {q : TransmitQueue} (hq : q.Lawful) (h : RankedAll q.data all) :
    (all.map (·.2)).sum + Frame.overhead * q.data.length = q.queuedBytes := by
  rw [h.unique (rankedAll_sort q), ((List.mergeSort_perm _ _).map _).sum_eq, sum_backlog, hq.counted,
    bytesOf_eq_payloads]

end TransmitQueue

namespace QueueAccount

open TransmitQueue

variable {a : QueueAccount} {maxPackets : Nat} {maxDelay : Time} {ops : List QueueOperation}

/-- After any operations there is one ranking of all destinations in the data queue, and for each `k` the top ones
are its first `k`. No destination is among them twice, and if none is left out, their bytes and 28 more for each
frame are the bytes counted. -/
theorem top_of_all_ranked (hr : (start maxPackets maxDelay).run ops = .ok a) :
    ∃ all, RankedAll a.queue.data all ∧ (∀ all', RankedAll a.queue.data all' → all' = all) ∧
      ∀ k, a.queue.top k = all.take k ∧ ((a.queue.top k).map (·.1)).Nodup ∧
        (all.length ≤ k →
          ((a.queue.top k).map (·.2)).sum + 28 * a.queue.data.length = a.queue.queuedBytes) := by
  have hlawful := ((accounted_start maxPackets maxDelay).run hr).lawful
  have hall := rankedAll_sort a.queue
  refine ⟨_, hall, fun all' h => h.unique hall, fun k => ⟨rfl, ?_, fun hk => ?_⟩⟩
  · exact hall.nodup.sublist ((List.take_sublist k _).map _)
  · have hcut : a.queue.top k = a.queue.backlog.mergeSort fun a b => b.2 ≤ a.2 :=
      List.take_of_length_le hk
    rw [hcut]
    exact hlawful.sum_ranked hall

/-- Bytes for a destination, queued at the time that is their number. -/
def bytesFor (uid destination size : Nat) : QueueOperation :=
  .enqueue { blankFrame uid size with destination } uid

/-- Data frames for four destinations and a control frame. One of the data frames is removed from between the
others, and with the last one destination 4 has as many bytes as destination 2, which appeared later. -/
def withTie : List QueueOperation :=
  [bytesFor 0 4 100, bytesFor 1 2 300, bytesFor 2 4 250, bytesFor 3 5 50, bytesFor 4 6 50,
    .enqueue { blankFrame 5 999 with kind := .routing } 5, .remove .data 2, bytesFor 6 4 200]

theorem top_of_all_ranked_withTie : ∃ a all, (start 10 Time.second).run withTie = .ok a ∧
    RankedAll a.queue.data all ∧ all = [(4, 300), (2, 300), (5, 50), (6, 50)] ∧
    a.queue.top 3 = [(4, 300), (2, 300), (5, 50)] ∧
    ((a.queue.top 4).map (·.2)).sum + 28 * a.queue.data.length = 840 := by
  obtain ⟨a, ha⟩ : ∃ a, (start 10 Time.second).run withTie = .ok a := ⟨_, rfl⟩
  obtain ⟨all, hall, hunique, htop⟩ := top_of_all_ranked ha
  have hbacklog : a.queue.backlog = [(4, 300), (2, 300), (5, 50), (6, 50)] := by
    cases ha
    rfl
  have hbytes : a.queue.queuedBytes = 840 := by
    cases ha
    rfl
  have hlist : all = [(4, 300), (2, 300), (5, 50), (6, 50)] := by
    rw [← hunique _ (rankedAll_sort a.queue), hbacklog]
    simp [List.mergeSort]
  subst hlist
  exact ⟨a, _, ha, hall, rfl, (htop 3).1, ((htop 4).2.2 (Nat.le_refl 4)).trans hbytes⟩

end QueueAccount

end SlotNet
