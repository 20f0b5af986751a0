import SlotNet.Proofs.Controller.Course

/-!
# What a reservation earns

Every choice that counts has a place in the node's rewards. Where the node saw the chosen slot claimed
before the reservation, the penalty is added there and nowhere else (`rewards_reserved_self`); the choices
that count are all different (`nodup_choices`), so a reservation does not see its own claims.
Beginnings of frames and slots and messages leave rewards and choices alone (`SameCredit`).
-/

namespace SlotNet.Controller

variable {c c' : Controller}

/-! ## The choices that count -/

theorem eraseReps_loop_sorted {as acc : List Nat} {a : Nat} (has : as.Pairwise (· ≤ ·))
    (hle : ∀ x ∈ as, a ≤ x) (hacc : (a :: acc).Pairwise (· > ·)) :
    (List.eraseRepsBy.loop (· == ·) a as acc).Pairwise (· < ·) := by
  induction as generalizing a acc with
  | nil =>
    rw [List.eraseRepsBy.loop, List.pairwise_reverse]
    exact hacc
  | cons b as ih =>
    obtain ⟨hb, has⟩ := List.pairwise_cons.1 has
    rw [List.eraseRepsBy.loop]
    split
    · exact ih has (fun x hx => hle x (.tail _ hx)) hacc
    · rename_i hne
      have hlt : a < b := Nat.lt_of_le_of_ne (hle b (.head _)) (beq_eq_false_iff_ne.1 hne)
      refine ih has hb (List.pairwise_cons.2 ⟨fun x hx => ?_, hacc⟩)
      rcases List.mem_cons.1 hx with rfl | hx
      · exact hlt
      · exact Nat.lt_trans ((List.pairwise_cons.1 hacc).1 x hx) hlt

theorem eraseReps_sorted {l : List Nat} (h : l.Pairwise (· ≤ ·)) : l.eraseReps.Pairwise (· < ·) := by
  cases l with
  | nil => exact .nil
  | cons a as =>
    obtain ⟨ha, has⟩ := List.pairwise_cons.1 h
    exact eraseReps_loop_sorted has ha (List.pairwise_singleton _ _)

theorem distinct_sorted (chosen : List Nat) : chosen.mergeSort.eraseReps.Pairwise (· < ·) := by
  have hsorted : (chosen.mergeSort fun a b => decide (a ≤ b)).Pairwise fun a b => decide (a ≤ b) := by
    refine List.pairwise_mergeSort ?_ ?_ _
    · intro a b c hab hbc
      exact decide_eq_true (Nat.le_trans (of_decide_eq_true hab) (of_decide_eq_true hbc))
    · intro a b
      rcases Nat.le_total a b with h | h <;> simp [h]
  exact eraseReps_sorted (hsorted.imp of_decide_eq_true)

theorem effective_sorted (dataSlots most : Nat) (chosen : List Nat) :
    (effective dataSlots most chosen).Pairwise (· < ·) :=
  (distinct_sorted _).sublist (List.take_sublist _ _)

theorem eraseReps_loop_eq {as acc : List Nat} {a : Nat} (h : (a :: as).Pairwise (· < ·)) :
    List.eraseRepsBy.loop (· == ·) a as acc = acc.reverse ++ a :: as := by
  induction as generalizing a acc with
  | nil => simp [List.eraseRepsBy.loop]
  | cons b as ih =>
    obtain ⟨ha, has⟩ := List.pairwise_cons.1 h
    have hne : (a == b) = false := beq_false_of_ne (Nat.ne_of_lt (ha b (.head _)))
    rw [List.eraseRepsBy.loop, hne]
    simp [ih has]

theorem eraseReps_eq_self {slots : List Nat} (h : slots.Pairwise (· < ·)) : slots.eraseReps = slots := by
  cases slots with
  | nil => rfl
  | cons a as => exact eraseReps_loop_eq h

theorem effective_eq_self {dataSlots most : Nat} {slots : List Nat} (h : slots.Pairwise (· < ·))
    (hslots : ∀ slot ∈ slots, slot < dataSlots) (hlength : slots.length ≤ most) :
    effective dataSlots most slots = slots := by
  have hall : slots.filter (· < dataSlots) = slots :=
    List.filter_eq_self.2 fun slot hslot => decide_eq_true (hslots slot hslot)
  have hsorted : slots.mergeSort = slots :=
    List.mergeSort_of_pairwise (h.imp fun hlt => decide_eq_true (Nat.le_of_lt hlt))
  rw [effective, hall, hsorted, eraseReps_eq_self h, List.take_of_length_le hlength]

theorem nodup_choices (c : Controller) : c.choices.Nodup :=
  (effective_sorted _ _ _).imp Nat.ne_of_lt

/-! ## Marking -/

/-- Does a node see a claim on a slot of the current frame? -/
def sees (c : Controller) (node slot : Nat) : Bool :=
  (c.claims.get .current node slot).any (·.isClaimed)

theorem sees_mark_of_ne {node slot place d : Nat} (hne : d ≠ slot) :
    (mark node c (slot, place)).sees node d = c.sees node d := by
  unfold sees
  rw [claims_mark, ClaimTable.get_set, if_neg (fun h => hne h.2.2)]

theorem rewards_mark (node slot place : Nat) :
    (mark node c (slot, place)).rewards =
      if c.sees node slot then
        c.rewards.modify node (·.modify place (· + c.rules.usedSlotPenalty))
      else c.rewards := by
  unfold sees
  simp only [mark]
  cases c.claims.get .current node slot <;> rfl

theorem modify_eq_mapIdx {α : Type} (f : α → α) (place : Nat) (row : List α) :
    row.modify place f = row.mapIdx fun j r => if j = place then f r else r := by
  refine List.ext_getElem? fun j => ?_
  rw [List.getElem?_modify, List.getElem?_mapIdx]
  by_cases hj : j = place
  · simp [hj]
  · simp [hj, Ne.symm hj]

@[simp] theorem mapIdx_same {α : Type} (row : List α) : (row.mapIdx fun _ r => r) = row := by
  refine List.ext_getElem? fun j => ?_
  rw [List.getElem?_mapIdx, Option.map_id']

theorem getElem?_rewards_mark (node slot place n : Nat) :
    (mark node c (slot, place)).rewards[n]? = c.rewards[n]?.map fun row => row.mapIdx fun j r =>
      if n = node ∧ j = place ∧ c.sees node slot then r + c.rules.usedSlotPenalty else r := by
  rw [rewards_mark]
  cases hsees : c.sees node slot with
  | false => simp
  | true =>
    rw [if_pos rfl, List.getElem?_modify]
    by_cases hn : n = node
    · simp [hn, modify_eq_mapIdx]
    · simp [hn, Ne.symm hn]

theorem getElem?_rewards_markAll {choices : List Nat} (hnodup : choices.Nodup)
    (first node n : Nat) :
    (c.markAll node (choices.zipIdx first)).rewards[n]? =
      c.rewards[n]?.map fun row => row.mapIdx fun j r =>
        if n = node ∧ first ≤ j ∧ choices[j - first]?.any (c.sees node) then
          r + c.rules.usedSlotPenalty
        else r := by
  induction choices generalizing c first with
  | nil => simp [markAll]
  | cons slot choices ih =>
    obtain ⟨hslot, hnodup⟩ := List.nodup_cons.1 hnodup
    rw [List.zipIdx_cons]
    show ((mark node c (slot, first)).markAll node (choices.zipIdx (first + 1))).rewards[n]? = _
    rw [ih hnodup, getElem?_rewards_mark, Option.map_map, (sameFrame_mark node c _).rules]
    refine congrArg (fun f => Option.map f c.rewards[n]?) (funext fun row => ?_)
    rw [Function.comp_apply, List.mapIdx_mapIdx]
    refine congrArg (fun f => List.mapIdx f row) (funext fun j => funext fun r => ?_)
    -- the later choices are other slots, so their claims are still as they were
    have hlater : ∀ k : Nat, choices[k]?.any ((mark node c (slot, first)).sees node)
        = choices[k]?.any (c.sees node) := by
      intro k
      cases hk : choices[k]? with
      | none => rfl
      | some d =>
        have hne : d ≠ slot := fun heq => hslot (heq ▸ List.mem_of_getElem? hk)
        exact sees_mark_of_ne hne
    rw [Function.comp_apply, hlater]
    by_cases hn : n = node
    · rcases Nat.lt_trichotomy j first with hj | rfl | hj
      · simp [hn, Nat.not_le_of_lt hj, Nat.ne_of_lt hj, show ¬ first + 1 ≤ j by omega]
      · rw [if_neg fun h => Nat.not_succ_le_self j h.2.1]
        simp [hn]
      · obtain ⟨k, rfl⟩ := Nat.exists_eq_add_of_lt hj
        have hk : first + k + 1 - first = k + 1 := by omega
        have hk' : first + k + 1 - (first + 1) = k := by omega
        simp [hn, hk, hk', show first + k + 1 ≠ first by omega, show first ≤ first + k + 1 by omega,
          show first + 1 ≤ first + k + 1 by omega]
    · simp [hn]

/-! ## Reserving -/

theorem rewards_grantSlots (node : Nat) (slots : List Nat) :
    (c.grantSlots node slots).rewards = c.rewards ∧
      (c.grantSlots node slots).chosen = c.chosen := by
  induction slots generalizing c with
  | nil => exact ⟨rfl, rfl⟩
  | cons s slots ih => exact ih (c := c.addSlot (c.nodeCount + s) node)

/-- What the choices of a reservation earn the node, by their places. -/
def earnings (c : Controller) (node : Nat) : List Float32 :=
  (List.range c.rules.maxSlotsPerAction).map fun j =>
    if c.choices[j]?.any (c.sees node) then 0.0 + c.rules.usedSlotPenalty else 0.0

def unpaid (c : Controller) : List Float32 := List.replicate c.rules.maxSlotsPerAction 0.0

theorem getElem?_rewards_reserved (node n : Nat) :
    (c.reserved node).rewards[n]? = c.rewards[n]?.map fun row => row.mapIdx fun j r =>
      if n = node ∧ c.choices[j]?.any (c.sees node) then r + c.rules.usedSlotPenalty else r := by
  rw [reserved, (rewards_grantSlots _ _).1, markChosen_eq,
    getElem?_rewards_markAll c.nodup_choices]
  simp only [Nat.zero_le, Nat.sub_zero, true_and]
  rfl

theorem rewards_reserved_self {node : Nat} (h : c.rewards[node]? = some c.unpaid) :
    (c.reserved node).rewards[node]? = some (c.earnings node) := by
  rw [getElem?_rewards_reserved, h, Option.map_some, earnings, unpaid]
  refine congrArg some (List.ext_getElem? fun j => ?_)
  rw [List.getElem?_mapIdx, List.getElem?_replicate, List.getElem?_map]
  by_cases hj : j < c.rules.maxSlotsPerAction
  · simp [hj]
  · simp [hj]

theorem rewards_reserved_of_ne {node n : Nat} (h : n ≠ node) :
    (c.reserved node).rewards[n]? = c.rewards[n]? := by
  rw [getElem?_rewards_reserved]
  simp [h]

/-- Where no choice was claimed, a reservation costs nothing. -/
theorem rewards_reserved_of_unseen {node : Nat}
    (h : ∀ slot ∈ c.choices, c.sees node slot = false) :
    (c.reserved node).rewards = c.rewards := by
  refine List.ext_getElem? fun n => ?_
  have hfree : ∀ j : Nat, c.choices[j]?.any (c.sees node) = false := by
    intro j
    cases hj : c.choices[j]? with
    | none => rfl
    | some slot => exact h slot (List.mem_of_getElem? hj)
  rw [getElem?_rewards_reserved]
  simp [hfree]

theorem chosen_markAll (node : Nat) (choices : List (Nat × Nat)) :
    (c.markAll node choices).chosen = c.chosen := by
  induction choices generalizing c with
  | nil => rfl
  | cons x choices ih =>
    have hmark : (mark node c x).chosen = c.chosen := by
      obtain ⟨rewards, h⟩ := mark_eq node c x
      rw [h]
    exact (ih (c := mark node c x)).trans hmark

theorem chosen_reserved (node : Nat) : (c.reserved node).chosen = [] := by
  rw [reserved, (rewards_grantSlots _ _).2, markChosen_eq, chosen_markAll]

theorem chosen_chooseAll (slots : List Nat) :
    (slots.foldl choose c).chosen = c.chosen ++ slots ∧
      (slots.foldl choose c).rewards = c.rewards := by
  rw [chooseAll_eq]
  exact ⟨rfl, rfl⟩

/-! ## Taking rewards -/

theorem takeReward_of_some {node : Nat} {row : List Float32} (h : c.rewards[node]? = some row) :
    c.takeReward node =
      (row, { c with rewards := c.rewards.set node (List.replicate row.length 0.0) }) := by
  unfold takeReward
  rw [h]
  simp only [List.map_const']

theorem takeReward_eq_self {node most : Nat}
    (h : c.rewards[node]? = some (List.replicate most 0.0)) :
    c.takeReward node = (List.replicate most 0.0, c) := by
  rw [takeReward_of_some h, List.length_replicate]
  obtain ⟨hlt, heq⟩ := List.getElem?_eq_some_iff.1 h
  rw [← heq, List.set_getElem_self]

theorem credit_ofConfig {config : Config} (h : ofConfig config = .ok c) :
    c.chosen = [] ∧ c.rewards = List.replicate config.nodeCount
      (List.replicate config.reservation.maxSlotsPerAction 0.0) := by
  obtain ⟨total, claims, -, -, -, -, rfl⟩ := ofConfig_eq_ok_iff.1 h
  exact ⟨rfl, rfl⟩

/-! ## What leaves rewards and choices alone -/

/-- Neither rewards nor choices have changed. -/
structure SameCredit (c c' : Controller) : Prop where
  rewards : c'.rewards = c.rewards
  chosen : c'.chosen = c.chosen

theorem SameCredit.refl (c : Controller) : SameCredit c c := ⟨rfl, rfl⟩

theorem SameCredit.trans {c'' : Controller} (h : SameCredit c c') (h' : SameCredit c' c'') :
    SameCredit c c'' := ⟨h'.rewards.trans h.rewards, h'.chosen.trans h.chosen⟩

theorem sameCredit_beginFrame (c : Controller) : SameCredit c c.beginFrame := by
  rcases beginFrame_eq c with h | h <;> rw [h] <;> exact ⟨rfl, rfl⟩

theorem sameCredit_openSlot (c : Controller) (slot : Nat) : SameCredit c (c.openSlot slot) := by
  unfold openSlot
  split <;> exact ⟨rfl, rfl⟩

theorem sameCredit_withdrawSlots (c : Controller) (node : Nat) (slots : List Nat) :
    SameCredit c (c.withdrawSlots node slots) := by
  induction slots generalizing c with
  | nil => exact .refl c
  | cons s slots ih =>
    have hfirst : SameCredit c (c.deleteSlot (c.nodeCount + s) node) := ⟨rfl, rfl⟩
    exact hfirst.trans (ih _)

theorem sameCredit_mergeRow (c : Controller) (g : Generation) (observer : Nat)
    (heard : List (Option Claim)) : SameCredit c (c.mergeRow g observer heard).2 := by
  cases hr : c.claims.row g observer with
  | none =>
    rw [mergeRow_of_no_row hr]
    exact .refl c
  | some row =>
    rw [mergeRow_of_row hr]
    exact (show SameCredit c (c.withRow g observer _) from ⟨rfl, rfl⟩).trans
      (sameCredit_withdrawSlots _ observer _)

theorem sameCredit_merge (c : Controller) (message : List UInt8) (observer : Nat) :
    SameCredit c (c.merge message observer).1 := by
  unfold merge
  split
  · exact .refl c
  · exact (sameCredit_mergeRow c _ observer _).trans (sameCredit_mergeRow _ _ observer _)

end SlotNet.Controller
