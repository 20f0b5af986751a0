import SlotNet.Proofs.ClaimTable
import SlotNet.Proofs.Controller.Entitlement
import SlotNet.Proofs.StatusMessage

/-!
# What merging a message does

`get_merge`: the observer's claims are resolved one by one with what the message says about their
slots. `granted_merge`: it loses exactly the slots that it yields. A message that cannot be read
changes nothing (`merge_of_not_read`).
-/

namespace SlotNet.Controller

/-! ## Merging one claim -/

/-- Is a claim that was heard one that counts: taken, and from near enough? -/
def Counts (threshold : Nat) (c : Claim) : Prop := c.isClaimed = true ∧ c.priority < threshold

theorem verdict_of_not_counts {threshold observer : Nat} {held c : Claim}
    (h : ¬ Counts threshold c) : verdict threshold observer held (some c) = .keep := by
  have : (!c.isClaimed || decide (threshold ≤ c.priority)) = true := by
    simp only [Bool.or_eq_true, Bool.not_eq_true', decide_eq_true_eq]
    by_cases hc : c.isClaimed = true
    · exact .inr (Nat.le_of_not_lt fun hlt => h ⟨hc, hlt⟩)
    · exact .inl (by simpa using hc)
  rw [verdict, if_pos this]

theorem verdict_of_counts {threshold observer : Nat} {held c : Claim} (h : Counts threshold c) :
    verdict threshold observer held (some c)
      = if !held.isClaimed then .adopt
        else if held.owner == observer && c.owner != observer then .yield
        else if held.owner != observer && c.priority < held.priority then .adopt
        else .keep := by
  rw [verdict, if_neg]
  simp [h.1, h.2]

theorem resolved_some (threshold observer : Nat) (held c : Claim) :
    resolved threshold observer held (some c)
      = if verdict threshold observer held (some c) = .keep then held else c := by
  unfold resolved
  cases verdict threshold observer held (some c) <;> rfl

theorem resolved_of_not_counts {threshold observer : Nat} {held c : Claim}
    (h : ¬ Counts threshold c) : resolved threshold observer held (some c) = held := by
  rw [resolved_some, if_pos (verdict_of_not_counts h)]

/-- An observer yields exactly where a claim of another node that counts meets its own. -/
theorem verdict_eq_yield_iff {threshold observer : Nat} {held : Claim} {heard : Option Claim} :
    verdict threshold observer held heard = .yield
      ↔ held.isOwnedBy observer = true ∧
        ∃ c, heard = some c ∧ Counts threshold c ∧ c.owner ≠ observer := by
  cases heard with
  | none => simp [verdict]
  | some c =>
    by_cases hc : Counts threshold c
    · rw [verdict_of_counts hc, Claim.isOwnedBy]
      by_cases h1 : held.isClaimed = true <;> by_cases h2 : held.owner = observer <;>
        by_cases h3 : c.owner = observer <;> simp [h1, h2, h3, hc] <;> split <;> simp
    · rw [verdict_of_not_counts hc]
      simp [hc]

theorem resolved_eq_or {threshold observer : Nat} (held : Claim) (heard : Option Claim) :
    resolved threshold observer held heard = held ∨
      ∃ c, heard = some c ∧ Counts threshold c ∧ resolved threshold observer held heard = c := by
  cases heard with
  | none => exact .inl rfl
  | some c =>
    by_cases hc : Counts threshold c
    · rw [resolved_some]
      split
      · exact .inl rfl
      · exact .inr ⟨c, rfl, hc, rfl⟩
    · exact .inl (resolved_of_not_counts hc)

theorem resolved_of_own {threshold observer : Nat} {held : Claim} {heard : Option Claim}
    (ho : held.isOwnedBy observer = true)
    (hv : verdict threshold observer held heard ≠ .yield) :
    resolved threshold observer held heard = held := by
  cases heard with
  | none => rfl
  | some c =>
    by_cases hc : Counts threshold c
    · rw [Claim.isOwnedBy, Bool.and_eq_true, beq_iff_eq] at ho
      rw [verdict_of_counts hc] at hv
      rw [resolved_some, verdict_of_counts hc]
      simp only [ho.1, ho.2, Bool.not_true, Bool.false_eq_true, if_false, beq_self_eq_true,
        Bool.true_and, bne_self_eq_false, Bool.false_and] at hv ⊢
      split at hv
      · exact absurd rfl hv
      · rename_i hne
        rw [if_neg hne, if_pos rfl]
    · exact resolved_of_not_counts hc

/-- After a claim of another node that counts was heard, a claim of another node is held, and it is
no farther away than the one that was heard. -/
theorem resolved_of_foreign {threshold observer : Nat} {c : Claim} (held : Claim)
    (hc : Counts threshold c) (ho : c.owner ≠ observer) :
    (resolved threshold observer held (some c)).isClaimed = true ∧
      (resolved threshold observer held (some c)).owner ≠ observer ∧
      (resolved threshold observer held (some c)).priority ≤ c.priority := by
  rw [resolved_some, verdict_of_counts hc]
  by_cases h1 : held.isClaimed = true
  · by_cases h2 : held.owner = observer
    · simp [h1, h2, ho, hc.1]
    · by_cases h3 : c.priority < held.priority
      · simp [h1, h2, h3, ho, hc.1]
      · simp [h1, h2, h3]
        omega
  · simp [h1, ho, hc.1]

theorem resolved_of_held_foreign (threshold : Nat) {observer : Nat} {held : Claim}
    (heard : Option Claim) (h1 : held.isClaimed = true) (h2 : held.owner ≠ observer) :
    resolved threshold observer held heard = held ∨
      ∃ c, heard = some c ∧ Counts threshold c ∧ c.priority < held.priority ∧
        resolved threshold observer held heard = c := by
  cases heard with
  | none => exact .inl rfl
  | some c =>
    by_cases hc : Counts threshold c
    · by_cases h3 : c.priority < held.priority
      · refine .inr ⟨c, rfl, hc, h3, ?_⟩
        rw [resolved_some, verdict_of_counts hc]
        simp [h1, h2, h3]
      · refine .inl ?_
        rw [resolved_some, verdict_of_counts hc]
        simp [h1, h2, h3]
    · exact .inl (resolved_of_not_counts hc)

/-! ## Merging messages -/

/-- What a message says about a slot in a generation. -/
def about (m : StatusMessage) (g : Generation) (slot : Nat) : Option Claim :=
  match g with
  | .previous => m.previous[slot]?.join
  | .current => m.current[slot]?.join

theorem fits_of_about {m : StatusMessage} {slots : Nat} (h : StatusMessage.WellRead m slots)
    {g : Generation} {d : Nat} {c : Claim} (hc : about m g d = some c) : c.Fits := by
  cases g
  · exact h.fits_previous c (List.mem_of_getElem? (Option.join_eq_some_iff.1 hc))
  · exact h.fits_current c (List.mem_of_getElem? (Option.join_eq_some_iff.1 hc))

theorem mem_yielded {threshold observer slot s : Nat} {row : List Claim}
    {heard : List (Option Claim)} :
    s ∈ yielded threshold observer slot row heard
      ↔ ∃ d held h, s = slot + d ∧ row[d]? = some held ∧ heard[d]? = some h
        ∧ verdict threshold observer held h = .yield := by
  induction row generalizing slot heard with
  | nil => simp [yielded]
  | cons held row ih =>
    cases heard with
    | nil => simp [yielded]
    | cons h heard =>
      have hlater : s ∈ yielded threshold observer (slot + 1) row heard
          ↔ ∃ d held h, s = slot + (d + 1) ∧ row[d]? = some held ∧ heard[d]? = some h
            ∧ verdict threshold observer held h = .yield := by
        rw [ih]
        simp only [Nat.add_assoc, Nat.add_comm 1]
      constructor
      · intro hm
        rw [yielded] at hm
        split at hm
        · rename_i hv
          rcases List.mem_cons.1 hm with rfl | hm
          · exact ⟨0, held, h, rfl, rfl, rfl, hv⟩
          · obtain ⟨d, x, y, hd⟩ := hlater.1 hm
            exact ⟨d + 1, x, y, hd⟩
        · obtain ⟨d, x, y, hd⟩ := hlater.1 hm
          exact ⟨d + 1, x, y, hd⟩
      · rintro ⟨d, x, y, hs, hx, hy, hv⟩
        rw [yielded]
        cases d with
        | zero =>
          cases hx
          cases hy
          rw [if_pos hv]
          exact List.mem_cons.2 (.inl hs)
        | succ d =>
          have hm := hlater.2 ⟨d, x, y, hs, hx, hy, hv⟩
          split
          · exact List.mem_cons_of_mem _ hm
          · exact hm

theorem yielded_sorted (threshold observer slot : Nat) (row : List Claim) (heard : List (Option Claim)) :
    (yielded threshold observer slot row heard).Pairwise (· < ·) := by
  induction row generalizing slot heard with
  | nil => exact .nil
  | cons held row ih =>
    cases heard with
    | nil => exact .nil
    | cons claim heard =>
      rw [yielded]
      split
      · refine List.pairwise_cons.2 ⟨fun s hs => ?_, ih (slot + 1) heard⟩
        obtain ⟨d, -, -, rfl, -⟩ := mem_yielded.1 hs
        omega
      · exact ih (slot + 1) heard

theorem mem_yielded_of_row {nodes slots : Nat} {c : Controller} (hc : c.claims.Shaped nodes slots)
    {g : Generation} {observer : Nat} {row : List Claim} (hr : c.claims.row g observer = some row)
    {heard : List (Option Claim)} (hl : heard.length = slots) (threshold : Nat) {d : Nat} :
    d ∈ yielded threshold observer 0 row heard ↔
      ∃ held, c.claims.get g observer d = some held ∧
        verdict threshold observer held heard[d]?.join = .yield := by
  rw [mem_yielded]
  simp only [Nat.zero_add, ClaimTable.get, hr, Option.bind_some]
  constructor
  · rintro ⟨s, held, h, rfl, hx, hy, hv⟩
    exact ⟨held, hx, by rw [hy]; exact hv⟩
  · rintro ⟨held, hx, hv⟩
    have hd : d < heard.length := by
      rw [hl, ← hc.length_of_row hr]
      exact (List.getElem?_eq_some_iff.1 hx).1
    rw [List.getElem?_eq_getElem hd] at hv
    exact ⟨d, held, _, rfl, hx, List.getElem?_eq_getElem hd, hv⟩

def withRow (c : Controller) (g : Generation) (node : Nat) (row : List Claim) : Controller :=
  { c with claims := c.claims.setRow g node row }

theorem sameFrame_withRow (c : Controller) (g : Generation) (node : Nat) (row : List Claim) :
    SameFrame c (c.withRow g node row) := ⟨rfl, rfl, rfl, rfl, rfl, rfl⟩

theorem mergeRow_of_row {c : Controller} {g : Generation} {observer : Nat} {row : List Claim}
    (hr : c.claims.row g observer = some row) (heard : List (Option Claim)) :
    (c.mergeRow g observer heard).2
      = (c.withRow g observer
            (List.zipWith (resolved c.rules.priorityThreshold observer) row heard)).withdrawSlots
          observer (yielded c.rules.priorityThreshold observer 0 row heard) := by
  unfold mergeRow
  rw [hr]
  rfl

theorem mergeRow_of_no_row {c : Controller} {g : Generation} {observer : Nat}
    (hr : c.claims.row g observer = none) (heard : List (Option Claim)) :
    (c.mergeRow g observer heard).2 = c := by
  unfold mergeRow
  rw [hr]

theorem sameFrame_mergeRow (c : Controller) (g : Generation) (observer : Nat)
    (heard : List (Option Claim)) : SameFrame c (c.mergeRow g observer heard).2 := by
  cases hr : c.claims.row g observer with
  | none => rw [mergeRow_of_no_row hr]; exact .refl c
  | some row =>
    rw [mergeRow_of_row hr]
    exact (sameFrame_withRow c g observer _).trans (sameFrame_withdrawSlots _ observer _)

theorem get_mergeRow {nodes slots : Nat} {c : Controller} (hc : c.claims.Shaped nodes slots)
    (g : Generation) (observer : Nat) {heard : List (Option Claim)} (hl : heard.length = slots)
    (g' : Generation) (n d : Nat) :
    (c.mergeRow g observer heard).2.claims.get g' n d
      = if g' = g ∧ n = observer
        then (c.claims.get g observer d).map
          (resolved c.rules.priorityThreshold observer · heard[d]?.join)
        else c.claims.get g' n d := by
  cases hr : c.claims.row g observer with
  | none =>
    rw [mergeRow_of_no_row hr]
    split
    · rename_i h
      obtain ⟨rfl, rfl⟩ := h
      simp [ClaimTable.get, hr]
    · rfl
  | some row =>
    rw [mergeRow_of_row hr, claims_withdrawSlots, withRow, ClaimTable.get_setRow, hr]
    split
    · have hrow : row.length = heard.length := (hc.length_of_row hr).trans hl.symm
      simp only [Option.bind_some, List.getElem?_zipWith, ClaimTable.get, hr]
      cases hx : row[d]? with
      | none => rfl
      | some held =>
        have hd : d < heard.length := by
          rw [← hrow]
          exact (List.getElem?_eq_some_iff.1 hx).1
        rw [List.getElem?_eq_getElem hd]
        rfl
    · rfl

theorem shaped_mergeRow {nodes slots : Nat} {c : Controller} (hc : c.claims.Shaped nodes slots)
    (g : Generation) (observer : Nat) {heard : List (Option Claim)} (hl : heard.length = slots) :
    (c.mergeRow g observer heard).2.claims.Shaped nodes slots := by
  cases hr : c.claims.row g observer with
  | none => rw [mergeRow_of_no_row hr]; exact hc
  | some row =>
    rw [mergeRow_of_row hr, claims_withdrawSlots]
    refine hc.setRow g observer ?_
    rw [List.length_zipWith, hc.length_of_row hr, hl, Nat.min_self]

theorem granted_mergeRow {nodes slots : Nat} {c : Controller} (hc : c.claims.Shaped nodes slots)
    (g : Generation) (observer : Nat) {heard : List (Option Claim)} (hl : heard.length = slots)
    (d n : Nat) :
    (c.mergeRow g observer heard).2.Granted d n
      ↔ c.Granted d n ∧ ¬ (n = observer ∧ ∃ held, c.claims.get g observer d = some held ∧
        verdict c.rules.priorityThreshold observer held heard[d]?.join = .yield) := by
  cases hr : c.claims.row g observer with
  | none =>
    rw [mergeRow_of_no_row hr]
    simp [ClaimTable.get, hr]
  | some row =>
    rw [mergeRow_of_row hr, granted_withdrawSlots]
    exact and_congr Iff.rfl (not_congr (and_congr_right fun _ => mem_yielded_of_row hc hr hl _))

theorem merge_of_decode {c : Controller} {message : List UInt8} {m : StatusMessage}
    (h : StatusMessage.decode message c.layout.dataSlots = .ok m) (observer : Nat) :
    (c.merge message observer).1
      = ((c.mergeRow .previous observer m.previous).2.mergeRow .current observer m.current).2 := by
  unfold merge
  rw [h]

theorem merge_of_not_read {c : Controller} {message : List UInt8} {e : StatusError}
    (h : StatusMessage.decode message c.layout.dataSlots = .error e) (observer : Nat) :
    (c.merge message observer).1 = c := by
  unfold merge
  rw [h]

theorem sameFrame_merge (c : Controller) (message : List UInt8) (observer : Nat) :
    SameFrame c (c.merge message observer).1 := by
  cases h : StatusMessage.decode message c.layout.dataSlots with
  | error e => rw [merge_of_not_read h]; exact .refl c
  | ok m =>
    rw [merge_of_decode h]
    exact (sameFrame_mergeRow c _ _ _).trans (sameFrame_mergeRow _ _ _ _)

section merge

variable {nodes : Nat} {c : Controller} {message : List UInt8} {m : StatusMessage}

theorem get_merge (hc : c.claims.Shaped nodes c.layout.dataSlots)
    (h : StatusMessage.decode message c.layout.dataSlots = .ok m) (observer : Nat)
    (g : Generation) (n d : Nat) :
    (c.merge message observer).1.claims.get g n d
      = if n = observer
        then (c.claims.get g observer d).map
          (resolved c.rules.priorityThreshold observer · (about m g d))
        else c.claims.get g n d := by
  have hr := StatusMessage.wellRead_of_decode h
  have hs := shaped_mergeRow hc .previous observer hr.length_previous
  rw [merge_of_decode h, get_mergeRow hs .current observer hr.length_current,
    get_mergeRow hc .previous observer hr.length_previous,
    get_mergeRow hc .previous observer hr.length_previous, (sameFrame_mergeRow c _ _ _).rules]
  cases g <;> simp [about]

theorem shaped_merge (hc : c.claims.Shaped nodes c.layout.dataSlots) (message : List UInt8)
    (observer : Nat) : (c.merge message observer).1.claims.Shaped nodes c.layout.dataSlots := by
  cases h : StatusMessage.decode message c.layout.dataSlots with
  | error e => rw [merge_of_not_read h]; exact hc
  | ok m =>
    have hr := StatusMessage.wellRead_of_decode h
    rw [merge_of_decode h]
    exact shaped_mergeRow (shaped_mergeRow hc _ _ hr.length_previous) _ _ hr.length_current

theorem granted_merge (hc : c.claims.Shaped nodes c.layout.dataSlots)
    (h : StatusMessage.decode message c.layout.dataSlots = .ok m) (observer d n : Nat) :
    (c.merge message observer).1.Granted d n
      ↔ c.Granted d n ∧ ¬ (n = observer ∧ ∃ g held, c.claims.get g observer d = some held ∧
        verdict c.rules.priorityThreshold observer held (about m g d) = .yield) := by
  have hr := StatusMessage.wellRead_of_decode h
  have hs := shaped_mergeRow hc .previous observer hr.length_previous
  rw [merge_of_decode h, granted_mergeRow hs .current observer hr.length_current,
    granted_mergeRow hc .previous observer hr.length_previous, (sameFrame_mergeRow c _ _ _).rules,
    get_mergeRow hc .previous observer hr.length_previous, if_neg (by simp), and_assoc, ← not_or]
  refine and_congr Iff.rfl (not_congr ?_)
  constructor
  · rintro (⟨rfl, held, hg, hv⟩ | ⟨rfl, held, hg, hv⟩)
    · exact ⟨rfl, .previous, held, hg, hv⟩
    · exact ⟨rfl, .current, held, hg, hv⟩
  · rintro ⟨rfl, g, held, hg, hv⟩
    cases g
    · exact .inl ⟨rfl, held, hg, hv⟩
    · exact .inr ⟨rfl, held, hg, hv⟩

end merge

end SlotNet.Controller
