import SlotNet.ClaimTable

/-!
# Places of the claim table

What each operation does to the claim at a place (`get`), and the shape that all operations keep: a
row for each node in both generations, and in each row a claim for each slot.
-/

namespace SlotNet.ClaimTable

/-- There is a row for each node, and each row has a claim for each slot. -/
structure Shaped (t : ClaimTable) (nodes slots : Nat) : Prop where
  length_rows : ∀ g, (t.rows g).length = nodes
  length_row : ∀ g, ∀ row ∈ t.rows g, row.length = slots

variable {t : ClaimTable} {nodes slots : Nat}

/-! ## Reading -/

theorem get_eq_some_iff {g : Generation} {n s : Nat} {c : Claim} :
    t.get g n s = some c ↔ ∃ row, t.row g n = some row ∧ row[s]? = some c := by
  simp only [get, Option.bind_eq_some_iff]

theorem Shaped.row_eq_some (h : t.Shaped nodes slots) (g : Generation) {n : Nat} (hn : n < nodes) :
    ∃ row, t.row g n = some row ∧ row.length = slots := by
  have hlt : n < (t.rows g).length := by rw [h.length_rows]; exact hn
  exact ⟨(t.rows g)[n], List.getElem?_eq_getElem hlt, h.length_row g _ (List.getElem_mem hlt)⟩

theorem Shaped.row_eq_none (h : t.Shaped nodes slots) (g : Generation) {n : Nat}
    (hn : nodes ≤ n) : t.row g n = none :=
  List.getElem?_eq_none (by rw [h.length_rows]; exact hn)

theorem Shaped.lt_of_row (h : t.Shaped nodes slots) {g : Generation} {n : Nat} {row : List Claim}
    (hr : t.row g n = some row) : n < nodes := by
  refine Nat.lt_of_not_le fun hn => ?_
  rw [h.row_eq_none g hn] at hr
  cases hr

theorem Shaped.length_of_row (h : t.Shaped nodes slots) {g : Generation} {n : Nat}
    {row : List Claim} (hr : t.row g n = some row) : row.length = slots :=
  h.length_row g row (List.mem_of_getElem? hr)

theorem Shaped.lt_of_get (h : t.Shaped nodes slots) {g : Generation} {n s : Nat} {c : Claim}
    (hg : t.get g n s = some c) : n < nodes ∧ s < slots := by
  obtain ⟨row, hr, hs⟩ := get_eq_some_iff.1 hg
  refine ⟨h.lt_of_row hr, ?_⟩
  rw [← h.length_of_row hr]
  exact (List.getElem?_eq_some_iff.1 hs).1

theorem Shaped.get_eq_some (h : t.Shaped nodes slots) (g : Generation) {n s : Nat}
    (hn : n < nodes) (hs : s < slots) : ∃ c, t.get g n s = some c := by
  obtain ⟨row, hr, hl⟩ := h.row_eq_some g hn
  have hlt : s < row.length := by rw [hl]; exact hs
  exact ⟨row[s], get_eq_some_iff.2 ⟨row, hr, List.getElem?_eq_getElem hlt⟩⟩

/-! ## Writing -/

theorem row_setRow (g g' : Generation) (n m : Nat) (row : List Claim) :
    (t.setRow g n row).row g' m
      = if g' = g ∧ m = n then (t.row g n).map fun _ => row else t.row g' m := by
  cases g <;> cases g' <;> simp only [setRow, ClaimTable.row, rows, List.getElem?_set] <;>
    by_cases h : n = m <;> simp_all [eq_comm]
  all_goals split <;> simp_all

theorem get_setRow (g g' : Generation) (n m s : Nat) (row : List Claim) :
    (t.setRow g n row).get g' m s
      = if g' = g ∧ m = n then (t.row g n).bind fun _ => row[s]? else t.get g' m s := by
  rw [get, row_setRow]
  split
  · cases t.row g n <;> rfl
  · rfl

theorem get_set (g g' : Generation) (n m s s' : Nat) (c : Claim) :
    (t.set g n s c).get g' m s'
      = if g' = g ∧ m = n ∧ s' = s then (t.get g n s).map fun _ => c else t.get g' m s' := by
  unfold set
  cases hr : t.row g n with
  | none =>
    simp only
    split
    · rename_i h
      obtain ⟨rfl, rfl, rfl⟩ := h
      simp [get, hr]
    · rfl
  | some row =>
    simp only
    rw [get_setRow, hr]
    by_cases h : g' = g ∧ m = n
    · obtain ⟨rfl, rfl⟩ := h
      simp only [and_self, true_and, if_true, Option.bind_some, get, hr, List.getElem?_set]
      by_cases hs : s = s'
      · subst hs
        by_cases hl : s < row.length
        · simp [hl]
        · simp [hl]
      · rw [if_neg hs, if_neg (Ne.symm hs)]
    · rw [if_neg h, if_neg fun hc => h ⟨hc.1, hc.2.1⟩]

theorem set_of_getElem? {α : Type} {l : List α} {i : Nat} {x : α} (h : l[i]? = some x) :
    l.set i x = l := by
  obtain ⟨hlt, rfl⟩ := List.getElem?_eq_some_iff.1 h
  exact List.set_getElem_self hlt

theorem setRow_eq_self {g : Generation} {n : Nat} {row : List Claim} (h : t.row g n = some row) :
    t.setRow g n row = t := by
  cases g
  · show (⟨t.previous.set n row, t.current⟩ : ClaimTable) = t
    rw [set_of_getElem? (show t.previous[n]? = some row from h)]
  · show (⟨t.previous, t.current.set n row⟩ : ClaimTable) = t
    rw [set_of_getElem? (show t.current[n]? = some row from h)]

theorem set_eq_self {g : Generation} {n s : Nat} (h : t.get g n s = none) (c : Claim) :
    t.set g n s c = t := by
  unfold set
  cases hr : t.row g n with
  | none => rfl
  | some row =>
    have hs : row[s]? = none := by simpa [get, hr] using h
    show t.setRow g n (row.set s c) = t
    rw [List.set_eq_of_length_le (List.getElem?_eq_none_iff.1 hs)]
    exact setRow_eq_self hr

theorem length_of_mem_set {rows : List (List Claim)} {row r : List Claim} {n : Nat}
    (hrows : ∀ r ∈ rows, r.length = slots) (hrow : row.length = slots) (hr : r ∈ rows.set n row) :
    r.length = slots := by
  rcases List.mem_or_eq_of_mem_set hr with hr | rfl
  · exact hrows r hr
  · exact hrow

theorem Shaped.setRow (h : t.Shaped nodes slots) (g : Generation) (n : Nat) {row : List Claim}
    (hrow : row.length = slots) : (t.setRow g n row).Shaped nodes slots := by
  refine ⟨fun g' => ?_, fun g' r hr => ?_⟩
  · have hg := h.length_rows g'
    cases g <;> cases g' <;> simpa [ClaimTable.setRow, rows] using hg
  · have hg := h.length_row g'
    cases g <;> cases g' <;> simp only [ClaimTable.setRow, rows] at hr hg
    · exact length_of_mem_set hg hrow hr
    · exact hg r hr
    · exact hg r hr
    · exact length_of_mem_set hg hrow hr

theorem Shaped.set (h : t.Shaped nodes slots) (g : Generation) (n s : Nat) (c : Claim) :
    (t.set g n s c).Shaped nodes slots := by
  unfold ClaimTable.set
  split
  · rename_i row hr
    exact h.setRow g n (by rw [List.length_set]; exact h.length_of_row hr)
  · exact h

/-! ## The next frame -/

@[simp] theorem get_rotate_current (n s : Nat) :
    t.rotate.get .current n s = (t.get .current n s).map fun _ => Claim.free := by
  simp only [get, row, rows, rotate, List.getElem?_map]
  cases t.current[n]? with
  | none => rfl
  | some row => exact List.getElem?_map ..

theorem Shaped.rotate (h : t.Shaped nodes slots) : t.rotate.Shaped nodes slots := by
  refine ⟨fun g => ?_, fun g row hr => ?_⟩
  · cases g
    · exact h.length_rows .current
    · show (t.current.map _).length = nodes
      rw [List.length_map]
      exact h.length_rows .current
  · cases g
    · exact h.length_row .current row hr
    · obtain ⟨r, hr', rfl⟩ := List.mem_map.1 (show row ∈ t.current.map _ from hr)
      rw [List.length_map]
      exact h.length_row .current r hr'

/-! ## The empty table -/

theorem shaped_new {t : ClaimTable} (h : ClaimTable.new nodes slots = .ok t) :
    t.Shaped nodes slots ∧ ∀ g n s c, t.get g n s = some c → c = Claim.free := by
  obtain ⟨entries, -, h⟩ := Fault.bind_eq_ok.1 h
  obtain ⟨_, -, h⟩ := Fault.bind_eq_ok.1 h
  cases h
  refine ⟨⟨fun g => ?_, fun g row hr => ?_⟩, fun g n s c hg => ?_⟩
  · cases g <;> exact List.length_replicate
  · have hr : row = List.replicate slots Claim.free := by
      cases g <;> exact List.eq_of_mem_replicate hr
    rw [hr, List.length_replicate]
  · obtain ⟨row, hr, hs⟩ := get_eq_some_iff.1 hg
    have hr : row = List.replicate slots Claim.free := by
      cases g <;> exact List.eq_of_mem_replicate (List.mem_of_getElem? hr)
    rw [hr] at hs
    exact List.eq_of_mem_replicate (List.mem_of_getElem? hs)

end SlotNet.ClaimTable
