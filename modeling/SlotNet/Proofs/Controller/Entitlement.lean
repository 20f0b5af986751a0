import SlotNet.Controller

/-!
# Who may send in a data slot

`Granted` reads the slot map; `granted_grantSlots` and `granted_withdrawSlots` say what lets a node
send and what takes a slot from it. `SameFrame` is what reserving and merging leave as it is.
-/

namespace SlotNet.Controller

/-- May the node send in the data slot? -/
def Granted (c : Controller) (slot node : Nat) : Prop := node ∈ c.entitled (c.nodeCount + slot)

/-- What reserving and merging leave as it is. -/
structure SameFrame (c c' : Controller) : Prop where
  layout : c'.layout = c.layout
  nodeCount : c'.nodeCount = c.nodeCount
  rules : c'.rules = c.rules
  frameIndex : c'.frameIndex = c.frameIndex
  controlOrder : c'.controlOrder = c.controlOrder
  totalSlots : c'.totalSlots = c.totalSlots

theorem SameFrame.refl (c : Controller) : SameFrame c c := ⟨rfl, rfl, rfl, rfl, rfl, rfl⟩

theorem SameFrame.trans {c c' c'' : Controller} (h : SameFrame c c') (h' : SameFrame c' c'') :
    SameFrame c c'' :=
  ⟨h'.layout.trans h.layout, h'.nodeCount.trans h.nodeCount, h'.rules.trans h.rules,
    h'.frameIndex.trans h.frameIndex, h'.controlOrder.trans h.controlOrder,
    h'.totalSlots.trans h.totalSlots⟩

/-! ## Entitlements -/

theorem mem_entitled_addSlot (c : Controller) (slot node k n : Nat) :
    n ∈ (c.addSlot slot node).entitled k
      ↔ n ∈ c.entitled k ∨ (k = slot ∧ n = node ∧ slot < c.totalSlots) := by
  simp only [entitled, addSlot, totalSlots, List.getD_eq_getElem?_getD, List.getElem?_modify]
  by_cases hk : slot = k
  · subst hk
    cases hs : c.slotMap[slot]? with
    | none =>
      have := List.getElem?_eq_none_iff.1 hs
      simp only [Option.map_eq_map, Option.map_none, Option.getD_none, List.not_mem_nil, true_and,
        false_or, false_iff]
      omega
    | some nodes =>
      have := (List.getElem?_eq_some_iff.1 hs).1
      by_cases hn : node ∈ nodes
      · simp only [if_true, Option.map_eq_map, Option.map_some, Option.getD_some, true_and,
          List.contains_iff_mem.2 hn]
        exact ⟨Or.inl, fun h => h.elim id fun h => h.1 ▸ hn⟩
      · simp [hn, this]
  · simp only [if_neg hk, Option.map_eq_map, Option.map_id_fun', id_eq]
    exact ⟨Or.inl, fun h => h.elim id fun h => absurd h.1.symm hk⟩

theorem mem_entitled_deleteSlot (c : Controller) (slot node k n : Nat) :
    n ∈ (c.deleteSlot slot node).entitled k ↔ n ∈ c.entitled k ∧ ¬ (k = slot ∧ n = node) := by
  simp only [entitled, deleteSlot, List.getD_eq_getElem?_getD, List.getElem?_modify]
  by_cases hk : slot = k
  · subst hk
    cases hs : c.slotMap[slot]? with
    | none => simp
    | some nodes => simp
  · simp only [if_neg hk, Option.map_eq_map, Option.map_id_fun', id_eq]
    exact ⟨fun h => ⟨h, fun h' => hk h'.1.symm⟩, And.left⟩

theorem sameFrame_addSlot (c : Controller) (slot node : Nat) : SameFrame c (c.addSlot slot node) :=
  ⟨rfl, rfl, rfl, rfl, rfl, List.length_modify _ _ _⟩

theorem sameFrame_deleteSlot (c : Controller) (slot node : Nat) :
    SameFrame c (c.deleteSlot slot node) :=
  ⟨rfl, rfl, rfl, rfl, rfl, List.length_modify _ _ _⟩

/-- Lets a node send in some data slots. -/
def grantSlots (c : Controller) (node : Nat) (slots : List Nat) : Controller :=
  slots.foldl (fun c s => c.addSlot (c.nodeCount + s) node) c

def withdrawSlots (c : Controller) (node : Nat) (slots : List Nat) : Controller :=
  slots.foldl (fun c s => c.deleteSlot (c.nodeCount + s) node) c

theorem sameFrame_grantSlots (c : Controller) (node : Nat) (slots : List Nat) :
    SameFrame c (c.grantSlots node slots) := by
  induction slots generalizing c with
  | nil => exact .refl c
  | cons s slots ih => exact (sameFrame_addSlot c _ node).trans (ih _)

theorem sameFrame_withdrawSlots (c : Controller) (node : Nat) (slots : List Nat) :
    SameFrame c (c.withdrawSlots node slots) := by
  induction slots generalizing c with
  | nil => exact .refl c
  | cons s slots ih => exact (sameFrame_deleteSlot c _ node).trans (ih _)

@[simp] theorem claims_grantSlots (c : Controller) (node : Nat) (slots : List Nat) :
    (c.grantSlots node slots).claims = c.claims := by
  induction slots generalizing c with
  | nil => rfl
  | cons s slots ih => exact ih (c.addSlot (c.nodeCount + s) node)

@[simp] theorem claims_withdrawSlots (c : Controller) (node : Nat) (slots : List Nat) :
    (c.withdrawSlots node slots).claims = c.claims := by
  induction slots generalizing c with
  | nil => rfl
  | cons s slots ih => exact ih (c.deleteSlot (c.nodeCount + s) node)

theorem granted_grantSlots (c : Controller) (node : Nat) (slots : List Nat) (d n : Nat) :
    (c.grantSlots node slots).Granted d n
      ↔ c.Granted d n ∨ (n = node ∧ d ∈ slots ∧ c.nodeCount + d < c.totalSlots) := by
  induction slots generalizing c with
  | nil => simp [grantSlots]
  | cons s slots ih =>
    have hs := sameFrame_addSlot c (c.nodeCount + s) node
    show ((c.addSlot (c.nodeCount + s) node).grantSlots node slots).Granted d n ↔ _
    rw [ih, Granted, mem_entitled_addSlot, hs.nodeCount, hs.totalSlots, Granted, List.mem_cons]
    constructor
    · rintro ((h | ⟨h, rfl, hlt⟩) | ⟨rfl, h, hlt⟩)
      · exact .inl h
      · exact .inr ⟨rfl, .inl (by omega), by omega⟩
      · exact .inr ⟨rfl, .inr h, hlt⟩
    · rintro (h | ⟨rfl, rfl | h, hlt⟩)
      · exact .inl (.inl h)
      · exact .inl (.inr ⟨rfl, rfl, hlt⟩)
      · exact .inr ⟨rfl, h, hlt⟩

theorem granted_withdrawSlots (c : Controller) (node : Nat) (slots : List Nat) (d n : Nat) :
    (c.withdrawSlots node slots).Granted d n ↔ c.Granted d n ∧ ¬ (n = node ∧ d ∈ slots) := by
  induction slots generalizing c with
  | nil => simp [withdrawSlots]
  | cons s slots ih =>
    have hs := sameFrame_deleteSlot c (c.nodeCount + s) node
    show ((c.deleteSlot (c.nodeCount + s) node).withdrawSlots node slots).Granted d n ↔ _
    rw [ih, Granted, mem_entitled_deleteSlot, hs.nodeCount, Granted, List.mem_cons]
    constructor
    · rintro ⟨⟨h, hd⟩, hm⟩
      refine ⟨h, ?_⟩
      rintro ⟨rfl, rfl | hmem⟩
      · exact hd ⟨rfl, rfl⟩
      · exact hm ⟨rfl, hmem⟩
    · rintro ⟨h, hm⟩
      refine ⟨⟨h, fun hd => hm ⟨hd.2, .inl (by omega)⟩⟩, fun hd => hm ⟨hd.1, .inr hd.2⟩⟩

theorem getElem?_withdrawSlots (c : Controller) (node : Nat) (slots : List Nat) (k : Nat) :
    (c.withdrawSlots node slots).slotMap[k]? = c.slotMap[k]?.map fun nodes =>
      if c.nodeCount ≤ k ∧ k - c.nodeCount ∈ slots then nodes.filter (· != node) else nodes := by
  induction slots generalizing c with
  | nil => simp [withdrawSlots]
  | cons s slots ih =>
    refine (ih (c.deleteSlot (c.nodeCount + s) node)).trans ?_
    simp only [deleteSlot, List.getElem?_modify, List.mem_cons]
    cases c.slotMap[k]? with
    | none => simp
    | some nodes =>
      by_cases hk : c.nodeCount + s = k
      · have hplace : c.nodeCount ≤ k ∧ k - c.nodeCount = s := by omega
        simp [hk, hplace]
      · have hplace : ¬ (c.nodeCount ≤ k ∧ k - c.nodeCount = s) := by omega
        by_cases hle : c.nodeCount ≤ k
        · simp [hk, hle, show k - c.nodeCount ≠ s from fun h => hplace ⟨hle, h⟩]
        · simp [hk, hle]

theorem getElem?_grantSlots (c : Controller) (node : Nat) (slots : List Nat) (k : Nat) :
    (c.grantSlots node slots).slotMap[k]? = c.slotMap[k]?.map fun nodes =>
      if c.nodeCount ≤ k ∧ k - c.nodeCount ∈ slots ∧ node ∉ nodes then nodes ++ [node] else nodes := by
  induction slots generalizing c with
  | nil => simp [grantSlots]
  | cons s slots ih =>
    refine (ih (c.addSlot (c.nodeCount + s) node)).trans ?_
    simp only [addSlot, List.getElem?_modify, List.mem_cons]
    cases c.slotMap[k]? with
    | none => simp
    | some nodes =>
      by_cases hk : c.nodeCount + s = k
      · have hplace : c.nodeCount ≤ k ∧ k - c.nodeCount = s := by omega
        by_cases hn : node ∈ nodes <;> simp [hk, hplace, hn]
      · by_cases hle : c.nodeCount ≤ k
        · have hplace : k - c.nodeCount ≠ s := by omega
          simp [hk, hle, hplace]
        · simp [hk, hle]

/-- It matters which slots are taken from the node, not in which order or how often. -/
theorem slotMap_withdrawSlots_congr {c c' : Controller} {node : Nat} {slots slots' : List Nat}
    (hmap : c'.slotMap = c.slotMap) (hnodes : c'.nodeCount = c.nodeCount)
    (h : ∀ s, s ∈ slots' ↔ s ∈ slots) :
    (c'.withdrawSlots node slots').slotMap = (c.withdrawSlots node slots).slotMap := by
  refine List.ext_getElem? fun k => ?_
  simp only [getElem?_withdrawSlots, hmap, hnodes, h]

theorem withdrawSlots_append (c : Controller) (node : Nat) (slots slots' : List Nat) :
    c.withdrawSlots node (slots ++ slots') = (c.withdrawSlots node slots).withdrawSlots node slots' :=
  List.foldl_append

end SlotNet.Controller
