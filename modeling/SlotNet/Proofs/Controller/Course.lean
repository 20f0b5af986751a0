import SlotNet.Proofs.Controller.Merging
import SlotNet.Proofs.Controller.Reservation

/-!
# The course of the frames

What the beginning of a frame and of a slot do to claims and entitlements, and the shape (`Shaped`)
that the first controller has and every operation keeps.
-/

namespace SlotNet.Controller

/-! ## The control slots -/

theorem rotateRight_perm {α : Type} (l : List α) (n : Nat) : (l.rotateRight n).Perm l := by
  unfold List.rotateRight
  dsimp only
  split
  · exact .refl l
  · exact List.perm_append_comm.trans (.of_eq (List.take_append_drop _ l))

theorem mapRuns_perm {α : Type} (n : Nat) {f : List α → List α} (hf : ∀ l, (f l).Perm l)
    (l : List α) : (mapRuns n f l).Perm l := by
  fun_induction mapRuns n f l with
  | case1 => exact .refl _
  | case2 x xs ih =>
    refine ((hf _).append ih).trans ?_
    rw [List.cons_append, List.take_append_drop]

theorem rotateOrder_perm (order : List Nat) : (rotateOrder order).Perm order := by
  fun_cases rotateOrder order with
  | case1 first second rest groups blocks whole turned =>
    have hblocks : blocks.Perm (second :: rest) :=
      (mapRuns_perm 20 (fun l => rotateRight_perm l 3) groups).trans
        (mapRuns_perm 2 (fun l => rotateRight_perm l 1) (second :: rest))
    have hturned : turned.Perm blocks := by
      show (if _ then _ else _ : List Nat).Perm blocks
      split
      · refine ((rotateRight_perm _ 21).append (.refl _)).trans ?_
        rw [List.take_append_drop]
      · exact .refl _
    exact (hturned.trans hblocks).cons first
  | case2 => exact .refl _

/-- Every node has a row of claims for each slot, and every slot of the frame is in the slot map. -/
structure Shaped (c : Controller) : Prop where
  claims : c.claims.Shaped c.nodeCount c.layout.dataSlots
  totalSlots : c.totalSlots = c.nodeCount + c.layout.dataSlots
  controlOrder : c.controlOrder.length = c.nodeCount

theorem SameFrame.shaped {c c' : Controller} (h : SameFrame c c') (hc : c.Shaped)
    (hcl : c'.claims.Shaped c.nodeCount c.layout.dataSlots) : c'.Shaped := by
  refine ⟨?_, ?_, ?_⟩
  · rw [h.nodeCount, h.layout]; exact hcl
  · rw [h.totalSlots, h.nodeCount, h.layout]; exact hc.totalSlots
  · rw [h.controlOrder, h.nodeCount]; exact hc.controlOrder

theorem Shaped.reserved {c : Controller} (hc : c.Shaped) (node : Nat) :
    (c.reserved node).Shaped := by
  refine (sameFrame_reserved c node).shaped hc ?_
  rw [Controller.reserved, claims_grantSlots, markChosen_eq]
  exact shaped_markAll (c := { c with chosen := [] }) hc.claims node _

theorem Shaped.merge {c : Controller} (hc : c.Shaped) (message : List UInt8) (observer : Nat) :
    (c.merge message observer).1.Shaped :=
  (sameFrame_merge c message observer).shaped hc (shaped_merge hc.claims message observer)

/-! ## The course of a frame -/

theorem Shaped.le_length {c : Controller} (hc : c.Shaped) : c.nodeCount ≤ c.slotMap.length := by
  have h : c.slotMap.length = c.nodeCount + c.layout.dataSlots := hc.totalSlots
  omega

theorem granted_iff_drop (c : Controller) (d n : Nat) :
    c.Granted d n ↔ n ∈ (c.slotMap.drop c.nodeCount).getD d [] := by
  rw [Granted, entitled, List.getD_eq_getElem?_getD, List.getD_eq_getElem?_getD,
    List.getElem?_drop]

theorem drop_rotateControl {c : Controller} (hc : c.Shaped) :
    c.rotateControl.slotMap.drop c.nodeCount = c.slotMap.drop c.nodeCount := by
  have hl : (rotateOrder c.controlOrder).length = c.nodeCount := by
    rw [(rotateOrder_perm _).length_eq, hc.controlOrder]
  show ((rotateOrder c.controlOrder).map _ ++ c.slotMap.drop c.nodeCount).drop c.nodeCount = _
  rw [List.drop_append, List.drop_eq_nil_of_le (by simp [hl]), List.length_map, hl,
    Nat.sub_self]
  rfl

theorem Shaped.rotateControl {c : Controller} (hc : c.Shaped) : c.rotateControl.Shaped := by
  have hl : (rotateOrder c.controlOrder).length = c.nodeCount := by
    rw [(rotateOrder_perm _).length_eq, hc.controlOrder]
  refine ⟨hc.claims, ?_, hl⟩
  show ((rotateOrder c.controlOrder).map _ ++ c.slotMap.drop c.nodeCount).length = _
  have ht : c.slotMap.length = c.nodeCount + c.layout.dataSlots := hc.totalSlots
  rw [List.length_append, List.length_map, List.length_drop, hl, ht]
  show _ = c.nodeCount + c.layout.dataSlots
  omega

/-- The controller when nobody may send in a data slot yet. -/
def cleared (c : Controller) : Controller :=
  { c with slotMap := c.slotMap.take c.nodeCount ++ (c.slotMap.drop c.nodeCount).map fun _ => [] }

theorem drop_cleared {c : Controller} (hc : c.Shaped) :
    c.cleared.slotMap.drop c.nodeCount = (c.slotMap.drop c.nodeCount).map fun _ => [] := by
  show (c.slotMap.take c.nodeCount ++ _).drop c.nodeCount = _
  rw [List.drop_append, List.length_take, Nat.min_eq_left hc.le_length, Nat.sub_self,
    List.drop_eq_nil_of_le (List.length_take_le _ _)]
  rfl

theorem Shaped.cleared {c : Controller} (hc : c.Shaped) : c.cleared.Shaped := by
  refine ⟨hc.claims, ?_, hc.controlOrder⟩
  refine Eq.trans ?_ hc.totalSlots
  show (c.slotMap.take c.nodeCount ++ (c.slotMap.drop c.nodeCount).map _).length = c.slotMap.length
  rw [List.length_append, List.length_map, ← List.length_append, List.take_append_drop]

theorem not_granted_cleared {c : Controller} (hc : c.Shaped) (d n : Nat) :
    ¬ c.cleared.Granted d n := by
  rw [granted_iff_drop]
  show n ∉ (c.cleared.slotMap.drop c.nodeCount).getD d []
  rw [drop_cleared hc, List.getD_eq_getElem?_getD, List.getElem?_map]
  cases (c.slotMap.drop c.nodeCount)[d]? <;> simp

theorem beginFrame_eq (c : Controller) :
    c.beginFrame = { c.cleared with frameIndex := c.frameIndex + 1 } ∨
      c.beginFrame = { c.cleared.rotateControl with frameIndex := c.frameIndex + 1 } := by
  unfold beginFrame
  dsimp only
  split
  · exact .inr rfl
  · exact .inl rfl

/-- What the beginning of a frame leaves as it is. -/
structure BeginsFrom (c c' : Controller) : Prop where
  layout : c'.layout = c.layout
  nodeCount : c'.nodeCount = c.nodeCount
  rules : c'.rules = c.rules
  claims : c'.claims = c.claims
  frameIndex : c'.frameIndex = c.frameIndex + 1

theorem beginsFrom_beginFrame (c : Controller) : BeginsFrom c c.beginFrame := by
  rcases beginFrame_eq c with h | h <;> rw [h] <;> exact ⟨rfl, rfl, rfl, rfl, rfl⟩

theorem Shaped.beginFrame {c : Controller} (hc : c.Shaped) : c.beginFrame.Shaped := by
  rcases beginFrame_eq c with h | h <;> rw [h]
  · exact ⟨hc.claims, hc.cleared.totalSlots, hc.controlOrder⟩
  · exact ⟨hc.claims, hc.cleared.rotateControl.totalSlots, hc.cleared.rotateControl.controlOrder⟩

theorem not_granted_beginFrame {c : Controller} (hc : c.Shaped) (d n : Nat) :
    ¬ c.beginFrame.Granted d n := by
  rcases beginFrame_eq c with h | h <;> rw [h]
  · exact not_granted_cleared hc d n
  · rw [granted_iff_drop]
    show n ∉ (c.cleared.rotateControl.slotMap.drop c.cleared.nodeCount).getD d []
    rw [drop_rotateControl hc.cleared, ← granted_iff_drop]
    exact not_granted_cleared hc d n

/-! ## The course of the slots -/

theorem sameFrame_openSlot (c : Controller) (slot : Nat) : SameFrame c (c.openSlot slot) := by
  unfold openSlot
  split <;> exact ⟨rfl, rfl, rfl, rfl, rfl, rfl⟩

theorem openSlot_of_ne {c : Controller} {slot : Nat} (h : slot ≠ c.nodeCount) :
    c.openSlot slot = c := if_neg h

theorem claims_openSlot_nodeCount (c : Controller) :
    (c.openSlot c.nodeCount).claims = c.claims.rotate := by
  rw [openSlot, if_pos rfl]

theorem granted_openSlot (c : Controller) (slot d n : Nat) :
    (c.openSlot slot).Granted d n ↔ c.Granted d n := by
  unfold openSlot
  split <;> rfl

theorem Shaped.openSlot {c : Controller} (hc : c.Shaped) (slot : Nat) :
    (c.openSlot slot).Shaped := by
  refine (sameFrame_openSlot c slot).shaped hc ?_
  unfold Controller.openSlot
  split
  · exact hc.claims.rotate
  · exact hc.claims

/-! ## Starting and taking rewards -/

theorem eq_of_start {c c' : Controller} {events events' : EventQueue Event} {done : Bool}
    (h : c.start events = .ok (done, c', events')) : ∃ started, c' = { c with started } := by
  unfold start at h
  split at h
  · cases h
    exact ⟨c.started, rfl⟩
  · obtain ⟨⟨id, later⟩, -, h⟩ := Fault.map_eq_ok.1 h
    cases h
    exact ⟨true, rfl⟩

theorem takeReward_eq (c : Controller) (node : Nat) :
    ∃ rewards, (c.takeReward node).2 = { c with rewards } := by
  unfold takeReward
  split
  · exact ⟨_, rfl⟩
  · exact ⟨c.rewards, rfl⟩

/-! ## The first controller -/

/-- Before the first frame nothing is claimed and nobody may send in a data slot. -/
structure Fresh (c : Controller) : Prop where
  shaped : c.Shaped
  free : ∀ g n d claim, c.claims.get g n d = some claim → claim = .free
  not_granted : ∀ d n, ¬ c.Granted d n
  chosen : c.chosen = []
  frameIndex : c.frameIndex = 0

theorem ofConfig_ok {config : Config} {c : Controller} (h : ofConfig config = .ok c) :
    c.layout = config.frame ∧ c.nodeCount = config.nodeCount ∧ c.rules = config.reservation ∧
      Fresh c := by
  obtain ⟨total, claims, ht, hcl, -, -, rfl⟩ := ofConfig_eq_ok_iff.1 h
  have htotal := (Count.add_eq_ok ht).1
  obtain ⟨hshaped, hfree⟩ := ClaimTable.shaped_new hcl
  refine ⟨rfl, rfl, rfl, ⟨hshaped, ?_, List.length_range⟩, hfree, fun d n => ?_, rfl, rfl⟩
  · show ((List.range config.nodeCount).map _ ++
      (List.replicate total []).drop config.nodeCount).length = _
    rw [List.length_append, List.length_map, List.length_range, List.length_drop,
      List.length_replicate, htotal]
    show _ = config.nodeCount + config.frame.dataSlots
    omega
  · rw [granted_iff_drop]
    show n ∉ (((List.range config.nodeCount).map _ ++
      (List.replicate total []).drop config.nodeCount).drop config.nodeCount).getD d []
    rw [List.drop_append, List.drop_eq_nil_of_le (by simp), List.length_map, List.length_range,
      Nat.sub_self, List.nil_append, List.drop_zero, List.drop_replicate,
      List.getD_eq_getElem?_getD, List.getElem?_replicate]
    split <;> simp

end SlotNet.Controller
