import SlotNet.Proofs.ClaimTable
import SlotNet.Proofs.Controller.Entitlement

/-!
# What a reservation does

* `reserve_ok`: a reservation puts the node's message on the air and leaves `reserved`;
* `get_reserved`, `granted_reserved`: the choices that count are own claims, and the node may send
  where it claims in both generations.
-/

namespace SlotNet.Controller

/-! ## Choices -/

theorem mem_eraseReps {l : List Nat} {x : Nat} : x ∈ l.eraseReps ↔ x ∈ l := by
  have hloop : ∀ (as acc : List Nat) (a : Nat),
      x ∈ List.eraseRepsBy.loop (· == ·) a as acc ↔ x = a ∨ x ∈ as ∨ x ∈ acc := by
    intro as
    induction as with
    | nil =>
      intro acc a
      simp [List.eraseRepsBy.loop, or_comm]
    | cons b as ih =>
      intro acc a
      rw [List.eraseRepsBy.loop]
      split
      · rename_i heq
        obtain rfl := eq_of_beq heq
        rw [ih, List.mem_cons, ← or_assoc, ← or_assoc, ← or_assoc, or_self]
      · rw [ih, List.mem_cons, List.mem_cons]
        grind
  cases l with
  | nil => exact Iff.rfl
  | cons a as =>
    refine (hloop as [] a).trans ?_
    rw [List.mem_cons, or_iff_left (List.not_mem_nil)]

theorem mem_of_mem_effective {dataSlots most slot : Nat} {chosen : List Nat}
    (h : slot ∈ effective dataSlots most chosen) : slot ∈ chosen ∧ slot < dataSlots := by
  have hs := mem_eraseReps.1 (List.mem_of_mem_take h)
  rw [List.mem_mergeSort, List.mem_filter] at hs
  exact ⟨hs.1, by simpa using hs.2⟩

theorem chooseAll_eq (c : Controller) (slots : List Nat) :
    slots.foldl choose c = { c with chosen := c.chosen ++ slots } := by
  induction slots generalizing c with
  | nil => rw [List.append_nil]; rfl
  | cons slot slots ih =>
    rw [List.foldl_cons, ih, choose, List.append_assoc]
    rfl

/-- The choices that count at the next reservation. -/
def choices (c : Controller) : List Nat :=
  effective c.layout.dataSlots c.rules.maxSlotsPerAction c.chosen

theorem mark_eq (node : Nat) (c : Controller) (choice : Nat × Nat) :
    ∃ rewards, mark node c choice
      = { c with claims := c.claims.set .current node choice.1 (.own node), rewards } := by
  obtain ⟨slot, place⟩ := choice
  simp only [mark]
  cases h : c.claims.get .current node slot with
  | none => exact ⟨c.rewards, by rw [ClaimTable.set_eq_self h]⟩
  | some existing => exact ⟨_, rfl⟩

theorem sameFrame_mark (node : Nat) (c : Controller) (choice : Nat × Nat) :
    SameFrame c (mark node c choice) := by
  obtain ⟨rewards, h⟩ := mark_eq node c choice
  rw [h]
  exact ⟨rfl, rfl, rfl, rfl, rfl, rfl⟩

@[simp] theorem slotMap_mark (node : Nat) (c : Controller) (choice : Nat × Nat) :
    (mark node c choice).slotMap = c.slotMap := by
  obtain ⟨rewards, h⟩ := mark_eq node c choice
  rw [h]

@[simp] theorem claims_mark (node : Nat) (c : Controller) (choice : Nat × Nat) :
    (mark node c choice).claims = c.claims.set .current node choice.1 (.own node) := by
  obtain ⟨rewards, h⟩ := mark_eq node c choice
  rw [h]

/-- Makes some choices, in order, the node's own claims. -/
def markAll (c : Controller) (node : Nat) (choices : List (Nat × Nat)) : Controller :=
  choices.foldl (mark node) c

theorem sameFrame_markAll (c : Controller) (node : Nat) (choices : List (Nat × Nat)) :
    SameFrame c (c.markAll node choices) := by
  induction choices generalizing c with
  | nil => exact .refl c
  | cons x choices ih => exact (sameFrame_mark node c x).trans (ih _)

@[simp] theorem slotMap_markAll (c : Controller) (node : Nat) (choices : List (Nat × Nat)) :
    (c.markAll node choices).slotMap = c.slotMap := by
  induction choices generalizing c with
  | nil => rfl
  | cons x choices ih => exact (ih _).trans (slotMap_mark node c x)

theorem get_markAll (c : Controller) (node : Nat) (choices : List (Nat × Nat)) (g : Generation)
    (n d : Nat) :
    (c.markAll node choices).claims.get g n d
      = if g = .current ∧ n = node ∧ d ∈ choices.map (·.1)
        then (c.claims.get .current node d).map fun _ => .own node
        else c.claims.get g n d := by
  induction choices generalizing c with
  | nil => simp [markAll]
  | cons x choices ih =>
    show ((mark node c x).markAll node choices).claims.get g n d = _
    rw [ih, claims_mark, ClaimTable.get_set, ClaimTable.get_set]
    by_cases hg : g = .current ∧ n = node
    · obtain ⟨rfl, rfl⟩ := hg
      simp only [true_and, List.map_cons, List.mem_cons]
      by_cases hd : d = x.1
      · subst hd
        cases c.claims.get .current n x.1 <;> simp
      · simp only [hd, false_or, if_false]
    · have hg' : ∀ P : Prop, ¬ (g = .current ∧ n = node ∧ P) := fun P h => hg ⟨h.1, h.2.1⟩
      simp only [if_neg (hg' _)]

theorem shaped_markAll {nodes slots : Nat} {c : Controller} (h : c.claims.Shaped nodes slots)
    (node : Nat) (choices : List (Nat × Nat)) :
    (c.markAll node choices).claims.Shaped nodes slots := by
  induction choices generalizing c with
  | nil => exact h
  | cons x choices ih =>
    refine ih (c := mark node c x) ?_
    rw [claims_mark]
    exact h.set _ _ _ _

theorem markChosen_eq (c : Controller) (node : Nat) :
    c.markChosen node = ({ c with chosen := [] } : Controller).markAll node c.choices.zipIdx := rfl

theorem sameFrame_markChosen (c : Controller) (node : Nat) :
    SameFrame c (c.markChosen node) := by
  have h := sameFrame_markAll { c with chosen := [] } node c.choices.zipIdx
  rw [← markChosen_eq] at h
  exact ⟨h.layout, h.nodeCount, h.rules, h.frameIndex, h.controlOrder, h.totalSlots⟩

theorem get_markChosen (c : Controller) (node : Nat) (g : Generation) (n d : Nat) :
    (c.markChosen node).claims.get g n d
      = if g = .current ∧ n = node ∧ d ∈ c.choices
        then (c.claims.get .current node d).map fun _ => .own node
        else c.claims.get g n d := by
  rw [markChosen_eq, get_markAll, List.zipIdx_map_fst]

theorem granted_markChosen (c : Controller) (node d n : Nat) :
    (c.markChosen node).Granted d n ↔ c.Granted d n := by
  rw [Granted, Granted, entitled, entitled, (sameFrame_markChosen c node).nodeCount, markChosen_eq,
    slotMap_markAll]

/-! ## Reservation -/

theorem mem_standing {node slot s : Nat} {previous current : List Claim} :
    s ∈ standing node slot previous current
      ↔ ∃ d p q, s = slot + d ∧ previous[d]? = some p ∧ current[d]? = some q
        ∧ p.isOwnedBy node = true ∧ q.isOwnedBy node = true := by
  induction previous generalizing slot current with
  | nil => simp [standing]
  | cons p previous ih =>
    cases current with
    | nil => simp [standing]
    | cons q current =>
      have hlater : s ∈ standing node (slot + 1) previous current
          ↔ ∃ d p q, s = slot + (d + 1) ∧ previous[d]? = some p ∧ current[d]? = some q
            ∧ p.isOwnedBy node = true ∧ q.isOwnedBy node = true := by
        rw [ih]
        simp only [Nat.add_assoc, Nat.add_comm 1]
      constructor
      · intro h
        rw [standing] at h
        split at h
        · rename_i ho
          rcases List.mem_cons.1 h with rfl | h
          · exact ⟨0, p, q, rfl, rfl, rfl, by simpa using ho⟩
          · obtain ⟨d, x, y, hd⟩ := hlater.1 h
            exact ⟨d + 1, x, y, hd⟩
        · obtain ⟨d, x, y, hd⟩ := hlater.1 h
          exact ⟨d + 1, x, y, hd⟩
      · rintro ⟨d, x, y, hs, hx, hy, ho⟩
        rw [standing]
        cases d with
        | zero =>
          cases hx
          cases hy
          rw [if_pos (by simpa using ho)]
          exact List.mem_cons.2 (.inl hs)
        | succ d =>
          have h := hlater.2 ⟨d, x, y, hs, hx, hy, ho⟩
          split
          · exact List.mem_cons_of_mem _ h
          · exact h

/-- The slots in which a node may send after its reservation, given its two rows. -/
def stand (c : Controller) (node : Nat) : List Nat :=
  match c.claims.row .previous node, c.claims.row .current node with
  | some previous, some current => standing node 0 previous current
  | _, _ => []

theorem mem_stand {c : Controller} {node d : Nat} :
    d ∈ c.stand node
      ↔ ∃ p q, c.claims.get .previous node d = some p ∧ c.claims.get .current node d = some q
        ∧ p.isOwnedBy node = true ∧ q.isOwnedBy node = true := by
  unfold stand ClaimTable.get
  cases c.claims.row .previous node with
  | none => simp
  | some previous =>
    cases c.claims.row .current node with
    | none => simp
    | some current =>
      simp only [Option.bind_some, mem_standing, Nat.zero_add]
      constructor
      · rintro ⟨s, p, q, rfl, h⟩
        exact ⟨p, q, h⟩
      · rintro ⟨p, q, h⟩
        exact ⟨d, p, q, rfl, h⟩

/-- The controller after a reservation of a node. -/
def reserved (c : Controller) (node : Nat) : Controller :=
  (c.markChosen node).grantSlots node ((c.markChosen node).stand node)

/-- The status message that a node broadcasts when it reserves. -/
def status (c : Controller) (node : Nat) : Option (List UInt8) :=
  match (c.markChosen node).claims.row .previous node,
    (c.markChosen node).claims.row .current node with
  | some previous, some current => some (StatusMessage.encode
      (previous.map (Claim.advertised node)) (current.map (Claim.advertised node)))
  | _, _ => none

/-- A reservation leaves `reserved`. What it puts on the air from the node is its status message and
nothing else; an unknown node puts nothing on the air. -/
theorem reserve_ok {c c' : Controller} {m m' : Medium} {node : Nat} {o : TransmitOutcome}
    (h : c.reserve m node = .ok (c', m', o)) :
    c' = c.reserved node ∧
      match c.status node with
      | some message => ∃ stats, ∃ frame : Frame,
          frame.kind = .reservation ∧ frame.uid = m.nextUid ∧ frame.receiver = .broadcast ∧
          frame.payload = .bytes message ∧
          Medium.transmit { m with nextUid := m.nextUid + 1, stats } node frame = .ok (m', o)
      | none => m' = m := by
  unfold reserve at h
  unfold reserved stand status
  cases hp : (c.markChosen node).claims.row .previous node with
  | none =>
    simp only [hp] at h
    cases h
    exact ⟨rfl, rfl⟩
  | some previous =>
    cases hq : (c.markChosen node).claims.row .current node with
    | none =>
      simp only [hp, hq] at h
      cases h
      exact ⟨rfl, rfl⟩
    | some current =>
      simp only [hp, hq, Fault.bind_eq_ok] at h
      obtain ⟨stats, h1, stats', h2, ⟨m'', o'⟩, h3, h4⟩ := h
      cases h4
      exact ⟨rfl, stats', _, rfl, rfl, rfl, rfl, h3⟩

theorem sameFrame_reserved (c : Controller) (node : Nat) : SameFrame c (c.reserved node) :=
  (sameFrame_markChosen c node).trans (sameFrame_grantSlots _ node _)

theorem get_reserved (c : Controller) (node : Nat) (g : Generation) (n d : Nat) :
    (c.reserved node).claims.get g n d
      = if g = .current ∧ n = node ∧ d ∈ c.choices
        then (c.claims.get .current node d).map fun _ => .own node
        else c.claims.get g n d := by
  rw [reserved, claims_grantSlots, get_markChosen]

theorem granted_reserved (c : Controller) (node d n : Nat) :
    (c.reserved node).Granted d n
      ↔ c.Granted d n ∨ (n = node ∧ c.nodeCount + d < c.totalSlots ∧
        ∃ p q, (c.reserved node).claims.get .previous node d = some p ∧
          (c.reserved node).claims.get .current node d = some q ∧
          p.isOwnedBy node = true ∧ q.isOwnedBy node = true) := by
  have hs := sameFrame_markChosen c node
  rw [reserved, granted_grantSlots, granted_markChosen, mem_stand, hs.nodeCount, hs.totalSlots,
    claims_grantSlots, and_comm (b := c.nodeCount + d < c.totalSlots)]

end SlotNet.Controller
