import SlotNet.Proofs.Provenance

/-!
# Speaking and hearing in an exchange

What a reservation (`Reserves`) and a message that arrives (`Hears`) do to the views of the nodes,
said of one exchange of messages: this is all that is needed to follow a slot through a frame.
-/

namespace SlotNet

/-- What a message tells about a slot in a generation. -/
def Sent.tells (t : Sent) (slots : Nat) (g : Generation) (slot : Nat) : Option Claim :=
  match StatusMessage.decode t.message slots with
  | .ok m => Controller.about m g slot
  | .error _ => none

namespace Exchange

def view (s : Exchange) (g : Generation) (node slot : Nat) : Option Claim :=
  s.controller.claims.get g node slot

def tells (s : Exchange) (t : Sent) (g : Generation) (slot : Nat) : Option Claim :=
  t.tells s.controller.layout.dataSlots g slot

/-- What all acts in the control slots leave as it is. -/
structure SamePhase (s s' : Exchange) : Prop where
  slot : s'.slot = s.slot
  nodeCount : s'.controller.nodeCount = s.controller.nodeCount
  frameIndex : s'.controller.frameIndex = s.controller.frameIndex
  layout : s'.controller.layout = s.controller.layout
  rules : s'.controller.rules = s.controller.rules

/-- A node reserves, and its message is `t`. -/
structure Reserves (s s' : Exchange) (node : Nat) (t : Sent) : Prop extends SamePhase s s' where
  inControl : s.inControl = true
  sender : t.sender = node
  sent : s'.sent = s.sent ++ [t]
  handed : s'.handed = s.handed
  tells : ∀ g d, s'.tells t g d = (s'.view g node d).map (Claim.advertised node)
  previous : ∀ n d, s'.view .previous n d = s.view .previous n d
  others : ∀ n d, n ≠ node → s'.view .current n d = s.view .current n d
  current : ∀ d, s'.view .current node d = s.view .current node d ∨
    s'.view .current node d = some (.own node)
  history : ∀ f n d, (⟨f, n, d⟩ : Choice) ∈ s'.history → ⟨f, n, d⟩ ∈ s.history ∨
    (f = s.controller.frameIndex ∧ n = node ∧ s'.view .current node d = some (.own node))
  granted : ∀ d n, s'.controller.Granted d n → s.controller.Granted d n ∨
    (n = node ∧ ∃ p q, s'.view .previous node d = some p ∧ s'.view .current node d = some q ∧
      p.isOwnedBy node = true ∧ q.isOwnedBy node = true)

/-- A node hears the message at a place. -/
structure Hears (adj : Nat → Nat → Bool) (s s' : Exchange) (place observer : Nat) (t : Sent) : Prop
    extends SamePhase s s' where
  inControl : s.inControl = true
  message : s.sent[place]? = some t
  adjacent : adj t.sender observer = true
  sent : s'.sent = s.sent
  handed : s'.handed = (place, observer) :: s.handed
  history : s'.history = s.history
  others : ∀ g n d, n ≠ observer → s'.view g n d = s.view g n d
  view : ∀ g d, s'.view g observer d = (s.view g observer d).map
    (Controller.resolved s.controller.rules.priorityThreshold observer · (s.tells t g d))
  granted : ∀ d n, s'.controller.Granted d n ↔ s.controller.Granted d n ∧
    ¬ (n = observer ∧ ∃ g held, s.view g observer d = some held ∧
      Controller.verdict s.controller.rules.priorityThreshold observer held (s.tells t g d) = .yield)

variable {adj : Nat → Nat → Bool} {s s' : Exchange}

theorem SamePhase.inControl_eq (h : SamePhase s s') : s'.inControl = s.inControl := by
  simp only [inControl, h.slot, h.nodeCount]

theorem SamePhase.frameOf_eq (h : SamePhase s s') (g : Generation) : s'.frameOf g = s.frameOf g := by
  cases g <;> simp only [frameOf, h.inControl_eq, h.frameIndex]

theorem SamePhase.tells_eq (h : SamePhase s s') (t : Sent) (g : Generation) (d : Nat) :
    s'.tells t g d = s.tells t g d := by
  simp only [Exchange.tells, h.layout]

theorem reserves_of_step (h : Provenance adj s) {m : Medium} {node : Nat}
    (hn : node < s.controller.nodeCount) (hstep : s.step adj (.reserve m node) = some s') :
    ∃ t, Reserves s s' node t := by
  have hprov := h.reserve hstep
  obtain ⟨hcontrol, rfl⟩ := step_reserve hstep
  have hf := Controller.sameFrame_reserved s.controller node
  obtain ⟨message, hm⟩ := Controller.status_isSome h.shaped hn
  obtain ⟨w, hw, habout⟩ := Controller.decode_status hprov.relayable h.shaped hm
  have hmessages : s.messagesOf node = [⟨node, message⟩] := by
    rw [messagesOf, hm]
    rfl
  refine ⟨⟨node, message⟩, {
    slot := rfl, nodeCount := hf.nodeCount, frameIndex := hf.frameIndex,
    layout := hf.layout, rules := hf.rules, inControl := hcontrol, sender := rfl,
    sent := congrArg _ hmessages, handed := rfl, tells := ?_, previous := ?_, others := ?_,
    current := ?_, history := ?_, granted := ?_ }⟩
  · intro g d
    simp only [Exchange.tells, Sent.tells, hf.layout, hw]
    exact habout g d
  · intro n d
    exact (Controller.get_reserved _ _ _ _ _).trans (if_neg (by simp))
  · intro n d hne
    exact (Controller.get_reserved _ _ _ _ _).trans (if_neg (by simp [hne]))
  · intro d
    simp only [view, Controller.get_reserved]
    split
    · cases s.controller.claims.get .current node d with
      | none => exact .inl rfl
      | some held => exact .inr rfl
    · exact .inl rfl
  · intro f n d hmem
    refine (List.mem_append.1 hmem).imp id fun hmem => ?_
    obtain ⟨rfl, rfl, hd⟩ := mem_choicesOf.1 hmem
    refine ⟨rfl, rfl, ?_⟩
    obtain ⟨held, hheld⟩ := h.shaped.claims.get_eq_some .current hn
      (Controller.mem_of_mem_effective hd).2
    simp only [view, Controller.get_reserved, hd, and_self, if_true, hheld, Option.map_some]
  · intro d n hg
    refine ((Controller.granted_reserved _ _ _ _).1 hg).imp id fun hg => ?_
    exact ⟨hg.1, hg.2.2⟩

theorem hears_of_step (h : Provenance adj s) {place observer : Nat}
    (hstep : s.step adj (.hand place observer) = some s') :
    ∃ t, Hears adj s s' place observer t := by
  obtain ⟨hcontrol, t, ht, hadj, rfl⟩ := step_hand hstep
  obtain ⟨-, w, hw, -⟩ := h.sent t (List.mem_of_getElem? ht)
  have hf := Controller.sameFrame_merge s.controller t.message observer
  have htells : ∀ g d, s.tells t g d = Controller.about w g d := by
    intro g d
    simp only [Exchange.tells, Sent.tells, hw]
  refine ⟨t, {
    slot := rfl, nodeCount := hf.nodeCount, frameIndex := hf.frameIndex,
    layout := hf.layout, rules := hf.rules, inControl := hcontrol, message := ht,
    adjacent := hadj, sent := rfl, handed := rfl, history := rfl, others := ?_, view := ?_,
    granted := ?_ }⟩
  · intro g n d hne
    exact (Controller.get_merge h.shaped.claims hw observer g n d).trans (if_neg hne)
  · intro g d
    simp only [htells]
    exact (Controller.get_merge h.shaped.claims hw observer g observer d).trans (if_pos rfl)
  · intro d n
    simp only [htells]
    exact Controller.granted_merge h.shaped.claims hw observer d n

end Exchange

end SlotNet
