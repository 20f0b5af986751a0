import Mathlib.Data.List.Sort
import SlotNet.Proofs.Announcing
import SlotNet.Proofs.Controller.MergeOrder

/-!
# A reservation depends on the set of the choices

Of the slots that were chosen a node takes the smallest, each once (`effective_eq_smallest`), so neither their
order nor repetitions matter, nor slots that are not in the frame. `Takes` is all that taking them does to the
controller, and `reserve_eq` all that a reservation does: a known node leaves that behind and announces its
view; an unknown one only uses up the choices.
-/

namespace SlotNet.Controller

variable {c : Controller} {node : Nat}

/-! ## The smallest choices -/

/-- The smallest data slots among those chosen: each once, and not too many. -/
def smallest (dataSlots most : Nat) (chosen : List Nat) : List Nat :=
  ((List.range dataSlots).filter (· ∈ chosen)).take most

theorem effective_eq_smallest (dataSlots most : Nat) (chosen : List Nat) :
    effective dataSlots most chosen = smallest dataSlots most chosen := by
  have hrange : ((List.range dataSlots).filter (· ∈ chosen)).Pairwise (· < ·) :=
    List.pairwise_lt_range.filter _
  refine congrArg (List.take most) ((distinct_sorted _).eq_of_mem_iff hrange fun slot => ?_)
  simp [mem_eraseReps, and_comm]

theorem smallest_congr {dataSlots most : Nat} {chosen chosen' : List Nat}
    (h : ∀ slot < dataSlots, slot ∈ chosen' ↔ slot ∈ chosen) :
    smallest dataSlots most chosen' = smallest dataSlots most chosen := by
  refine congrArg (List.take most) (List.filter_congr fun slot hslot => ?_)
  rw [decide_eq_decide, h slot (List.mem_range.1 hslot)]

theorem markChosen_chooseAll (hempty : c.chosen = []) (node : Nat) (slots : List Nat) :
    (slots.foldl choose c).markChosen node
      = c.markAll node (smallest c.layout.dataSlots c.rules.maxSlotsPerAction slots).zipIdx := by
  have hsame : ({ slots.foldl choose c with chosen := [] } : Controller) = c := by
    rw [chooseAll_eq, ← hempty]
  have hchoices : (slots.foldl choose c).choices
      = smallest c.layout.dataSlots c.rules.maxSlotsPerAction slots := by
    rw [chooseAll_eq, choices, effective_eq_smallest, hempty]
    rfl
  rw [markChosen_eq, hsame, hchoices]

/-! ## What a reservation does -/

/-- A known node leaves `reserved` behind if its message can be announced. An unknown node has none. -/
theorem reserve_eq (c : Controller) (m : Medium) (node : Nat) :
    c.reserve m node = match c.status node with
      | some message => (m.announce node message).map fun sent => (c.reserved node, sent)
      | none => .ok (c.reserved node, m, ⟨0, 0⟩) := by
  unfold reserve status reserved stand
  dsimp only
  cases (c.markChosen node).claims.row .previous node with
  | none => rfl
  | some previous =>
    cases (c.markChosen node).claims.row .current node with
    | none => rfl
    | some current =>
      simp only [Medium.announce, statusFrame]
      generalize m.takeUid.2.stats.recordTransmission _ false = counted
      cases counted with
      | error fault => rfl
      | ok stats =>
        show (stats.recordReservation >>= _) = (stats.recordReservation >>= _).map _
        cases stats.recordReservation with
        | error fault => rfl
        | ok stats =>
          show (Medium.transmit _ node _ >>= _) = (Medium.transmit _ node _).map _
          cases Medium.transmit _ node _ <;> rfl

theorem reserve_congr {c' : Controller} (h : c'.markChosen node = c.markChosen node) (m : Medium) :
    c'.reserve m node = c.reserve m node ∧ c'.status node = c.status node := by
  unfold reserve status
  rw [h]
  exact ⟨rfl, rfl⟩

/-- Slots are taken by a node. In the current frame they are its own claims, and no other claim changes. For
each data slot that it then claims in both generations it is listed, and the lists do not change otherwise.
Its rewards fall for the slots that it saw claimed. All else is as before, and no choice is left. -/
structure Takes (c after : Controller) (node : Nat) (slots : List Nat) : Prop where
  claims : ∀ g n d, after.claims.get g n d =
    if g = .current ∧ n = node ∧ d ∈ slots then some (.own node) else c.claims.get g n d
  granted : ∀ d n, after.Granted d n ↔ c.Granted d n ∨
    n = node ∧ after.holds node .previous d = true ∧ after.holds node .current d = true
  listed : ∀ d, after.slotMap[c.nodeCount + d]? = c.slotMap[c.nodeCount + d]?.map fun nodes =>
    if after.holds node .previous d = true ∧ after.holds node .current d = true ∧ node ∉ nodes then
      nodes ++ [node]
    else nodes
  control : ∀ k < c.nodeCount, after.slotMap[k]? = c.slotMap[k]?
  others : ∀ n, n ≠ node → after.rewards[n]? = c.rewards[n]?
  earned : after.rewards[node]? = c.rewards[node]?.map fun row => row.mapIdx fun j r =>
    if slots[j]?.any (c.sees node) then r + c.rules.usedSlotPenalty else r
  rest : after = { c with
    claims := after.claims, slotMap := after.slotMap, rewards := after.rewards, chosen := [] }

theorem mem_stand_markChosen {d : Nat} : d ∈ (c.markChosen node).stand node ↔
    (c.reserved node).holds node .previous d = true ∧ (c.reserved node).holds node .current d = true := by
  rw [mem_stand, holds, holds, reserved, claims_grantSlots, Option.any_eq_true, Option.any_eq_true]
  constructor
  · rintro ⟨p, q, hp, hq, hown, hown'⟩
    exact ⟨⟨p, hp, hown⟩, q, hq, hown'⟩
  · rintro ⟨⟨p, hp, hown⟩, q, hq, hown'⟩
    exact ⟨p, q, hp, hq, hown, hown'⟩

theorem grantSlots_rest (c : Controller) (node : Nat) (slots : List Nat) :
    ∃ slotMap, c.grantSlots node slots = { c with slotMap } := by
  induction slots generalizing c with
  | nil => exact ⟨c.slotMap, rfl⟩
  | cons s slots ih => exact ih (c.addSlot (c.nodeCount + s) node)

theorem markAll_rest (c : Controller) (node : Nat) (choices : List (Nat × Nat)) :
    ∃ claims rewards, c.markAll node choices = { c with claims, rewards } := by
  induction choices generalizing c with
  | nil => exact ⟨c.claims, c.rewards, rfl⟩
  | cons x choices ih =>
    obtain ⟨rewards, hmark⟩ := mark_eq node c x
    obtain ⟨claims, rewards', hall⟩ := ih (mark node c x)
    refine ⟨claims, rewards', hall.trans ?_⟩
    rw [hmark]

theorem reserved_rest (c : Controller) (node : Nat) :
    ∃ claims slotMap rewards, c.reserved node = { c with claims, slotMap, rewards, chosen := [] } := by
  obtain ⟨claims, rewards, hmark⟩ := markAll_rest { c with chosen := [] } node c.choices.zipIdx
  obtain ⟨slotMap, hgrant⟩ := grantSlots_rest (c.markChosen node) node ((c.markChosen node).stand node)
  refine ⟨claims, slotMap, rewards, hgrant.trans ?_⟩
  rw [markChosen_eq, hmark]

theorem takes_reserved (hc : c.Shaped) (hn : node < c.nodeCount) :
    c.Takes (c.reserved node) node c.choices := by
  have hmap : (c.markChosen node).slotMap = c.slotMap := by
    rw [markChosen_eq, slotMap_markAll]
  have hframe := sameFrame_markChosen c node
  have hlists := getElem?_grantSlots (c.markChosen node) node ((c.markChosen node).stand node)
  rw [hmap, hframe.nodeCount] at hlists
  -- what the node claims in both generations is a slot of the frame, so there is a list for it
  have hplace : ∀ d, (c.reserved node).holds node .current d = true → c.nodeCount + d < c.totalSlots := by
    intro d hholds
    obtain ⟨x, hx, -⟩ := (Option.any_eq_true _ _).1 hholds
    have hd := ((hc.reserved node).claims.lt_of_get hx).2
    rw [(sameFrame_reserved c node).layout] at hd
    rw [hc.totalSlots]
    omega
  refine ⟨fun g n d => ?_, fun d n => ?_, fun d => ?_, fun k hk => ?_, fun n hne =>
    rewards_reserved_of_ne hne, ?_, ?_⟩
  · rw [get_reserved]
    split
    · rename_i hplace
      obtain ⟨x, hx⟩ := hc.claims.get_eq_some .current hn (mem_of_mem_effective hplace.2.2).2
      rw [hx, Option.map_some]
    · rfl
  · refine (granted_grantSlots _ node _ d n).trans ?_
    rw [granted_markChosen, mem_stand_markChosen, hframe.nodeCount, hframe.totalSlots]
    refine or_congr_right (and_congr_right fun _ => and_iff_left_of_imp fun h => hplace d h.2)
  · refine (hlists (c.nodeCount + d)).trans ?_
    simp only [mem_stand_markChosen, Nat.le_add_right, true_and, Nat.add_sub_cancel_left, and_assoc]
  · refine (hlists k).trans ?_
    simp [Nat.not_le_of_lt hk]
  · rw [getElem?_rewards_reserved]
    simp
  · obtain ⟨claims, slotMap, rewards, hrest⟩ := reserved_rest c node
    rw [hrest]

theorem reserved_of_unknown (hc : c.Shaped) (hn : c.nodeCount ≤ node) :
    c.reserved node = { c with chosen := [] } ∧ c.status node = none := by
  have hmark : ∀ choices : List (Nat × Nat), ∀ c' : Controller, c'.claims.row .current node = none →
      c'.markAll node choices = c' := by
    intro choices
    induction choices with
    | nil => exact fun c' _ => rfl
    | cons x choices ih =>
      intro c' hrow
      have hfirst : mark node c' x = c' := by
        simp only [mark, ClaimTable.get, hrow, Option.bind_none]
      show (mark node c' x).markAll node choices = c'
      rw [hfirst, ih c' hrow]
  have hrow := hc.claims.row_eq_none .current hn
  have hmarked : c.markChosen node = { c with chosen := [] } := hmark _ _ hrow
  have hprevious := hc.claims.row_eq_none .previous hn
  constructor
  · rw [reserved, stand, hmarked]
    simp only [hprevious]
    rfl
  · rw [status, hmarked]
    simp only [hprevious]

/-! ## In any order -/

/-- With no choice pending, it only matters which slots of the frame are chosen for a reservation, and no
choice is left by it. An unknown node changes nothing. A known node takes the smallest of the slots and announces
its view, which only fails where the counters or the clock have no room for it. -/
theorem reserves_smallest {config : Config} {c : Controller} (hc : Reachable config c)
    (hempty : c.chosen = []) (m : Medium) (node : Nat) {slots slots' : List Nat}
    (hsame : ∀ slot < c.layout.dataSlots, slot ∈ slots' ↔ slot ∈ slots) :
    (slots'.foldl choose c).reserve m node = (slots.foldl choose c).reserve m node ∧
    (slots'.foldl choose c).status node = (slots.foldl choose c).status node ∧
    (c.nodeCount ≤ node → (slots.foldl choose c).reserve m node = .ok (c, m, ⟨0, 0⟩)) ∧
    (node < c.nodeCount → ∃ after message, (slots.foldl choose c).status node = some message ∧
      (slots.foldl choose c).reserve m node = (m.announce node message).map (fun sent => (after, sent)) ∧
      (m.HasRoom (message.length + Frame.overhead) →
        ∃ sent, (slots.foldl choose c).reserve m node = .ok (after, sent)) ∧
      c.Takes after node (smallest c.layout.dataSlots c.rules.maxSlotsPerAction slots)) := by
  have hshaped := hc.shaped
  have hmarked : (slots'.foldl choose c).markChosen node = (slots.foldl choose c).markChosen node := by
    rw [markChosen_chooseAll hempty, markChosen_chooseAll hempty, smallest_congr hsame]
  obtain ⟨hreserve, hstatus⟩ := reserve_congr hmarked m
  have hshaped' : (slots.foldl choose c).Shaped := (hc.chooseAll slots).shaped
  have hchoose : slots.foldl choose c = { c with chosen := slots } := by
    rw [chooseAll_eq, hempty, List.nil_append]
  have hnodes : (slots.foldl choose c).nodeCount = c.nodeCount := by rw [hchoose]
  refine ⟨hreserve, hstatus, fun hn => ?_, fun hn => ?_⟩
  · obtain ⟨hreserved, hnone⟩ := reserved_of_unknown hshaped' (hnodes.symm ▸ hn)
    rw [reserve_eq, hnone, hreserved, hchoose, ← hempty]
  · obtain ⟨message, hmessage⟩ := status_isSome hshaped' (hnodes.symm ▸ hn)
    have htakes := takes_reserved hshaped' (hnodes.symm ▸ hn)
    have hsends : (slots.foldl choose c).reserve m node
        = (m.announce node message).map fun sent => ((slots.foldl choose c).reserved node, sent) := by
      rw [reserve_eq, hmessage]
    refine ⟨(slots.foldl choose c).reserved node, message, hmessage, hsends, fun hroom => ?_, ?_⟩
    · obtain ⟨sent, hsent⟩ := m.announce_of_room node hroom
      exact ⟨sent, by rw [hsends, hsent]; rfl⟩
    · rw [choices, effective_eq_smallest] at htakes
      rw [hchoose] at htakes ⊢
      exact ⟨htakes.claims, htakes.granted, htakes.listed, htakes.control, htakes.others, htakes.earned,
        htakes.rest⟩

/-- Node 1 held slot 0 in the frame before, and node 2 has slot 1 now. -/
def halfTaken (c : Controller) : Controller :=
  (c.merge (StatusMessage.encode [.own 1, .free, .free, .free] [.free, ⟨1, 2⟩, .free, .free]) 1).1

def silence : Medium :=
  { events := .empty, channel := .new 250.0, positions := [], routes := ⟨[]⟩, stats := {}, nextUid := 0
    dataRate := 1000000 }

theorem reserves_smallest_halfTaken : ∃ c after message sent, ofConfig Config.wideRow = .ok c ∧
    Reachable Config.wideRow (halfTaken c) ∧ (halfTaken c).chosen = [] ∧ 1 < (halfTaken c).nodeCount ∧
    ([0, 1].foldl choose (halfTaken c)).reserve silence 1 = .ok (after, sent) ∧
    ([1, 9, 0, 1].foldl choose (halfTaken c)).reserve silence 1 = .ok (after, sent) ∧
    ([1, 9, 0, 1].foldl choose (halfTaken c)).status 1 = some message ∧
    (halfTaken c).Takes after 1 [0, 1] ∧
    after.Granted 0 1 ∧ ¬ after.Granted 1 1 := by
  obtain ⟨c, hc⟩ : ∃ c, ofConfig Config.wideRow = .ok c := ⟨_, rfl⟩
  have hreachable : Reachable Config.wideRow (halfTaken c) := (Reachable.new hc).merge _ 1
  have hempty : (halfTaken c).chosen = [] := by
    cases hc
    decide +kernel
  have hlayout : (halfTaken c).layout.dataSlots = 4 := by
    cases hc
    decide +kernel
  have hmost : (halfTaken c).rules.maxSlotsPerAction = 3 := by
    cases hc
    decide +kernel
  have hnode : 1 < (halfTaken c).nodeCount := by
    cases hc
    decide +kernel
  have hsame : ∀ slot < (halfTaken c).layout.dataSlots, slot ∈ [1, 9, 0, 1] ↔ slot ∈ [0, 1] := by
    rw [hlayout]
    decide
  obtain ⟨hreserve, hstatus, -, hknown⟩ := reserves_smallest hreachable hempty silence 1 hsame
  obtain ⟨after, message, hmessage, -, hroom, htakes⟩ := hknown hnode
  have hsmallest : smallest 4 3 [0, 1] = [0, 1] := by decide
  rw [hlayout, hmost, hsmallest] at htakes
  have hviews : ([0, 1].foldl choose (halfTaken c)).status 1 = some (StatusMessage.encode
      [.own 1, .free, .free, .free] [.own 1, .own 1, .free, .free]) := by
    rw [status, markChosen_chooseAll hempty, hlayout, hmost, hsmallest]
    cases hc
    decide +kernel
  obtain rfl := Option.some.inj (hmessage.symm.trans hviews)
  obtain ⟨sent, hsent⟩ := hroom (by constructor <;> decide +kernel)
  have hheld : ∀ d, after.holds 1 .previous d = (halfTaken c).holds 1 .previous d := fun d =>
    congrArg (Option.any _) (htakes.claims .previous 1 d)
  have htaken : after.holds 1 .current 0 = true := by
    rw [holds, htakes.claims]
    rfl
  refine ⟨c, after, _, sent, hc, hreachable, hempty, hnode, hsent, hreserve.trans hsent,
    hstatus.trans hmessage, htakes, (htakes.granted 0 1).2 (.inr ⟨rfl, ?_, htaken⟩), fun hgranted => ?_⟩
  · rw [hheld]
    cases hc
    decide +kernel
  · rcases (htakes.granted 1 1).1 hgranted with hbefore | ⟨-, hprevious, -⟩
    · unfold Granted at hbefore
      cases hc
      revert hbefore
      decide +kernel
    · rw [hheld] at hprevious
      cases hc
      revert hprevious
      decide +kernel

end SlotNet.Controller
