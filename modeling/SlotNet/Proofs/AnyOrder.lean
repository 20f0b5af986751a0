import SlotNet.Proofs.Controller.Messages
import SlotNet.Proofs.Roster

/-!
# The controller in any order

`Controller.Reachable` are the states of the controller when its operations follow one another in any
order, in whatever network and surroundings: frames and slots begin, slots are chosen, nodes reserve,
messages of any content reach any node, and rewards are taken. `Lawful` is what holds of all of them;
`Reachable.lawful` is the induction over the operations.
-/

namespace SlotNet.Controller

/-- The controllers that the operations lead to, in any order. -/
inductive Reachable (config : Config) : Controller → Prop
  | new {c : Controller} (h : ofConfig config = .ok c) : Reachable config c
  /-- The first frame is scheduled. -/
  | start {c c' : Controller} {events events' : EventQueue Event} {done : Bool}
    (hc : Reachable config c) (h : c.start events = .ok (done, c', events')) : Reachable config c'
  /-- A frame begins, and with it slot 0. -/
  | runFrame {n n' : Network} {grants : List Grant} (hc : Reachable config n.controller)
    (h : n.runFrame = .ok (n', grants)) : Reachable config n'.controller
  /-- Any slot begins, be it the next one or not. -/
  | runSlot {n n' : Network} {grants : List Grant} {slot : Nat} (hc : Reachable config n.controller)
    (h : n.runSlot slot = .ok (n', grants)) : Reachable config n'.controller
  | choose {c : Controller} (hc : Reachable config c) (slot : Nat) : Reachable config (c.choose slot)
  /-- Any node reserves, be it one of the network or not. -/
  | reserve {c c' : Controller} {m m' : Medium} {node : Nat} {o : TransmitOutcome}
    (hc : Reachable config c) (h : c.reserve m node = .ok (c', m', o)) : Reachable config c'
  | merge {c : Controller} (hc : Reachable config c) (message : List UInt8) (observer : Nat) :
    Reachable config (c.merge message observer).1
  | takeReward {c : Controller} (hc : Reachable config c) (node : Nat) :
    Reachable config (c.takeReward node).2

/-- What is not claimed is free. -/
def Tidy (c : Controller) : Prop :=
  ∀ g n d claim, c.claims.get g n d = some claim → claim.isClaimed = false → claim = .free

/-- The controller is one of the configuration, its claims can be passed on, and nobody is listed
twice for a slot. -/
structure Lawful (config : Config) (c : Controller) : Prop where
  layout : c.layout = config.frame
  nodeCount : c.nodeCount = config.nodeCount
  rules : c.rules = config.reservation
  shaped : c.Shaped
  relayable : c.Relayable
  tidy : c.Tidy
  once : c.Once

variable {config : Config} {c c' : Controller}

/-! ## Free slots -/

theorem Tidy.reserved (h : c.Tidy) (node : Nat) : (c.reserved node).Tidy := by
  intro g n d claim hg hclaimed
  rw [get_reserved] at hg
  split at hg
  · obtain ⟨held, -, rfl⟩ := Option.map_eq_some_iff.1 hg
    cases hclaimed
  · exact h g n d claim hg hclaimed

theorem Tidy.merge (h : c.Tidy) (hc : c.Shaped) (message : List UInt8) (observer : Nat) :
    (c.merge message observer).1.Tidy := by
  cases hd : StatusMessage.decode message c.layout.dataSlots with
  | error e =>
    rw [merge_of_not_read hd]
    exact h
  | ok m =>
    intro g n d claim hg hclaimed
    rw [get_merge hc.claims hd] at hg
    split at hg
    · obtain ⟨held, hh, rfl⟩ := Option.map_eq_some_iff.1 hg
      rcases resolved_eq_or held (about m g d) with he | ⟨x, -, hcounts, he⟩
      · rw [he] at hclaimed ⊢
        exact h g observer d held hh hclaimed
      · rw [he, hcounts.1] at hclaimed
        cases hclaimed
    · exact h g n d claim hg hclaimed

theorem Tidy.openSlot (h : c.Tidy) (slot : Nat) : (c.openSlot slot).Tidy := by
  by_cases hs : slot = c.nodeCount
  · subst hs
    intro g n d claim hg hclaimed
    rw [claims_openSlot_nodeCount] at hg
    cases g with
    | previous => exact h .current n d claim hg hclaimed
    | current =>
      rw [ClaimTable.get_rotate_current] at hg
      obtain ⟨x, -, rfl⟩ := Option.map_eq_some_iff.1 hg
      rfl
  · rw [openSlot_of_ne hs]
    exact h

/-! ## One operation -/

theorem Lawful.of_same (h : c.Lawful config) (hlayout : c'.layout = c.layout)
    (hnodes : c'.nodeCount = c.nodeCount) (hrules : c'.rules = c.rules)
    (hclaims : c'.claims = c.claims) (hmap : c'.slotMap = c.slotMap)
    (horder : c'.controlOrder = c.controlOrder) : c'.Lawful config := by
  refine ⟨hlayout.trans h.layout, hnodes.trans h.nodeCount, hrules.trans h.rules, ⟨?_, ?_, ?_⟩, ?_,
    ?_, ?_⟩
  · rw [hclaims, hnodes, hlayout]
    exact h.shaped.claims
  · rw [totalSlots, hmap, hnodes, hlayout]
    exact h.shaped.totalSlots
  · rw [horder, hnodes]
    exact h.shaped.controlOrder
  · unfold Relayable
    rw [hclaims]
    exact h.relayable
  · unfold Tidy
    rw [hclaims]
    exact h.tidy
  · unfold Once
    rw [hmap]
    exact h.once

theorem Lawful.choose (h : c.Lawful config) (slot : Nat) : (c.choose slot).Lawful config :=
  h.of_same rfl rfl rfl rfl rfl rfl

theorem Lawful.takeReward (h : c.Lawful config) (node : Nat) :
    (c.takeReward node).2.Lawful config := by
  obtain ⟨rewards, htaken⟩ := takeReward_eq c node
  rw [htaken]
  exact h.of_same rfl rfl rfl rfl rfl rfl

theorem Lawful.start (h : c.Lawful config) {events events' : EventQueue Event} {done : Bool}
    (hstart : c.start events = .ok (done, c', events')) : c'.Lawful config := by
  obtain ⟨started, rfl⟩ := eq_of_start hstart
  exact h.of_same rfl rfl rfl rfl rfl rfl

theorem Lawful.beginFrame (h : c.Lawful config) : c.beginFrame.Lawful config :=
  have hbegins := beginsFrom_beginFrame c
  ⟨hbegins.layout.trans h.layout, hbegins.nodeCount.trans h.nodeCount,
    hbegins.rules.trans h.rules, h.shaped.beginFrame, h.relayable.beginFrame, fun g n d claim hg =>
      h.tidy g n d claim (hbegins.claims ▸ hg), h.once.beginFrame⟩

theorem Lawful.openSlot (h : c.Lawful config) (slot : Nat) : (c.openSlot slot).Lawful config := by
  have hsame := sameFrame_openSlot c slot
  refine ⟨hsame.layout.trans h.layout, hsame.nodeCount.trans h.nodeCount, hsame.rules.trans h.rules,
    h.shaped.openSlot slot, h.relayable.openSlot slot, h.tidy.openSlot slot, ?_⟩
  unfold Controller.openSlot
  split <;> exact h.once

theorem Lawful.reserved (hconfig : config.Accepted) (h : c.Lawful config) (node : Nat) :
    (c.reserved node).Lawful config := by
  have hsame := sameFrame_reserved c node
  have hfew : c.nodeCount ≤ 100 := by
    rw [h.nodeCount]
    exact hconfig.nodeCount.2.trans (by decide)
  exact ⟨hsame.layout.trans h.layout, hsame.nodeCount.trans h.nodeCount, hsame.rules.trans h.rules,
    h.shaped.reserved node, h.relayable.reserved h.shaped hfew node, h.tidy.reserved node,
    h.once.reserved node⟩

theorem Lawful.merge (hconfig : config.Accepted) (h : c.Lawful config) (message : List UInt8)
    (observer : Nat) : (c.merge message observer).1.Lawful config := by
  have hsame := sameFrame_merge c message observer
  have hthreshold : c.rules.priorityThreshold ≤ 9 := by
    rw [h.rules]
    exact hconfig.threshold.2
  exact ⟨hsame.layout.trans h.layout, hsame.nodeCount.trans h.nodeCount, hsame.rules.trans h.rules,
    h.shaped.merge message observer, h.relayable.merge h.shaped hthreshold message observer,
    h.tidy.merge h.shaped message observer, h.once.merge message observer⟩

theorem Lawful.runSlot {n n' : Network} {grants : List Grant} {slot : Nat}
    (h : n.controller.Lawful config) (hrun : n.runSlot slot = .ok (n', grants)) :
    n'.controller.Lawful config := by
  rcases Network.controller_runSlot_cases hrun with hopened | ⟨-, hpast⟩
  · rw [hopened]
    exact h.openSlot slot
  · rw [hpast]
    exact h

theorem Lawful.runFrame {n n' : Network} {grants : List Grant} (h : n.controller.Lawful config)
    (hrun : n.runFrame = .ok (n', grants)) : n'.controller.Lawful config :=
  Lawful.runSlot (n := { n with controller := n.controller.beginFrame, medium := _ })
    h.beginFrame hrun

theorem lawful_ofConfig (h : ofConfig config = .ok c) : c.Lawful config := by
  obtain ⟨hlayout, hnodes, hrules, hfresh⟩ := ofConfig_ok h
  exact ⟨hlayout, hnodes, hrules, hfresh.shaped, hfresh.relayable, fun g n d claim hg _ =>
    hfresh.free g n d claim hg, once_ofConfig h⟩

/-! ## Any operations -/

theorem Reachable.started (h : Reachable config c) (hs : c.started = false) :
    Reachable config { c with started := true } := by
  have hstart : c.start .empty = .ok (true, { c with started := true },
      (EventQueue.empty.scheduleAt firstFrameDelay .startFrame).2) := by
    rw [Controller.start, if_neg (Bool.eq_false_iff.1 hs)]
    rfl
  exact h.start hstart

theorem Reachable.chooseAll (h : Reachable config c) (slots : List Nat) :
    Reachable config (slots.foldl Controller.choose c) := by
  induction slots generalizing c with
  | nil => exact h
  | cons slot slots ih => exact ih (h.choose slot)

theorem Reachable.lawful (hconfig : config.Accepted) (h : Reachable config c) : c.Lawful config := by
  induction h with
  | new h => exact lawful_ofConfig h
  | start _ h ih => exact ih.start h
  | runFrame _ h ih => exact ih.runFrame h
  | runSlot _ h ih => exact ih.runSlot h
  | choose _ slot ih => exact ih.choose slot
  | reserve _ h ih =>
    rw [(reserve_ok h).1]
    exact ih.reserved hconfig _
  | merge _ message observer ih => exact ih.merge hconfig message observer
  | takeReward _ node ih => exact ih.takeReward node

theorem Shaped.runSlot {n n' : Network} {grants : List Grant} {slot : Nat} (h : n.controller.Shaped)
    (hrun : n.runSlot slot = .ok (n', grants)) : n'.controller.Shaped := by
  rcases Network.controller_runSlot_cases hrun with hopened | ⟨-, hpast⟩
  · rw [hopened]
    exact h.openSlot slot
  · rw [hpast]
    exact h

theorem Shaped.runFrame {n n' : Network} {grants : List Grant} (h : n.controller.Shaped)
    (hrun : n.runFrame = .ok (n', grants)) : n'.controller.Shaped :=
  Shaped.runSlot (n := { n with controller := n.controller.beginFrame, medium := _ })
    h.beginFrame hrun

theorem Shaped.start (h : c.Shaped) {events events' : EventQueue Event} {done : Bool}
    (hstart : c.start events = .ok (done, c', events')) : c'.Shaped := by
  obtain ⟨started, rfl⟩ := eq_of_start hstart
  exact ⟨h.claims, h.totalSlots, h.controlOrder⟩

theorem Shaped.choose (h : c.Shaped) (slot : Nat) : (c.choose slot).Shaped :=
  ⟨h.claims, h.totalSlots, h.controlOrder⟩

theorem Shaped.takeReward (h : c.Shaped) (node : Nat) : (c.takeReward node).2.Shaped := by
  obtain ⟨rewards, htaken⟩ := takeReward_eq c node
  rw [htaken]
  exact ⟨h.claims, h.totalSlots, h.controlOrder⟩

theorem Reachable.shaped {config : Config} {c : Controller} (h : Reachable config c) : c.Shaped := by
  induction h with
  | new h => exact (ofConfig_ok h).2.2.2.shaped
  | start _ h ih => exact ih.start h
  | runFrame _ h ih => exact ih.runFrame h
  | runSlot _ h ih => exact ih.runSlot h
  | choose _ slot ih => exact ih.choose slot
  | reserve _ h ih =>
    rw [(reserve_ok h).1]
    exact ih.reserved _
  | merge _ message observer ih => exact ih.merge message observer
  | takeReward _ node ih => exact ih.takeReward node

end SlotNet.Controller
