import SlotNet.Proofs.Exchange
import SlotNet.Proofs.Network

/-!
# Who may send holds the claim

The controller at work. Its frames and slots follow one another, and at any time between them slots
are chosen, nodes reserve, messages of any content reach any node, and rewards are taken.

`granted_holds`: whoever may send in a data slot owns it in its own view of the last frame, and until
the claims move on also in its view of this frame.
-/

namespace SlotNet

/-- Does the node see a data slot as its own? -/
def ClaimTable.Holds (t : ClaimTable) (g : Generation) (node slot : Nat) : Prop :=
  ∃ claim, t.get g node slot = some claim ∧ claim.isOwnedBy node = true

namespace Controller

def Once (c : Controller) : Prop := ∀ nodes ∈ c.slotMap, nodes.Nodup

theorem Once.entitled {c : Controller} (h : c.Once) (slot : Nat) : (c.entitled slot).Nodup := by
  unfold Controller.entitled
  rw [List.getD_eq_getElem?_getD]
  cases hs : c.slotMap[slot]? with
  | none => exact List.nodup_nil
  | some nodes => exact h nodes (List.mem_of_getElem? hs)

theorem nodup_of_mem_modify {l : List (List Nat)} (h : ∀ nodes ∈ l, nodes.Nodup) (i : Nat)
    {f : List Nat → List Nat} (hf : ∀ nodes, nodes.Nodup → (f nodes).Nodup) :
    ∀ nodes ∈ l.modify i f, nodes.Nodup := by
  intro nodes hn
  obtain ⟨k, hk⟩ := List.mem_iff_getElem?.1 hn
  rw [List.getElem?_modify] at hk
  obtain ⟨old, hold, rfl⟩ := Option.map_eq_some_iff.1 hk
  have hmem := h old (List.mem_of_getElem? hold)
  split
  · exact hf old hmem
  · exact hmem

theorem Once.addSlot {c : Controller} (h : c.Once) (slot node : Nat) : (c.addSlot slot node).Once := by
  refine nodup_of_mem_modify h slot fun nodes hn => ?_
  split
  · exact hn
  · rename_i hnot
    rw [List.contains_iff_mem] at hnot
    exact List.nodup_append'.2 ⟨hn, List.nodup_singleton node, by simpa using hnot⟩

theorem Once.deleteSlot {c : Controller} (h : c.Once) (slot node : Nat) :
    (c.deleteSlot slot node).Once := nodup_of_mem_modify h slot fun _ hn => hn.filter _

theorem Once.grantSlots {c : Controller} (h : c.Once) (node : Nat) (slots : List Nat) :
    (c.grantSlots node slots).Once := by
  induction slots generalizing c with
  | nil => exact h
  | cons s slots ih => exact ih (h.addSlot (c.nodeCount + s) node)

theorem Once.withdrawSlots {c : Controller} (h : c.Once) (node : Nat) (slots : List Nat) :
    (c.withdrawSlots node slots).Once := by
  induction slots generalizing c with
  | nil => exact h
  | cons s slots ih => exact ih (h.deleteSlot (c.nodeCount + s) node)

theorem Once.reserved {c : Controller} (h : c.Once) (node : Nat) : (c.reserved node).Once := by
  refine Once.grantSlots (fun nodes hn => ?_) node _
  rw [markChosen_eq, slotMap_markAll] at hn
  exact h nodes hn

theorem Once.mergeRow {c : Controller} (h : c.Once) (g : Generation) (observer : Nat)
    (heard : List (Option Claim)) : (c.mergeRow g observer heard).2.Once := by
  cases hr : c.claims.row g observer with
  | none =>
    rw [mergeRow_of_no_row hr]
    exact h
  | some row =>
    rw [mergeRow_of_row hr]
    exact Once.withdrawSlots (c := c.withRow g observer _) h observer _

theorem Once.merge {c : Controller} (h : c.Once) (message : List UInt8) (observer : Nat) :
    (c.merge message observer).1.Once := by
  cases hd : StatusMessage.decode message c.layout.dataSlots with
  | error e =>
    rw [merge_of_not_read hd]
    exact h
  | ok m =>
    rw [merge_of_decode hd]
    exact (h.mergeRow .previous observer m.previous).mergeRow .current observer m.current

theorem Once.assignControlSlots {c : Controller} (h : c.Once) : c.assignControlSlots.Once := by
  intro nodes hn
  rcases List.mem_append.1 hn with hn | hn
  · obtain ⟨node, -, rfl⟩ := List.mem_map.1 hn
    exact List.nodup_singleton node
  · exact h nodes (List.mem_of_mem_drop hn)

theorem Once.cleared {c : Controller} (h : c.Once) : c.cleared.Once := by
  intro nodes hn
  rcases List.mem_append.1 hn with hn | hn
  · exact h nodes (List.mem_of_mem_take hn)
  · obtain ⟨old, -, rfl⟩ := List.mem_map.1 hn
    exact List.nodup_nil

theorem Once.beginFrame {c : Controller} (h : c.Once) : c.beginFrame.Once := by
  rcases beginFrame_eq c with hb | hb <;> rw [hb]
  · exact h.cleared
  · exact Once.assignControlSlots
      (c := { c.cleared with controlOrder := rotateOrder c.controlOrder }) h.cleared

theorem once_ofConfig {config : Config} {c : Controller} (h : ofConfig config = .ok c) : c.Once := by
  obtain ⟨total, claims, -, -, -, -, rfl⟩ := ofConfig_eq_ok_iff.1 h
  refine Once.assignControlSlots fun nodes hn => ?_
  rw [List.eq_of_mem_replicate hn]
  exact List.nodup_nil

/-! ## Grants and claims -/

/-- Grants and claims are in step. After the first data slot has begun, the claims of the frame are
the previous ones. -/
structure Backed (c : Controller) (rotated : Bool) : Prop where
  shaped : c.Shaped
  once : c.Once
  previous : ∀ d n, c.Granted d n → c.claims.Holds .previous n d
  current : rotated = false → ∀ d n, c.Granted d n → c.claims.Holds .current n d

variable {c : Controller} {rotated : Bool}

theorem backed_ofConfig {config : Config} (h : ofConfig config = .ok c) : c.Backed false := by
  have hfresh := (ofConfig_ok h).2.2.2
  exact ⟨hfresh.shaped, once_ofConfig h, fun d n hg => absurd hg (hfresh.not_granted d n),
    fun _ d n hg => absurd hg (hfresh.not_granted d n)⟩

theorem Backed.beginFrame (h : c.Backed rotated) : c.beginFrame.Backed false :=
  ⟨h.shaped.beginFrame, h.once.beginFrame,
    fun d n hg => absurd hg (not_granted_beginFrame h.shaped d n),
    fun _ d n hg => absurd hg (not_granted_beginFrame h.shaped d n)⟩

theorem Backed.openSlot_of_ne (h : c.Backed rotated) {slot : Nat} (hs : slot ≠ c.nodeCount) :
    (c.openSlot slot).Backed rotated := by
  rwa [Controller.openSlot_of_ne hs]

/-- With the first data slot the claims behind the grants become previous ones. -/
theorem Backed.openSlot_nodeCount (h : c.Backed false) :
    (c.openSlot c.nodeCount).Backed true := by
  refine ⟨h.shaped.openSlot _, ?_, fun d n hg => ?_, nofun⟩
  · rw [openSlot, if_pos rfl]
    exact h.once
  · rw [granted_openSlot] at hg
    obtain ⟨claim, hget, hown⟩ := h.current rfl d n hg
    rw [claims_openSlot_nodeCount]
    exact ⟨claim, hget, hown⟩

theorem holds_reserved {g : Generation} {d n : Nat} (node : Nat) (h : c.claims.Holds g n d) :
    (c.reserved node).claims.Holds g n d := by
  obtain ⟨claim, hget, hown⟩ := h
  unfold ClaimTable.Holds
  rw [get_reserved]
  split
  · rename_i hmarked
    obtain ⟨rfl, rfl, -⟩ := hmarked
    exact ⟨.own n, by rw [hget]; rfl, by simp [Claim.isOwnedBy, Claim.isClaimed, Claim.own]⟩
  · exact ⟨claim, hget, hown⟩

theorem Backed.reserved (h : c.Backed rotated) (node : Nat) : (c.reserved node).Backed rotated := by
  have hnew : ∀ d n, (c.reserved node).Granted d n → c.Granted d n ∨
      (c.reserved node).claims.Holds .previous n d ∧ (c.reserved node).claims.Holds .current n d := by
    intro d n hg
    rcases (granted_reserved c node d n).1 hg with hold | ⟨rfl, -, p, q, hp, hq, hown, hown'⟩
    · exact .inl hold
    · exact .inr ⟨⟨p, hp, hown⟩, ⟨q, hq, hown'⟩⟩
  refine ⟨h.shaped.reserved node, h.once.reserved node, fun d n hg => ?_, fun hr d n hg => ?_⟩
  · rcases hnew d n hg with hold | hboth
    · exact holds_reserved node (h.previous d n hold)
    · exact hboth.1
  · rcases hnew d n hg with hold | hboth
    · exact holds_reserved node (h.current hr d n hold)
    · exact hboth.2

/-- Whoever may still send after a message was merged has yielded none of its claims on the slot. -/
theorem holds_merge (hc : c.Shaped) {message : List UInt8} {observer d n : Nat} {g : Generation}
    (hg : (c.merge message observer).1.Granted d n) (h : c.claims.Holds g n d) :
    (c.merge message observer).1.claims.Holds g n d := by
  cases hd : StatusMessage.decode message c.layout.dataSlots with
  | error e =>
    rw [merge_of_not_read hd]
    exact h
  | ok m =>
    obtain ⟨claim, hget, hown⟩ := h
    obtain ⟨-, hkept⟩ := (granted_merge hc.claims hd observer d n).1 hg
    unfold ClaimTable.Holds
    rw [get_merge hc.claims hd]
    by_cases hn : n = observer
    · subst hn
      have hv : verdict c.rules.priorityThreshold n claim (about m g d) ≠ .yield :=
        fun hy => hkept ⟨rfl, g, claim, hget, hy⟩
      refine ⟨claim, ?_, hown⟩
      rw [if_pos rfl, hget, Option.map_some, resolved_of_own hown hv]
    · rw [if_neg hn]
      exact ⟨claim, hget, hown⟩

theorem granted_of_granted_merge (hc : c.Shaped) {message : List UInt8} {observer d n : Nat}
    (hg : (c.merge message observer).1.Granted d n) : c.Granted d n := by
  cases hd : StatusMessage.decode message c.layout.dataSlots with
  | error e => rwa [merge_of_not_read hd] at hg
  | ok m => exact ((granted_merge hc.claims hd observer d n).1 hg).1

theorem Backed.merge (h : c.Backed rotated) (message : List UInt8) (observer : Nat) :
    (c.merge message observer).1.Backed rotated :=
  ⟨h.shaped.merge message observer, h.once.merge message observer,
    fun d n hg => holds_merge h.shaped hg (h.previous d n (granted_of_granted_merge h.shaped hg)),
    fun hr d n hg =>
      holds_merge h.shaped hg (h.current hr d n (granted_of_granted_merge h.shaped hg))⟩

theorem Backed.takeReward (h : c.Backed rotated) (node : Nat) :
    (c.takeReward node).2.Backed rotated := by
  obtain ⟨rewards, htaken⟩ := takeReward_eq c node
  rw [htaken]
  exact ⟨⟨h.shaped.claims, h.shaped.totalSlots, h.shaped.controlOrder⟩, h.once, h.previous, h.current⟩

end Controller

/-! ## Slots in a network -/

namespace Network

variable {n n' : Network}

theorem controller_onStation {α : Type} {node : Nat}
    {act : Station → Medium → Except Fault (Station × Medium × α)} {result : Option α}
    (h : n.onStation node act = .ok (n', result)) : n'.controller = n.controller := by
  rcases onStation_cases h with ⟨rfl, -, -⟩ | ⟨s, s', m, r, -, -, -, rfl⟩ <;> rfl

theorem controller_grantAll {duration : Time} {control : Bool} {members : List Nat}
    {grants : List Grant} (h : n.grantAll duration control members = .ok (n', grants)) :
    n'.controller = n.controller := by
  induction members generalizing n grants with
  | nil =>
    cases h
    rfl
  | cons node members ih =>
    obtain ⟨⟨n₁, first⟩, h1, h⟩ := Fault.bind_eq_ok.1 h
    obtain ⟨⟨n₂, more⟩, h2, h⟩ := Fault.bind_eq_ok.1 h
    cases h
    obtain ⟨⟨n₃, sent⟩, h3, h1⟩ := Fault.bind_eq_ok.1 h1
    cases h1
    exact (ih h2).trans (controller_onStation h3)

theorem controller_runSlot_cases {slot : Nat} {grants : List Grant}
    (h : n.runSlot slot = .ok (n', grants)) :
    n'.controller = n.controller.openSlot slot ∨
      n.controller.totalSlots ≤ slot ∧ n'.controller = n.controller := by
  rcases runSlot_cases h with ⟨hslot, rfl, -⟩ | ⟨n₁, delay, next, m, -, h1, -, -, rfl⟩
  · exact .inr ⟨hslot, rfl⟩
  · exact .inl (controller_grantAll h1)

theorem controller_runSlot {slot : Nat} {grants : List Grant} (hs : slot < n.controller.totalSlots)
    (h : n.runSlot slot = .ok (n', grants)) : n'.controller = n.controller.openSlot slot :=
  (controller_runSlot_cases h).resolve_right fun hpast => Nat.not_lt_of_le hpast.1 hs

theorem controller_runFrame {grants : List Grant} (hs : 0 < n.controller.beginFrame.totalSlots)
    (h : n.runFrame = .ok (n', grants)) : n'.controller = n.controller.beginFrame.openSlot 0 :=
  controller_runSlot (n := { n with controller := n.controller.beginFrame, medium := _ }) hs h

theorem controller_merge {message : List UInt8} {observer : Nat} {result : Except StatusError Nat}
    (h : n.merge message observer = .ok (n', result)) :
    n'.controller = (n.controller.merge message observer).1 := by
  obtain ⟨-, stats, -, rfl⟩ := merge_cases h
  rfl

end Network

/-! ## Runs -/

/-- The controller in its network, frame after frame. -/
structure Roster where
  network : Network
  /-- The slot that runs; none before the first frame. -/
  slot : Option Nat

namespace Roster

/-- One act of a run. -/
inductive Act where
  /-- A frame begins, and its first slot. -/
  | beginFrame
  /-- The next slot of the frame begins. -/
  | openSlot
  /-- A slot is chosen for the next reservation. -/
  | choose (slot : Nat)
  /-- A node reserves. -/
  | reserve (node : Nat)
  /-- A message is merged into the view of a node. -/
  | merge (message : List UInt8) (observer : Nat)
  /-- The rewards of a node are taken. -/
  | takeReward (node : Nat)
  /-- Something else happens in the network. -/
  | elsewhere (stations : List Station) (medium : Medium) (traffic : Traffic)

def start (n : Network) : Roster := ⟨n, none⟩

def controller (s : Roster) : Controller := s.network.controller

/-- Has the last slot of the frame begun, or has there been no frame yet? -/
def frameOver (s : Roster) : Bool := s.slot.all (· + 1 == s.controller.totalSlots)

/-- Has the first data slot of the frame begun? -/
def rotated (s : Roster) : Bool := s.slot.any (s.controller.nodeCount ≤ ·)

def setController (s : Roster) (controller : Controller) : Roster :=
  { s with network := { s.network with controller } }

def step (s : Roster) : Act → Option Roster
  | .beginFrame =>
    if s.frameOver then s.network.runFrame.toOption.map fun (n, _) => ⟨n, some 0⟩ else none
  | .openSlot =>
    s.slot.bind fun k =>
      if k + 1 < s.controller.totalSlots then
        (s.network.runSlot (k + 1)).toOption.map fun (n, _) => ⟨n, some (k + 1)⟩
      else none
  | .choose slot => some (s.setController (s.controller.choose slot))
  | .reserve node =>
    (s.controller.reserve s.network.medium node).toOption.map fun (controller, medium, _) =>
      { s with network := { s.network with controller, medium } }
  | .merge message observer =>
    (s.network.merge message observer).toOption.map fun (network, _) => { s with network }
  | .takeReward node => some (s.setController (s.controller.takeReward node).2)
  | .elsewhere stations medium traffic =>
    some { s with network := { s.network with stations, medium, traffic } }

def run : List Act → Roster → Option Roster := Acts.run step

/-- Grants and claims are in step, and a frame has begun with its control slots. -/
structure Sound (s : Roster) : Prop where
  backed : s.controller.Backed s.rotated
  manned : 0 < s.controller.nodeCount

variable {s s' : Roster}

theorem Sound.keep (h : s.Sound) (hs : s'.slot = s.slot)
    (hn : s'.controller.nodeCount = s.controller.nodeCount)
    (hb : s'.controller.Backed s.rotated) : s'.Sound := by
  refine ⟨?_, hn ▸ h.manned⟩
  unfold rotated
  rw [hs, hn]
  exact hb

theorem Sound.beginFrame (h : s.Sound) (hstep : s.step .beginFrame = some s') : s'.Sound := by
  rw [step] at hstep
  split at hstep
  · obtain ⟨⟨n, grants⟩, hr, rfl⟩ := Fault.toOption_map_eq_some.1 hstep
    have hb := h.backed.beginFrame
    have hcount : s.controller.beginFrame.nodeCount = s.controller.nodeCount :=
      (Controller.beginsFrom_beginFrame s.controller).nodeCount
    have hpos : 0 < s.controller.beginFrame.nodeCount := hcount ▸ h.manned
    have hslots : 0 < s.controller.beginFrame.totalSlots := by
      rw [hb.shaped.totalSlots]
      exact Nat.lt_of_lt_of_le hpos (Nat.le_add_right _ _)
    have hc : n.controller = s.controller.beginFrame := by
      rw [Network.controller_runFrame hslots hr]
      exact Controller.openSlot_of_ne (Nat.ne_of_lt hpos)
    refine ⟨?_, ?_⟩
    · show n.controller.Backed (decide (n.controller.nodeCount ≤ 0))
      rw [hc, decide_eq_false (Nat.not_le_of_lt hpos)]
      exact hb
    · show 0 < n.controller.nodeCount
      rwa [hc]
  · cases hstep

theorem Sound.openSlot (h : s.Sound) (hstep : s.step .openSlot = some s') : s'.Sound := by
  obtain ⟨k, hk, hstep⟩ := Option.bind_eq_some_iff.1 hstep
  split at hstep
  · rename_i hlt
    obtain ⟨⟨n, grants⟩, hr, rfl⟩ := Fault.toOption_map_eq_some.1 hstep
    have hc : n.controller = s.controller.openSlot (k + 1) := Network.controller_runSlot hlt hr
    have hcount : n.controller.nodeCount = s.controller.nodeCount := by
      rw [hc]
      exact (Controller.sameFrame_openSlot s.controller _).nodeCount
    have hb : s.controller.Backed (decide (s.controller.nodeCount ≤ k)) := by
      have := h.backed
      rwa [rotated, hk, Option.any_some] at this
    refine ⟨?_, ?_⟩
    · show n.controller.Backed (decide (n.controller.nodeCount ≤ k + 1))
      rw [hcount, hc]
      -- the claims move on exactly when the slot before was a control slot and this one is none
      by_cases hfirst : k + 1 = s.controller.nodeCount
      · rw [decide_eq_false (by omega)] at hb
        rw [hfirst, decide_eq_true (Nat.le_refl _)]
        exact hb.openSlot_nodeCount
      · rw [decide_eq_decide.2 (show s.controller.nodeCount ≤ k + 1 ↔ s.controller.nodeCount ≤ k by
          omega)]
        exact hb.openSlot_of_ne hfirst
    · show 0 < n.controller.nodeCount
      rw [hcount]
      exact h.manned
  · cases hstep

theorem Sound.step (h : s.Sound) {a : Act} (hstep : s.step a = some s') : s'.Sound := by
  cases a with
  | beginFrame => exact h.beginFrame hstep
  | openSlot => exact h.openSlot hstep
  | choose slot =>
    cases hstep
    exact h.keep rfl rfl ⟨⟨h.backed.shaped.claims, h.backed.shaped.totalSlots,
      h.backed.shaped.controlOrder⟩, h.backed.once, h.backed.previous, h.backed.current⟩
  | reserve node =>
    obtain ⟨⟨c, m, o⟩, hr, rfl⟩ := Fault.toOption_map_eq_some.1 hstep
    obtain rfl := (Controller.reserve_ok hr).1
    exact h.keep rfl (Controller.sameFrame_reserved s.controller node).nodeCount
      (h.backed.reserved node)
  | merge message observer =>
    obtain ⟨⟨n, result⟩, hm, rfl⟩ := Fault.toOption_map_eq_some.1 hstep
    have hc : n.controller = (s.controller.merge message observer).1 := Network.controller_merge hm
    refine h.keep rfl ?_ ?_
    · show n.controller.nodeCount = _
      rw [hc]
      exact (Controller.sameFrame_merge s.controller message observer).nodeCount
    · show n.controller.Backed _
      rw [hc]
      exact h.backed.merge message observer
  | takeReward node =>
    cases hstep
    refine h.keep rfl ?_ (h.backed.takeReward node)
    show (s.controller.takeReward node).2.nodeCount = _
    obtain ⟨rewards, htaken⟩ := Controller.takeReward_eq s.controller node
    rw [htaken]
  | elsewhere stations medium traffic =>
    cases hstep
    exact h.keep rfl rfl h.backed

theorem Sound.run {acts : List Act} (h : s.Sound) (hrun : run acts s = some s') : s'.Sound :=
  Acts.run_induction (fun _ _ _ _ h hstep => h.step hstep) h hrun

/-- In every state of a run, whatever messages were merged, no data slot lists a node twice, and a
node that may send in a data slot holds it in the previous generation of its own view. As long as the
first data slot of the frame has not begun, it holds it in the current generation too. -/
theorem granted_holds {config : Config} (hconfig : config.Accepted) {n : Network}
    (hn : Controller.ofConfig config = .ok n.controller) {acts : List Act} {s : Roster}
    (hrun : run acts (start n) = some s) :
    (∀ d, (s.controller.entitled (s.controller.nodeCount + d)).Nodup) ∧
      ∀ d node, s.controller.Granted d node →
        s.controller.claims.Holds .previous node d ∧
          (s.rotated = false → s.controller.claims.Holds .current node d) := by
  have hstart : (start n).Sound := by
    refine ⟨Controller.backed_ofConfig hn, ?_⟩
    show 0 < n.controller.nodeCount
    rw [(Controller.ofConfig_ok hn).2.1]
    exact hconfig.nodeCount.1
  have hs := hstart.run hrun
  exact ⟨fun d => hs.backed.once.entitled _, fun d node hg =>
    ⟨hs.backed.previous d node hg, fun hr => hs.backed.current hr d node hg⟩⟩

/-- Node 0 chooses the only data slot in two frames. -/
def twoFrames : List Act :=
  [.beginFrame, .choose 0, .reserve 0, .openSlot, .openSlot, .openSlot, .openSlot, .beginFrame,
    .choose 0, .reserve 0]

theorem run_twoFrames : ∃ n, Network.ofConfig Config.row 4 = .ok n ∧
    n.controller = Exchange.fourNodes ∧
    (run twoFrames (start n)).map
      (fun s => (s.slot, s.controller.nodeCount, s.controller.slotMap))
      = some (some 0, 4, [[0], [1], [2], [3], [0]]) :=
  ⟨_, rfl, rfl, by decide +kernel⟩

theorem granted_holds_twoFrames : ∃ n s, Network.ofConfig Config.row 4 = .ok n ∧
    run twoFrames (start n) = some s ∧ s.controller.Granted 0 0 ∧ s.rotated = false ∧
    s.controller.claims.Holds .previous 0 0 ∧ s.controller.claims.Holds .current 0 0 := by
  obtain ⟨n, hn, hc, hrun⟩ := run_twoFrames
  obtain ⟨s, hs, hv⟩ := Option.map_eq_some_iff.1 hrun
  simp only [Prod.mk.injEq] at hv
  obtain ⟨hslot, hcount, hmap⟩ := hv
  have hfirst : Controller.ofConfig Config.row = .ok n.controller := by
    rw [hc]
    rfl
  have hgranted : s.controller.Granted 0 0 := by
    rw [Controller.Granted, Controller.entitled, hcount, hmap]
    exact List.mem_singleton_self 0
  have hrotated : s.rotated = false := by
    rw [rotated, hslot, hcount]
    rfl
  obtain ⟨-, hholds⟩ := granted_holds Config.accepted_row hfirst hs
  obtain ⟨hprevious, hcurrent⟩ := hholds 0 0 hgranted
  exact ⟨n, s, hn, hs, hgranted, hrotated, hprevious, hcurrent hrotated⟩

end Roster

end SlotNet
