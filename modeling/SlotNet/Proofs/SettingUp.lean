import SlotNet.Proofs.Acceptance
import SlotNet.Run

/-!
# Setting up a run

Before the first event of a run its agent is made, its nodes are placed and the tables of the controller
are made, and its report needs the length of a frame. The rules for configurations leave gaps here. An
area may be infinite; there may be no room for the claims, the slots or the rewards; without traffic a
slot may carry more than can be counted; without a log a frame may be longer than any time. Every other
accepted document is set up and reported on.
-/

namespace SlotNet

open SlotNet.Random (Stream)

/-! ## Places -/

/-- Can coordinates be drawn? Extents that are not above zero need no draw. -/
structure PlacementArea.Bounded (a : PlacementArea) : Prop where
  width : 0.0 < a.widthM → a.widthM.isFinite
  height : 0.0 < a.heightM → a.heightM.isFinite

theorem Random.Stream.coordinate_ok_iff {extent : Float} {s : Stream} :
    (∃ drawn, s.coordinate extent = .ok drawn) ↔ (0.0 < extent → extent.isFinite) := by
  unfold Stream.coordinate
  by_cases hpos : 0.0 < extent
  · by_cases hfinite : extent.isFinite
    · rw [if_pos hpos, if_pos hfinite]
      exact ⟨fun _ _ => hfinite, fun _ => ⟨_, rfl⟩⟩
    · rw [if_pos hpos, if_neg hfinite]
      exact ⟨nofun, fun h => absurd (h hpos) hfinite⟩
  · rw [if_neg hpos]
    exact ⟨fun _ h => absurd h hpos, fun _ => ⟨_, rfl⟩⟩

namespace Placement

variable {area : PlacementArea} {c : Config}

theorem scatter_ok (h : area.Bounded) (n : Nat) (s : Stream) :
    ∃ drawn, scatter area n s = .ok drawn := by
  induction n generalizing s with
  | zero => exact ⟨_, rfl⟩
  | succ n ih =>
    obtain ⟨⟨x, s₁⟩, hx⟩ := Stream.coordinate_ok_iff (s := s) |>.2 h.width
    obtain ⟨⟨y, s₂⟩, hy⟩ := Stream.coordinate_ok_iff (s := s₁) |>.2 h.height
    obtain ⟨⟨points, s₃⟩, hpoints⟩ := ih s₂
    refine ⟨(⟨x, y⟩ :: points, s₃), ?_⟩
    rw [scatter, hx]
    dsimp only [Bind.bind, Except.bind]
    rw [hy]
    dsimp only
    rw [hpoints]
    rfl

theorem bounded_of_scatter {n : Nat} {s : Stream} {drawn : List Point × Stream}
    (h : scatter area (n + 1) s = .ok drawn) : area.Bounded := by
  obtain ⟨⟨x, s₁⟩, hx, h⟩ := Fault.bind_eq_ok.1 h
  obtain ⟨⟨y, s₂⟩, hy, -⟩ := Fault.bind_eq_ok.1 h
  exact ⟨Stream.coordinate_ok_iff.1 ⟨_, hx⟩, Stream.coordinate_ok_iff.1 ⟨_, hy⟩⟩

theorem ofConfig_ok_iff (hnodes : 0 < c.nodeCount) :
    (∃ points, ofConfig c = .ok points) ↔ (c.nodes = [] → c.placement.Bounded) := by
  unfold ofConfig positions
  by_cases hgiven : c.nodes.isEmpty
  · rw [if_pos hgiven]
    rw [Config.nodeCount, if_pos hgiven] at hnodes
    obtain ⟨n, hn⟩ := Nat.exists_eq_succ_of_ne_zero (Nat.ne_of_gt hnodes)
    rw [hn]
    constructor
    · rintro ⟨points, h⟩ -
      obtain ⟨drawn, hdrawn, -⟩ := Fault.map_eq_ok.1 h
      exact bounded_of_scatter hdrawn
    · intro h
      obtain ⟨drawn, hdrawn⟩ := scatter_ok (h (List.isEmpty_iff.1 hgiven)) (n + 1) _
      exact ⟨drawn.1, Fault.map_eq_ok.2 ⟨drawn, hdrawn, rfl⟩⟩
  · rw [if_neg hgiven]
    exact ⟨fun _ h => absurd (List.isEmpty_iff.2 h) hgiven, fun _ => ⟨_, rfl⟩⟩

end Placement

/-! ## Tables -/

theorem ClaimTable.new_ok_iff {nodes slots : Nat} :
    (∃ t, new nodes slots = .ok t) ↔ nodes * slots * entryBytes < Memory.limit := by
  constructor
  · rintro ⟨t, h⟩
    obtain ⟨entries, hentries, h⟩ := Fault.bind_eq_ok.1 h
    obtain ⟨_, hroom, -⟩ := Fault.bind_eq_ok.1 h
    rw [(Count.mul_eq_ok hentries).1] at hroom
    exact Memory.allot_eq_ok_iff.1 hroom
  · intro hroom
    have hcount : nodes * slots < Count.limit :=
      ((Nat.le_mul_of_pos_right _ (by decide)).trans_lt hroom).trans (by decide)
    exact ⟨_, Fault.bind_eq_ok.2 ⟨_, if_pos hcount,
      Fault.bind_eq_ok.2 ⟨(), Memory.allot_eq_ok_iff.2 hroom, rfl⟩⟩⟩

theorem Controller.ofConfig_ok_iff {c : Config} :
    (∃ controller, ofConfig c = .ok controller) ↔
      c.nodeCount * c.frame.dataSlots * ClaimTable.entryBytes < Memory.limit ∧
        (c.nodeCount + c.frame.dataSlots) * slotBytes < Memory.limit ∧
        c.reservation.maxSlotsPerAction * rewardBytes < Memory.limit := by
  simp only [ofConfig_eq_ok_iff, ← ClaimTable.new_ok_iff]
  constructor
  · rintro ⟨_, total, claims, htotal, hclaims, hslots, hrewards, -⟩
    rw [(Count.add_eq_ok htotal).1] at hslots
    exact ⟨⟨claims, hclaims⟩, hslots, hrewards⟩
  · rintro ⟨⟨claims, hclaims⟩, hslots, hrewards⟩
    have hcount : c.nodeCount + c.frame.dataSlots < Count.limit :=
      ((Nat.le_mul_of_pos_right _ (by decide)).trans_lt hslots).trans (by decide)
    exact ⟨_, _, claims, if_pos hcount, hclaims, hslots, hrewards, rfl⟩

/-! ## The length of a frame -/

theorem Time.scale_eq_ok {d e : Time} {n : Nat} (h : scale d n = .ok e) : e = d * n := by
  unfold scale at h
  split at h
  · cases h
    rfl
  · cases h

namespace Timing

variable {layout : FrameLayout} {nodes : Nat}

/-- The time of all slots of a frame and the gap after them, of any length. -/
def frameLength (layout : FrameLayout) (nodes : Nat) : Nat :=
  (layout.controlSlotTime + layout.guardTime) * low32 nodes +
    (layout.slotTime + layout.guardTime) * low32 layout.dataSlots + layout.interFrameGap

theorem frameDuration_of_lt (hcontrol : layout.controlSlotTime + layout.guardTime < Time.limit)
    (hdata : layout.slotTime + layout.guardTime < Time.limit)
    (h : frameLength layout nodes < Time.limit) :
    frameDuration layout nodes = .ok (frameLength layout nodes) := by
  have hslots : (layout.controlSlotTime + layout.guardTime) * low32 nodes +
      (layout.slotTime + layout.guardTime) * low32 layout.dataSlots < Time.limit :=
    Nat.lt_of_le_of_lt (Nat.le_add_right _ _) h
  unfold frameDuration Time.add Time.scale
  rw [if_pos hcontrol, if_pos hdata]
  dsimp only [Bind.bind, Except.bind]
  rw [if_pos (Nat.lt_of_le_of_lt (Nat.le_add_right _ _) hslots),
    if_pos (Nat.lt_of_le_of_lt (Nat.le_add_left _ _) hslots)]
  dsimp only
  rw [if_pos hslots]
  exact if_pos h

theorem frameDuration_eq_ok {d : Time} (h : frameDuration layout nodes = .ok d) :
    d = frameLength layout nodes ∧ d < Time.limit := by
  obtain ⟨control, hcontrol, h⟩ := Fault.bind_eq_ok.1 h
  obtain ⟨controls, hcontrols, h⟩ := Fault.bind_eq_ok.1 h
  obtain ⟨data, hdata, h⟩ := Fault.bind_eq_ok.1 h
  obtain ⟨datas, hdatas, h⟩ := Fault.bind_eq_ok.1 h
  obtain ⟨slots, hslots, h⟩ := Fault.bind_eq_ok.1 h
  obtain ⟨rfl, -⟩ := Time.add_eq_ok hcontrol
  obtain ⟨rfl, -⟩ := Time.add_eq_ok hdata
  obtain ⟨rfl, -⟩ := Time.add_eq_ok hslots
  obtain ⟨rfl, hlimit⟩ := Time.add_eq_ok h
  rw [Time.scale_eq_ok hcontrols, Time.scale_eq_ok hdatas] at hlimit ⊢
  exact ⟨rfl, hlimit⟩

end Timing

/-! ## The agent -/

namespace Run

variable {c : Config}

/-- Is what a slot carries below `2 ^ 128`, in bits scaled to nanoseconds? -/
def Countable (c : Config) : Prop := c.frame.slotTime * c.frame.dataRate < Timing.productLimit

theorem randomAgent_ok_iff : (∃ a, randomAgent c = .ok a) ↔ Countable c := by
  unfold randomAgent Timing.capacity Countable
  split
  · exact ⟨fun _ => ‹_›, fun _ => ⟨_, rfl⟩⟩
  · exact ⟨nofun, fun h => absurd h ‹_›⟩

theorem withConfigured_ok_iff {α : Type} {use : (σ : Type) → Agent σ → σ → Except Fault α}
    {possible : Prop} (huse : ∀ σ agent state, (∃ a, use σ agent state = .ok a) ↔ possible) :
    (∃ a, withConfigured c use = .ok a) ↔
      possible ∧ (c.environment.agent = .random → Countable c) := by
  unfold withConfigured
  cases hagent : c.environment.agent with
  | random =>
    rw [← randomAgent_ok_iff]
    constructor
    · rintro ⟨a, h⟩
      obtain ⟨state, hstate, h⟩ := Fault.bind_eq_ok.1 h
      exact ⟨(huse _ _ _).1 ⟨a, h⟩, fun _ => ⟨state, hstate⟩⟩
    · rintro ⟨hpossible, hstate⟩
      obtain ⟨state, hstate⟩ := hstate rfl
      obtain ⟨a, ha⟩ := (huse _ RandomAgent.agent state).2 hpossible
      exact ⟨a, Fault.bind_eq_ok.2 ⟨state, hstate, ha⟩⟩
  | remote url timeout =>
    rw [huse]
    exact ⟨fun h => ⟨h, nofun⟩, And.left⟩

/-- The report on a run that has only been set up, with the agent that the configuration names. -/
def atOnce (c : Config) : Except Fault Report :=
  withConfigured c fun _ agent state => do (← Simulation.new c agent state).report

end Run

/-! ## All together -/

namespace Config

variable {c : Config}

/-- What the rules leave open about places, tables and frames. -/
structure Feasible (c : Config) : Prop where
  area : c.nodes = [] → c.placement.Bounded
  claims : c.nodeCount * c.frame.dataSlots * ClaimTable.entryBytes < Memory.limit
  slots : (c.nodeCount + c.frame.dataSlots) * Controller.slotBytes < Memory.limit
  rewards : c.reservation.maxSlotsPerAction * Controller.rewardBytes < Memory.limit
  frame : Timing.frameLength c.frame c.nodeCount < Time.limit

theorem ofMicros_add_lt {slot guard : Nat} (hslot : slot < 2 ^ 63) (hguard : guard < 2 ^ 64) :
    Time.ofMicros slot + Time.ofMicros guard < Time.limit :=
  Nat.lt_of_lt_of_le
    (Nat.add_lt_add (Nat.mul_lt_mul_of_pos_right hslot (by decide))
      (Nat.mul_lt_mul_of_pos_right hguard (by decide)))
    (by decide : 2 ^ 63 * 1000 + 2 ^ 64 * 1000 ≤ Time.limit)

theorem frameDuration_ok_iff (hfits : LayoutFits c.frame) :
    (∃ length, Timing.frameDuration c.frame c.nodeCount = .ok length) ↔
      Timing.frameLength c.frame c.nodeCount < Time.limit := by
  constructor
  · rintro ⟨length, h⟩
    obtain ⟨rfl, hlimit⟩ := Timing.frameDuration_eq_ok h
    exact hlimit
  · intro hlimit
    exact ⟨_, Timing.frameDuration_of_lt (ofMicros_add_lt hfits.controlSlotTimeUs hfits.guardTimeUs)
      (ofMicros_add_lt hfits.slotTimeUs hfits.guardTimeUs) hlimit⟩

theorem report_ok_iff {σ : Type} {agent : Agent σ} {state : σ} {s : Simulation σ}
    (hfits : LayoutFits c.frame) (hs : Simulation.new c agent state = .ok s) :
    (∃ r, s.report = .ok r) ↔ Timing.frameLength c.frame c.nodeCount < Time.limit := by
  obtain ⟨network, hnetwork, rfl⟩ := Fault.map_eq_ok.1 hs
  obtain ⟨points, -, hnetwork⟩ := Fault.bind_eq_ok.1 hnetwork
  obtain ⟨controller, hcontroller, hnetwork⟩ := Fault.bind_eq_ok.1 hnetwork
  cases hnetwork
  obtain ⟨total, claims, -, -, -, -, rfl⟩ := Controller.ofConfig_eq_ok_iff.1 hcontroller
  rw [← frameDuration_ok_iff hfits]
  constructor
  · rintro ⟨r, hr⟩
    obtain ⟨length, hlength, -⟩ := Fault.map_eq_ok.1 hr
    exact ⟨length, hlength⟩
  · rintro ⟨length, hlength⟩
    exact ⟨_, Fault.map_eq_ok.2 ⟨length, hlength, rfl⟩⟩

theorem new_ok_iff {σ : Type} (agent : Agent σ) (state : σ) :
    (∃ s, Simulation.new c agent state = .ok s) ↔
      (∃ points, Placement.ofConfig c = .ok points) ∧
        ∃ controller, Controller.ofConfig c = .ok controller := by
  constructor
  · rintro ⟨s, hs⟩
    obtain ⟨network, hnetwork, -⟩ := Fault.map_eq_ok.1 hs
    obtain ⟨points, hpoints, hnetwork⟩ := Fault.bind_eq_ok.1 hnetwork
    obtain ⟨controller, hcontroller, -⟩ := Fault.bind_eq_ok.1 hnetwork
    exact ⟨⟨points, hpoints⟩, controller, hcontroller⟩
  · rintro ⟨⟨points, hpoints⟩, controller, hcontroller⟩
    exact ⟨_, Fault.map_eq_ok.2 ⟨_, Fault.bind_eq_ok.2 ⟨points, hpoints,
      Fault.bind_eq_ok.2 ⟨controller, hcontroller, rfl⟩⟩, rfl⟩⟩

theorem new_and_report_iff_feasible {σ : Type} (agent : Agent σ) (state : σ)
    (hnodes : 0 < c.nodeCount) (hfits : LayoutFits c.frame) :
    (∃ s, Simulation.new c agent state = .ok s ∧ ∃ r, s.report = .ok r) ↔ c.Feasible := by
  constructor
  · rintro ⟨s, hs, hr⟩
    have hframe := (report_ok_iff hfits hs).1 hr
    obtain ⟨hpoints, hcontroller⟩ := (new_ok_iff agent state).1 ⟨s, hs⟩
    obtain ⟨hclaims, hslots, hrewards⟩ := Controller.ofConfig_ok_iff.1 hcontroller
    exact ⟨(Placement.ofConfig_ok_iff hnodes).1 hpoints, hclaims, hslots, hrewards, hframe⟩
  · intro hc
    obtain ⟨s, hs⟩ := (new_ok_iff agent state).2 ⟨(Placement.ofConfig_ok_iff hnodes).2 hc.area,
      Controller.ofConfig_ok_iff.2 ⟨hc.claims, hc.slots, hc.rewards⟩⟩
    exact ⟨s, hs, (report_ok_iff hfits hs).2 hc.frame⟩

/-- An accepted document is set up and reported on, with the agent that it names, if and only if it is
feasible and that agent can be made; with any other agent, if and only if it is feasible. Where a log is
kept, it has been seen before that a frame is no longer than a time. -/
theorem new_and_report_ok_iff {logged : Bool} {source : String}
    (h : accept logged source = .ok (.ok c)) :
    ((∃ r, Run.atOnce c = .ok r) ↔
      c.Feasible ∧ (c.environment.agent = .random → Run.Countable c)) ∧
    (∀ (σ : Type) (agent : Agent σ) (state : σ),
      (∃ s, Simulation.new c agent state = .ok s ∧ ∃ r, s.report = .ok r) ↔ c.Feasible) ∧
    (logged → Timing.frameLength c.frame c.nodeCount < Time.limit) := by
  have hfits := fits_of_accept h
  have hnodes := (accepted_of_accept h).nodeCount.1
  have hany := fun σ (agent : Agent σ) state =>
    new_and_report_iff_feasible agent state hnodes hfits
  refine ⟨Run.withConfigured_ok_iff fun σ agent state => ?_, hany, fun hlogged => ?_⟩
  · rw [← hany σ agent state]
    constructor
    · rintro ⟨r, hr⟩
      obtain ⟨s, hs, hr⟩ := Fault.bind_eq_ok.1 hr
      exact ⟨s, hs, r, hr⟩
    · rintro ⟨s, hs, r, hr⟩
      exact ⟨r, Fault.bind_eq_ok.2 ⟨s, hs, hr⟩⟩
  · subst hlogged
    exact (frameDuration_ok_iff hfits).1 (accept_logged_iff.1 h).2

theorem exists_of_accept (logged : Bool) (source : String) {p : Config → Bool}
    (h : ((accept logged source).toOption.bind Except.toOption).any p) :
    ∃ c, accept logged source = .ok (.ok c) ∧ p c := by
  obtain ⟨c, hc, hp⟩ := (Option.any_eq_true _ _).1 h
  obtain ⟨answer, hanswer, hc⟩ := Option.bind_eq_some_iff.1 hc
  rw [Fault.toOption_eq_some] at hanswer hc
  exact ⟨c, by rw [hanswer, hc], hp⟩

def lone : String := "nodes = [[0.0, 0.0]]\n"

theorem new_and_report_lone : ∃ c, accept true lone = .ok (.ok c) ∧ c.Feasible ∧
    Run.Countable c ∧ ∃ r, Run.atOnce c = .ok r := by
  obtain ⟨c, hc, hp⟩ := exists_of_accept true lone (p := fun c => !c.nodes.isEmpty &&
    decide (c.nodeCount * c.frame.dataSlots * ClaimTable.entryBytes < Memory.limit) &&
    decide ((c.nodeCount + c.frame.dataSlots) * Controller.slotBytes < Memory.limit) &&
    decide (c.reservation.maxSlotsPerAction * Controller.rewardBytes < Memory.limit) &&
    decide (c.frame.slotTime * c.frame.dataRate < Timing.productLimit)) (by decide +kernel)
  simp only [Bool.and_eq_true, Bool.not_eq_true', decide_eq_true_eq] at hp
  obtain ⟨⟨⟨⟨hgiven, hclaims⟩, hslots⟩, hrewards⟩, hcountable⟩ := hp
  obtain ⟨hnamed, -, hframe⟩ := new_and_report_ok_iff hc
  have hfeasible : c.Feasible :=
    ⟨fun hnil => absurd hgiven (by rw [hnil]; decide), hclaims, hslots, hrewards, hframe rfl⟩
  exact ⟨c, hc, hfeasible, hcountable, hnamed.2 ⟨hfeasible, fun _ => hcountable⟩⟩

def endlessArea : String := "[placement]\nwidth_m = inf\n"

/-- Four nodes with `2 ^ 62` data slots each. -/
def countlessClaims : String :=
  "nodes = [[0.0, 0.0], [0.0, 0.0], [0.0, 0.0], [0.0, 0.0]]\n" ++
    "[frame]\ndata_slots = 4611686018427387904\n"

/-- `2 ^ 60` data slots. -/
def hugeTable : String := "nodes = [[0.0, 0.0]]\n[frame]\ndata_slots = 1152921504606846976\n"

/-- Rewards for `2 ^ 62` choices. -/
def hugeRewards : String :=
  "nodes = [[0.0, 0.0]]\n[reservation]\nmax_slots_per_action = 4611686018427387904\n"

/-- The longest slots and the fastest link, without traffic. -/
def idleExtremes : String :=
  "[traffic]\nenabled = false\n[frame]\nslot_time_us = 9223372036854775807\n" ++
    "data_rate_bps = 9223372036854775807\n"

/-- A million of the longest slots. -/
def longestFrame : String :=
  "nodes = [[0.0, 0.0]]\n[traffic]\nenabled = false\n[frame]\ndata_slots = 1000001\n" ++
    "slot_time_us = 9223372036854775807\nguard_time_us = 9223372036854775807\n"

/-- The rules accept all of them, yet there are no positions, no controller, no agent and no length of a
frame. The last one is accepted only where no log is kept. -/
theorem accepted_infeasible :
    (∃ c, ofToml endlessArea = .ok (.ok c) ∧ Placement.ofConfig c = .error .unboundedRange) ∧
    (∃ c, ofToml countlessClaims = .ok (.ok c) ∧ Controller.ofConfig c = .error .countOverflow) ∧
    (∃ c, ofToml hugeTable = .ok (.ok c) ∧ Controller.ofConfig c = .error .tableOverflow) ∧
    (∃ c, ofToml hugeRewards = .ok (.ok c) ∧ Controller.ofConfig c = .error .tableOverflow) ∧
    (∃ c, ofToml idleExtremes = .ok (.ok c) ∧ Run.atOnce c = .error .capacityOverflow) ∧
    ofToml longestFrame = .error .timeOverflow ∧
      ∃ c, accept false longestFrame = .ok (.ok c) ∧
        Timing.frameDuration c.frame c.nodeCount = .error .timeOverflow := by
  have hcontroller : ∀ {source fault}, ((accept true source).toOption.bind Except.toOption).any
      (fun c => decide (Controller.ofConfig c = .error fault)) →
      ∃ c, ofToml source = .ok (.ok c) ∧ Controller.ofConfig c = .error fault := by
    intro source fault h
    obtain ⟨c, hc, hp⟩ := exists_of_accept true source h
    exact ⟨c, hc, of_decide_eq_true hp⟩
  refine ⟨?places, hcontroller (by decide +kernel), hcontroller (by decide +kernel),
    hcontroller (by decide +kernel), ?agent, by decide +kernel, ?frames⟩
  case places =>
    obtain ⟨c, hc, hp⟩ := exists_of_accept true endlessArea
      (p := fun c => decide (Placement.ofConfig c = .error .unboundedRange)) (by decide +kernel)
    exact ⟨c, hc, of_decide_eq_true hp⟩
  case agent =>
    obtain ⟨c, hc, hp⟩ := exists_of_accept true idleExtremes
      (p := fun c => decide (Run.atOnce c = .error .capacityOverflow)) (by decide +kernel)
    exact ⟨c, hc, of_decide_eq_true hp⟩
  case frames =>
    obtain ⟨c, hc, hp⟩ := exists_of_accept false longestFrame
      (p := fun c => decide (Timing.frameDuration c.frame c.nodeCount = .error .timeOverflow))
      (by decide +kernel)
    exact ⟨c, hc, of_decide_eq_true hp⟩

end Config

end SlotNet
