import SlotNet.Config.Check

/-!
# Accepted configurations

What the rules of `Config.check` promise to the rest.
-/

namespace SlotNet.Config

/-- Does the configuration break no rule? -/
def Accepted (c : Config) : Prop := c.check = .ok (.ok ())

theorem validate_eq_ok_iff {logged : Bool} {c : Config} : c.validate logged = .ok (.ok ()) ↔
    c.Accepted ∧ (logged → ∃ length, Timing.frameDuration c.frame c.nodeCount = .ok length) := by
  unfold validate Accepted
  constructor
  · intro h
    obtain ⟨result, hcheck, h⟩ := Fault.bind_eq_ok.1 h
    cases result with
    | error e => cases h
    | ok u =>
      refine ⟨hcheck, fun hlogged => ?_⟩
      obtain ⟨length, hlength, -⟩ := Fault.bind_eq_ok.1 ((if_pos hlogged).symm.trans h)
      exact ⟨length, hlength⟩
  · rintro ⟨hcheck, hlength⟩
    refine Fault.bind_eq_ok.2 ⟨_, hcheck, ?_⟩
    cases logged with
    | false => rfl
    | true =>
      obtain ⟨length, hlength⟩ := hlength rfl
      exact Fault.bind_eq_ok.2 ⟨length, hlength, rfl⟩

section Accept

variable {logged : Bool} {source : String} {c : Config}

theorem accept_eq_ok_iff : accept logged source = .ok (.ok c) ↔
    ∃ entries given, Toml.parse? source = some entries ∧ ofEntries? entries = some given ∧
      given.resolve.validate logged = .ok (.ok ()) ∧ c = given.resolve := by
  constructor
  · intro h
    unfold accept acceptEntries at h
    split at h
    · cases h
    · rename_i entries hparse
      split at h
      · cases h
      · rename_i given hread
        obtain ⟨result, hvalid, hc⟩ := Fault.map_eq_ok.1 h
        cases result with
        | error e => cases hc
        | ok u =>
          cases hc
          exact ⟨entries, given, hparse, hread, hvalid, rfl⟩
  · rintro ⟨entries, given, hparse, hread, hvalid, rfl⟩
    rw [accept, hparse]
    dsimp only
    rw [acceptEntries, hread]
    dsimp only
    rw [hvalid]
    rfl

theorem accepted_of_accept (h : accept logged source = .ok (.ok c)) : c.Accepted := by
  obtain ⟨entries, given, -, -, hvalid, rfl⟩ := accept_eq_ok_iff.1 h
  exact (validate_eq_ok_iff.1 hvalid).1

/-- With a log, what has frames of no length that is a time is not accepted either. -/
theorem accept_logged_iff : accept true source = .ok (.ok c) ↔
    accept false source = .ok (.ok c) ∧
      ∃ length, Timing.frameDuration c.frame c.nodeCount = .ok length := by
  simp only [accept_eq_ok_iff, validate_eq_ok_iff]
  constructor
  · rintro ⟨entries, given, hparse, hread, ⟨hcheck, hlength⟩, rfl⟩
    exact ⟨⟨entries, given, hparse, hread, ⟨hcheck, nofun⟩, rfl⟩, hlength trivial⟩
  · rintro ⟨⟨entries, given, hparse, hread, ⟨hcheck, -⟩, rfl⟩, hlength⟩
    exact ⟨entries, given, hparse, hread, ⟨hcheck, fun _ => hlength⟩, rfl⟩

end Accept

theorem Accepted.rules {c : Config} (h : c.Accepted) :
    checkRun c = .ok () ∧ checkLink c = .ok () ∧ checkAgent c = .ok () := by
  unfold Accepted check at h
  cases h1 : (do checkRun c; checkLink c; checkAgent c) with
  | error e => rw [h1] at h; cases h
  | ok u =>
    obtain ⟨_, hr, h1⟩ := Fault.bind_eq_ok.1 h1
    obtain ⟨_, hl, ha⟩ := Fault.bind_eq_ok.1 h1
    exact ⟨hr, hl, ha⟩

theorem Accepted.traffic {c : Config} (h : c.Accepted) : c.checkTraffic = .ok (.ok ()) := by
  unfold Accepted check at h
  split at h
  · cases h
  · obtain ⟨r, hr, h⟩ := Fault.bind_eq_ok.1 h
    cases r with
    | error e => cases h
    | ok u => exact hr

theorem Accepted.nodeCount {c : Config} (h : c.Accepted) :
    0 < c.nodeCount ∧ c.nodeCount ≤ ConfigError.mostNodes := by
  have hr := h.rules.1
  unfold checkRun at hr
  by_cases h0 : c.nodeCount = 0
  · rw [if_pos h0] at hr; cases hr
  · by_cases h1 : ConfigError.mostNodes < c.nodeCount
    · rw [if_neg h0, if_pos h1] at hr; cases hr
    · omega

theorem Accepted.link {c : Config} (h : c.Accepted) : 0 < c.frame.dataSlots ∧
    0 < c.frame.slotTimeUs ∧ 0 < c.frame.controlSlotTimeUs ∧ 0 < c.frame.dataRate ∧
    0.0 < c.maxRangeM := by
  have hl := h.rules.2.1
  unfold checkLink at hl
  by_cases hslots : c.frame.dataSlots = 0
  · rw [if_pos hslots] at hl; cases hl
  by_cases htimes : c.frame.slotTimeUs = 0 ∨ c.frame.controlSlotTimeUs = 0
  · rw [if_neg hslots, if_pos htimes] at hl; cases hl
  by_cases hrate : c.frame.dataRate = 0
  · rw [if_neg hslots, if_neg htimes, if_pos hrate] at hl; cases hl
  by_cases hrange : 0.0 < c.maxRangeM
  · obtain ⟨hdata, hcontrol⟩ := not_or.1 htimes
    exact ⟨Nat.pos_of_ne_zero hslots, Nat.pos_of_ne_zero hdata, Nat.pos_of_ne_zero hcontrol,
      Nat.pos_of_ne_zero hrate, hrange⟩
  · rw [if_neg hslots, if_neg htimes, if_neg hrate, if_pos hrange] at hl; cases hl

theorem Accepted.dataSlots {c : Config} (h : c.Accepted) : 0 < c.frame.dataSlots := h.link.1

theorem Accepted.slotTimes {c : Config} (h : c.Accepted) :
    0 < c.frame.slotTime ∧ 0 < c.frame.controlSlotTime :=
  ⟨Nat.mul_pos h.link.2.1 (by decide), Nat.mul_pos h.link.2.2.1 (by decide)⟩

theorem Accepted.dataRate {c : Config} (h : c.Accepted) : 0 < c.frame.dataRate := h.link.2.2.2.1

theorem Accepted.maxRange {c : Config} (h : c.Accepted) : 0.0 < c.maxRangeM := h.link.2.2.2.2

theorem Accepted.packetSize {c : Config} (h : c.Accepted) (ht : c.traffic.enabled) :
    ∃ capacity, Timing.capacity c.frame.slotTime c.frame.dataRate = .ok capacity ∧
      c.traffic.packetSize + Frame.overhead ≤ capacity := by
  have hc := h.traffic
  unfold checkTraffic at hc
  rw [if_neg (not_not_intro ht)] at hc
  split at hc
  · cases hc
  · obtain ⟨capacity, hcapacity, hc⟩ := Fault.bind_eq_ok.1 hc
    obtain ⟨size, hsize, hc⟩ := Fault.bind_eq_ok.1 hc
    obtain ⟨rfl, -⟩ := Count.add_eq_ok hsize
    split at hc
    · cases hc
    · rename_i hfits
      exact ⟨capacity, hcapacity, Nat.le_of_not_lt hfits⟩

theorem Accepted.threshold {c : Config} (h : c.Accepted) :
    0 < c.reservation.priorityThreshold ∧ c.reservation.priorityThreshold ≤ 9 := by
  have ha := h.rules.2.2
  unfold checkAgent at ha
  by_cases h0 : c.reservation.priorityThreshold = 0 ∨ 9 < c.reservation.priorityThreshold
  · rw [if_pos h0] at ha; cases ha
  · omega

/-- Four nodes in a row, and one data slot. -/
def row : Config :=
  { nodes := [⟨0.0, 0.0⟩, ⟨200.0, 0.0⟩, ⟨400.0, 0.0⟩, ⟨600.0, 0.0⟩], frame := { dataSlots := 1 } }

theorem accepted_row : row.Accepted := rfl

/-- The nodes in a row, and four data slots. -/
def wideRow : Config := { row with frame := { dataSlots := 4 } }

end SlotNet.Config
