import SlotNet.Proofs.Cadence
import SlotNet.Proofs.SettingUp

/-!
# How long a frame lasts, and how long it is said to last

Between the beginnings of two frames lie all slots with their guard times, and the gap
(`Watch.OnTime.next_frame`). The length of a frame is told by a product for the control slots and one
for the data slots (`FrameLayout.period_eq`), in which only the low 32 bits of the number of data slots
count. So what is told is the length of the frame if and only if there are fewer than `2 ^ 32` data slots
(`Config.frame_length_told`).
-/

namespace SlotNet

namespace FrameLayout

variable (l : FrameLayout) (nodes : Nat)

/-! ## The length as a product -/

theorem offset_of_le {slot : Nat} (h : slot ≤ nodes) :
    l.offset nodes slot = (l.controlSlotTime + l.guardTime) * slot := by
  induction slot with
  | zero => rfl
  | succ slot ih =>
    have hcontrol : Timing.slotDuration l nodes slot = l.controlSlotTime :=
      if_pos (decide_eq_true h)
    rw [offset_succ, ih (Nat.le_of_succ_le h), hcontrol, Nat.mul_succ]

theorem offset_add (slot : Nat) :
    l.offset nodes (nodes + slot) =
      (l.controlSlotTime + l.guardTime) * nodes + (l.slotTime + l.guardTime) * slot := by
  induction slot with
  | zero => exact l.offset_of_le nodes (Nat.le_refl _)
  | succ slot ih =>
    have hdata : Timing.slotDuration l nodes (nodes + slot) = l.slotTime :=
      if_neg fun h => Nat.not_lt_of_le (Nat.le_add_right _ _) (of_decide_eq_true h)
    rw [← Nat.add_assoc, offset_succ, ih, hdata, Nat.mul_succ, Nat.add_assoc]

theorem period_eq :
    l.period nodes = (l.controlSlotTime + l.guardTime) * nodes +
      (l.slotTime + l.guardTime) * l.dataSlots + l.interFrameGap := by
  rw [period, slots, offset_add]

/-- The data slots that the length of a frame leaves out, those beyond the low 32 bits. -/
def uncounted : Nat := l.dataSlots / 4294967296 * 4294967296

theorem low32_add_uncounted : Timing.low32 l.dataSlots + l.uncounted = l.dataSlots := by
  rw [Timing.low32, uncounted, Nat.mul_comm]
  exact Nat.mod_add_div _ _

theorem uncounted_eq_zero_iff : l.uncounted = 0 ↔ l.dataSlots < 4294967296 := by
  rw [uncounted]
  omega

theorem frameLength_add_uncounted (hnodes : nodes < 4294967296) :
    Timing.frameLength l nodes + (l.slotTime + l.guardTime) * l.uncounted = l.period nodes := by
  have hcounted : Timing.low32 nodes = nodes := Nat.mod_eq_of_lt hnodes
  rw [period_eq, Timing.frameLength, hcounted, Nat.add_right_comm, Nat.add_assoc _ _ (_ * l.uncounted),
    ← Nat.mul_add, low32_add_uncounted]

end FrameLayout

/-! ## Two frames, one after the other -/

theorem Event.opening_eq_startFrame_iff {slot : Nat} : opening slot = .startFrame ↔ slot = 0 := by
  cases slot with
  | zero => exact iff_of_true rfl rfl
  | succ slot => exact iff_of_false nofun nofun

namespace Watch

variable {σ : Type} {w : Watch σ} {c : Config}

theorem OnTime.next_frame (hc : c.Accepted) (hw : w.OnTime c) {i j : Nat} {e e' : Entry Event}
    (hij : i < j) (he : w.begun[i]? = some e) (he' : w.begun[j]? = some e')
    (hframe : e.event = .startFrame) (hframe' : e'.event = .startFrame)
    (hnone : ∀ k x, i < k → k < j → w.begun[k]? = some x → x.event ≠ .startFrame) :
    e'.time = e.time + c.frame.period c.nodeCount := by
  obtain ⟨hevent, htime⟩ := hw.begun i e he
  obtain ⟨hevent', htime'⟩ := hw.begun j e' he'
  have hpos := hc.slots_pos
  have hi : i % c.frame.slots c.nodeCount = 0 :=
    Event.opening_eq_startFrame_iff.1 (hevent.symm.trans hframe)
  have hj : j % c.frame.slots c.nodeCount = 0 :=
    Event.opening_eq_startFrame_iff.1 (hevent'.symm.trans hframe')
  have hnext : j = i + c.frame.slots c.nodeCount := by
    obtain ⟨a, rfl⟩ := Nat.dvd_of_mod_eq_zero hi
    obtain ⟨b, rfl⟩ := Nat.dvd_of_mod_eq_zero hj
    have hab : a + 1 ≤ b := Nat.lt_of_mul_lt_mul_left hij
    rcases Nat.lt_or_eq_of_le hab with hlt | rfl
    · -- a whole frame later another frame would have begun
      have hbefore : c.frame.slots c.nodeCount * (a + 1) < c.frame.slots c.nodeCount * b :=
        Nat.mul_lt_mul_of_pos_left hlt hpos
      have hlength : c.frame.slots c.nodeCount * (a + 1) < w.begun.length :=
        Nat.lt_trans hbefore (List.getElem?_eq_some_iff.1 he').1
      have hmid := List.getElem?_eq_getElem hlength
      refine absurd ?_ (hnone _ _ (Nat.mul_lt_mul_of_pos_left (Nat.lt_succ_self a) hpos) hbefore hmid)
      rw [(hw.begun _ _ hmid).1, Nat.mul_mod_right]
      rfl
    · exact Nat.mul_succ _ _
  have hslots : (i + c.frame.slots c.nodeCount) % c.frame.slots c.nodeCount = 0 := by
    rw [Nat.add_mod_right, hi]
  have hframes : (i + c.frame.slots c.nodeCount) / c.frame.slots c.nodeCount =
      i / c.frame.slots c.nodeCount + 1 := Nat.add_div_right i hpos
  rw [htime', htime, hnext, FrameLayout.startOf, FrameLayout.startOf, hslots, hframes, hi,
    FrameLayout.slotStart, FrameLayout.slotStart, Nat.succ_mul, ← Nat.add_assoc, Nat.add_right_comm]

end Watch

/-! ## What is told -/

namespace Config

variable {c : Config}

theorem Accepted.nodeCount_lt (hc : c.Accepted) : c.nodeCount < 4294967296 :=
  Nat.lt_of_le_of_lt hc.nodeCount.2 (by decide)

theorem Accepted.frameDuration_eq (hc : c.Accepted)
    (hlimit : c.frame.period c.nodeCount < Time.limit) :
    Timing.frameDuration c.frame c.nodeCount = .ok (Timing.frameLength c.frame c.nodeCount) := by
  have hmissing := c.frame.frameLength_add_uncounted c.nodeCount hc.nodeCount_lt
  have htold : Timing.frameLength c.frame c.nodeCount ≤ c.frame.period c.nodeCount :=
    hmissing ▸ Nat.le_add_right _ _
  rw [c.frame.period_eq] at hlimit
  have hslots := Nat.lt_of_le_of_lt (Nat.le_add_right _ c.frame.interFrameGap) hlimit
  have hcontrol := Nat.lt_of_le_of_lt (Nat.le_add_right _ _) hslots
  have hdata := Nat.lt_of_le_of_lt (Nat.le_add_left _ _) hslots
  rw [← c.frame.period_eq] at hlimit
  exact Timing.frameDuration_of_lt
    (Nat.lt_of_le_of_lt (Nat.le_mul_of_pos_right _ hc.nodeCount.1) hcontrol)
    (Nat.lt_of_le_of_lt (Nat.le_mul_of_pos_right _ hc.dataSlots) hdata)
    (Nat.lt_of_le_of_lt htold hlimit)

theorem Accepted.uncounted_time_eq_zero_iff (hc : c.Accepted) :
    (c.frame.slotTime + c.frame.guardTime) * c.frame.uncounted = 0 ↔
      c.frame.dataSlots < 4294967296 := by
  have hpos : 0 < c.frame.slotTime + c.frame.guardTime :=
    Nat.lt_of_lt_of_le hc.slotTimes.1 (Nat.le_add_right _ _)
  rw [← c.frame.uncounted_eq_zero_iff, Nat.mul_eq_zero]
  exact or_iff_right (Nat.ne_of_gt hpos)

/-- As long as all slots of a frame with their guard times, and the gap, are together a time: this is
exactly the time between the beginnings of two frames of any run, one after the other, and a length
is told. What is told falls short by the data slots beyond the low 32 bits of their number, so it is right if
and only if there are fewer than `2 ^ 32` data slots. -/
theorem frame_length_told (hc : c.Accepted) {total : Nat}
    (htotal : Timing.totalSlots c.frame c.nodeCount = .ok total)
    (hlimit : c.frame.offset c.nodeCount total + c.frame.interFrameGap < Time.limit) :
    (∀ (σ : Type) (agent : Agent σ) (agentState : σ) (s s' : Simulation σ) (acts : List Watch.Act)
      (w : Watch σ), Simulation.new c agent agentState = .ok s → s.begin = .ok s' →
      Watch.run acts (Watch.start s') = some w →
      ∀ (i j : Nat) (e e' : Entry Event), i < j → w.begun[i]? = some e → w.begun[j]? = some e' →
        e.event = .startFrame → e'.event = .startFrame →
        (∀ k x, i < k → k < j → w.begun[k]? = some x → x.event ≠ .startFrame) →
        e'.time = e.time + (c.frame.offset c.nodeCount total + c.frame.interFrameGap)) ∧
    ∃ told, Timing.frameDuration c.frame c.nodeCount = .ok told ∧
      told + (c.frame.slotTime + c.frame.guardTime) * (c.frame.dataSlots / 4294967296 * 4294967296) =
        c.frame.offset c.nodeCount total + c.frame.interFrameGap ∧
      (told = c.frame.offset c.nodeCount total + c.frame.interFrameGap ↔
        c.frame.dataSlots < 4294967296) := by
  obtain ⟨rfl, -⟩ := Count.add_eq_ok htotal
  refine ⟨fun σ agent agentState s s' acts w hnew hbegin hrun i j e e' hij he he' hframe hframe' hnone =>
    ?between, _, hc.frameDuration_eq hlimit, ?missing, ?right⟩
  case between =>
    have hw := (Watch.OnTime.start (Simulation.still_of_new hnew) hbegin).run hc hrun
    exact hw.next_frame hc hij he he' hframe hframe' hnone
  case missing => exact c.frame.frameLength_add_uncounted c.nodeCount hc.nodeCount_lt
  case right =>
    have hmissing := c.frame.frameLength_add_uncounted c.nodeCount hc.nodeCount_lt
    show Timing.frameLength c.frame c.nodeCount = c.frame.period c.nodeCount ↔ _
    rw [← hmissing, ← hc.uncounted_time_eq_zero_iff]
    exact Nat.left_eq_add

/-- Two nodes and one data slot. The second frame begins as long after the first one as is told. -/
theorem frame_length_told_pair : ∃ s s' w,
    Simulation.new Config.pair (.forNodes [some [0], some []]) Script.silence = .ok s ∧
    s.begin = .ok s' ∧ Watch.run Watch.twoPackets (Watch.start s') = some w ∧
    Timing.totalSlots Config.pair.frame Config.pair.nodeCount = .ok 3 ∧
    Config.pair.frame.offset Config.pair.nodeCount 3 + Config.pair.frame.interFrameGap < Time.limit ∧
    Timing.frameDuration Config.pair.frame Config.pair.nodeCount = .ok 2200000 ∧
    ∃ e e', w.begun[0]? = some e ∧ w.begun[3]? = some e' ∧ e'.time = e.time + 2200000 := by
  obtain ⟨s, s', hnew, hbegin, hrun⟩ := Watch.run_pair
  obtain ⟨w, hw, hslots⟩ := Option.map_eq_some_iff.1 hrun
  have htotal : Timing.totalSlots Config.pair.frame Config.pair.nodeCount = .ok 3 := rfl
  have hlimit : Config.pair.frame.offset Config.pair.nodeCount 3 +
      Config.pair.frame.interFrameGap < Time.limit := by decide
  obtain ⟨hbetween, told, htold, -, hright⟩ :=
    frame_length_told Config.accepted_pair htotal hlimit
  obtain rfl := hright.2 (by decide)
  have hlength : w.begun.length = 6 := hslots
  have hon := (Watch.OnTime.start (Simulation.still_of_new hnew) hbegin).run Config.accepted_pair hw
  have hbegun : ∀ i (hi : i < 6), ∃ e, w.begun[i]? = some e ∧ e.event = Event.opening (i % 3) := by
    intro i hi
    have he := List.getElem?_eq_getElem (hlength ▸ hi : i < w.begun.length)
    exact ⟨_, he, (hon.begun i _ he).1⟩
  obtain ⟨e, he, hframe⟩ := hbegun 0 (by decide)
  obtain ⟨e', he', hframe'⟩ := hbegun 3 (by decide)
  refine ⟨s, s', w, hnew, hbegin, hw, htotal, hlimit, htold, e, e', he, he', ?_⟩
  refine hbetween _ _ _ s s' _ w hnew hbegin hw 0 3 e e' (by decide) he he' hframe hframe' ?_
  intro k x hk hk' hx
  obtain ⟨y, hy, hopening⟩ := hbegun k (by omega)
  obtain rfl := Option.some.inj (hx.symm.trans hy)
  rw [hopening, Ne, Event.opening_eq_startFrame_iff]
  omega

/-- One node with `2 ^ 32` data slots. -/
def manySlots : String := "nodes = [[0.0, 0.0]]\n[frame]\ndata_slots = 4294967296\n"

/-- Of the two months that a frame of so many slots lasts, only the control slot is told. -/
theorem frame_length_told_short : ∃ c, ofToml manySlots = .ok (.ok c) ∧
    Timing.totalSlots c.frame c.nodeCount = .ok 4294967297 ∧
    Timing.frameDuration c.frame c.nodeCount = .ok 500000 ∧
    c.frame.offset c.nodeCount 4294967297 + c.frame.interFrameGap = 5153960755700000 ∧
    5153960755700000 < Time.limit := by
  obtain ⟨c, hc, hp⟩ := exists_of_accept true manySlots (p := fun c =>
    decide (c.nodeCount = 1) && decide (c.frame.dataSlots = 4294967296) &&
      decide (c.frame.controlSlotTime = 500000) && decide (c.frame.slotTime = 1200000) &&
      decide (c.frame.guardTime = 0) && decide (c.frame.interFrameGap = 0)) (by decide +kernel)
  simp only [Bool.and_eq_true, decide_eq_true_eq] at hp
  obtain ⟨⟨⟨⟨⟨hnodes, hslots⟩, hcontrol⟩, hdata⟩, hguard⟩, hgap⟩ := hp
  have htotal : 4294967297 = c.nodeCount + 4294967296 := by rw [hnodes]
  refine ⟨c, hc, ?_, ?_, ?_, by decide⟩
  · rw [Timing.totalSlots, hnodes, hslots]
    rfl
  · rw [Timing.frameDuration, hnodes, hslots, hcontrol, hdata, hguard, hgap]
    rfl
  · rw [htotal, FrameLayout.offset_add, hnodes, hcontrol, hdata, hguard, hgap]

end Config

end SlotNet
