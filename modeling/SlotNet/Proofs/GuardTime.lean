import SlotNet.Proofs.Announcing
import SlotNet.Proofs.Mirror
import SlotNet.Proofs.Products
import SlotNet.Proofs.SettingUp

/-!
# The guard time for a range

A configuration may ask for a guard time as long as light takes over the range. That time is no shorter
than any travel within the range (`propagationDelay_le_guardForRange`), but only its whole microseconds
are kept. So the guard time may fall short of a travel time by less than a microsecond, and of a guard
time below a microsecond nothing is left. From 30 kilometres on it does cover the range, because light is
reckoned faster by one part in a hundred on the way than for the guard time.
-/

namespace SlotNet

open Rounding

/-! ## Travel times -/

namespace Timing

variable {d range : Float}

theorem isValue_nanosPerMetre : IsValue (parts nanosPerMetre) 7430939385161318 (-51) := by
  decide +kernel

theorem isValue_billion : IsValue (parts 1e9) 8388608000000000 (-23) := by decide +kernel

theorem isValue_lightSpeed : IsValue (parts lightSpeed) 5033164800000000 (-24) := by decide +kernel

theorem longest_le : longest ≤ 2 ^ 64 := by decide

theorem propagationDelay_of_not_above (h : ¬ Above (parts d)) : propagationDelay d = 0 :=
  truncate_eq_zero (not_above_mul isValue_nanosPerMetre h) longest

theorem propagationDelay_of_infinite (h : parts range = .infinity .positive) :
    propagationDelay range = longest := by
  rw [propagationDelay, Binary.truncate, ofFloat_eq, parts_mul_infinite isValue_nanosPerMetre h]
  rfl

theorem propagationDelay_mono (hr : Above (parts range)) (h : ¬ range < d) :
    propagationDelay d ≤ propagationDelay range := by
  by_cases hd : Above (parts d)
  · rcases infinite_or_isValue hr with hr | ⟨n, f, hr⟩
    · rw [propagationDelay_of_infinite hr]
      exact propagationDelay_le d
    · rcases infinite_or_isValue hd with hd | ⟨m, e, hd⟩
      · -- nothing infinite is within a finite range
        obtain ⟨_, hr⟩ := hr
        rw [lt_iff, hr, hd] at h
        exact absurd rfl h
      · have hle : d ≤ range := by
          rw [hr.lt_iff hd] at h
          rw [hd.le_iff hr]
          omega
        exact truncate_mul_mono isValue_nanosPerMetre (by decide) hd hr hle longest_le
  · rw [propagationDelay_of_not_above hd]
    exact Nat.zero_le _

theorem normal_of_le {v : ℚ} (h : 1 / 10 ^ 9 ≤ v) : 2 ^ (-1022 : Int) ≤ v := by
  have hpow : (2 : ℚ) ^ (-1022 : Int) ≤ 2 ^ (-30 : Int) :=
    zpow_le_zpow_right₀ (by norm_num) (by norm_num)
  exact hpow.trans (le_trans (by norm_num) h)

/-- A travel time is hardly more than 3.3 nanoseconds for a metre. -/
theorem propagationDelay_le_of_value {m : Nat} {e : Int} (hr : IsValue (parts range) m e)
    (hquarter : (1 / 4 : ℚ) ≤ m * 2 ^ e) :
    propagationDelay range ≤ ⌊(33 / 10 : ℚ) * (m * 2 ^ e) * (1 + 1 / 2 ^ 53)⌋₊ := by
  obtain ⟨r, t, hnear, hholds⟩ := isValue_nanosPerMetre.mul hr (.inl (by decide))
  generalize (m : ℚ) * 2 ^ e = v at *
  have hmetre : ((7430939385161318 : Nat) : ℚ) * 2 ^ (-51 : Int) ≤ 33 / 10 := by norm_num
  have hlow : (1 : ℚ) ≤ (7430939385161318 : Nat) * 2 ^ (-51 : Int) := by norm_num
  have hrelative := (hnear.relative (normal_of_le (by nlinarith))).2
  rw [propagationDelay, truncate_of_holds hholds longest_le]
  refine (Nat.min_le_right _ _).trans (Nat.floor_mono (hrelative.trans ?_))
  gcongr

/-- A guard time is hardly less than 10 nanoseconds for three metres. -/
theorem le_guardForRange_of_value {m : Nat} {e : Int} (hr : IsValue (parts range) m e)
    (hquarter : (1 / 4 : ℚ) ≤ m * 2 ^ e) :
    min longest ⌊(10 / 3 : ℚ) * (m * 2 ^ e) * (1 - 1 / 2 ^ 53) ^ 2⌋₊ ≤ guardForRange range := by
  refine le_trans ?_ (truncate_le_round longest _)
  obtain ⟨r, t, hnear, hholds⟩ := hr.mul isValue_billion (.inr (by decide))
  have hbillion : ((8388608000000000 : Nat) : ℚ) * 2 ^ (-23 : Int) = 10 ^ 9 := by norm_num
  have hspeed : ((5033164800000000 : Nat) : ℚ) * 2 ^ (-24 : Int) = 3 * 10 ^ 8 := by norm_num
  rw [hbillion] at hnear
  generalize (m : ℚ) * 2 ^ e = v at *
  obtain ⟨hproduct, -⟩ := hnear.relative (normal_of_le (by linarith))
  have hlarge : 1 ≤ v * 10 ^ 9 * (1 - 1 / 2 ^ 53) := by nlinarith
  cases hholds with
  | zero hzero hv => linarith
  | infinite hinfinite hv =>
    rw [Binary.truncate, ofFloat_eq, parts_infinite_div hinfinite isValue_lightSpeed]
    exact Nat.min_le_left _ _
  | @value m' e' hvalue hv =>
    rw [hv] at hproduct
    obtain ⟨hm', he'⟩ := hvalue.normal_of_one_le (hlarge.trans hproduct)
    obtain ⟨r', t', hnear', hholds'⟩ := hvalue.div isValue_lightSpeed hm' (by decide) (by omega)
    rw [hspeed] at hnear'
    obtain ⟨hquotient, -⟩ := hnear'.relative (normal_of_le (by linarith))
    rw [truncate_of_holds hholds' longest_le]
    refine min_le_min_left longest (Nat.floor_mono (le_trans ?_ hquotient))
    linarith

theorem guardForRange_le (metres : Float) : guardForRange metres ≤ longest :=
  Binary.clamp_le _ _ _

theorem guardForRange_of_infinite (h : parts range = .infinity .positive) :
    longest ≤ guardForRange range := by
  refine le_trans (le_of_eq ?_) (truncate_le_round longest _)
  rw [Binary.truncate, ofFloat_eq,
    parts_infinite_div (parts_infinite_mul h isValue_billion) isValue_lightSpeed]
  rfl

/-- Before it is cut to microseconds, the guard time covers every travel within the range. -/
theorem propagationDelay_le_guardForRange (hr : Above (parts range)) (h : ¬ range < d) :
    propagationDelay d ≤ guardForRange range := by
  refine (propagationDelay_mono hr h).trans ?_
  rcases infinite_or_isValue hr with hinfinite | ⟨m, e, hvalue⟩
  · exact (propagationDelay_le range).trans (guardForRange_of_infinite hinfinite)
  · have hquarter : IsValue (parts 0.25) (2 ^ 52) (-54) := by decide +kernel
    by_cases hnear : range < 0.25
    · -- such a travel takes no whole nanosecond
      have hwithin : ¬ (0.25 : Float) < range := by
        rw [hvalue.lt_iff hquarter] at hnear
        rw [hquarter.lt_iff hvalue]
        omega
      have habove : Above (parts 0.25) := by
        obtain ⟨_, hquarter⟩ := hquarter
        rw [hquarter]
        trivial
      have hnone : propagationDelay 0.25 = 0 := by decide +kernel
      exact (propagationDelay_mono habove hwithin).trans (hnone ▸ Nat.zero_le _)
    · have hfar : (0.25 : Float) ≤ range := by
        rw [hvalue.lt_iff hquarter] at hnear
        rw [hquarter.le_iff hvalue]
        omega
      have hvalue' := value_le hquarter hvalue hfar
      have hsize : (1 / 4 : ℚ) ≤ m * 2 ^ e := le_trans (by norm_num) hvalue'
      refine le_trans (le_min (propagationDelay_le range) ?_) (le_guardForRange_of_value hvalue hsize)
      refine (propagationDelay_le_of_value hvalue hsize).trans (Nat.floor_mono ?_)
      linarith

theorem propagationDelay_le_whole (hlow : 30000.0 ≤ range) (hhigh : range ≤ 5e18) :
    propagationDelay range ≤ guardForRange range / 1000 * 1000 := by
  have hleast : IsValue (parts 30000.0) 8246337208320000 (-38) := by decide +kernel
  have hmost : IsValue (parts 5e18) 4882812500000000 10 := by decide +kernel
  obtain ⟨m, e, hvalue⟩ := isValue_of_between hleast hmost hlow hhigh
  have hv := value_le hleast hvalue hlow
  have hv' := value_le hvalue hmost hhigh
  have hdelay := propagationDelay_le_of_value hvalue (le_trans (by norm_num) hv)
  have hguard := le_guardForRange_of_value hvalue (le_trans (by norm_num) hv)
  generalize (m : ℚ) * 2 ^ e = v at *
  replace hv : 30000 ≤ v := le_trans (by norm_num) hv
  replace hv' : v ≤ 5 * 10 ^ 18 := hv'.trans (by norm_num)
  have hroom : ⌊(10 / 3 : ℚ) * v * (1 - 1 / 2 ^ 53) ^ 2⌋₊ ≤ longest := by
    have hlongest : (10 / 3 : ℚ) * (5 * 10 ^ 18) ≤ longest := by
      norm_num [longest, Count.greatest, Count.limit]
    exact Nat.floor_le_of_le (le_trans (by linarith) hlongest)
  rw [Nat.min_eq_right hroom] at hguard
  have hbelow := Nat.lt_floor_add_one ((10 / 3 : ℚ) * v * (1 - 1 / 2 ^ 53) ^ 2)
  have habove := Nat.floor_le (show (0 : ℚ) ≤ 33 / 10 * v * (1 + 1 / 2 ^ 53) by positivity)
  have hguard' : (⌊(10 / 3 : ℚ) * v * (1 - 1 / 2 ^ 53) ^ 2⌋₊ : ℚ) ≤ (guardForRange range : Nat) := by
    exact_mod_cast hguard
  have hdelay' : ((propagationDelay range : Nat) : ℚ) ≤ ⌊(33 / 10 : ℚ) * v * (1 + 1 / 2 ^ 53)⌋₊ := by
    exact_mod_cast hdelay
  have hahead : ((propagationDelay range : Nat) : ℚ) + 998 < (guardForRange range : Nat) := by
    linarith
  have hahead' : propagationDelay range + 998 < guardForRange range := by exact_mod_cast hahead
  have hwhole : ∀ delay guard : Nat, delay + 998 < guard → delay ≤ guard / 1000 * 1000 := by omega
  exact hwhole _ _ hahead'

end Timing

/-! ## Configurations -/

namespace Config

/-- Does the guard time cover every travel within the range? -/
def Guarded (c : Config) : Prop :=
  ∀ d : Float, 0.0 ≤ d → d ≤ c.maxRangeM → Timing.propagationDelay d ≤ c.frame.guardTime

theorem guardTime_of_accept {logged : Bool} {source : String} {c : Config}
    (h : accept logged source = .ok (.ok c)) (hg : c.frame.guardFromRange = true) :
    c.frame.guardTime = Timing.guardForRange c.maxRangeM / 1000 * 1000 := by
  obtain ⟨-, given, -, -, -, rfl⟩ := accept_eq_ok_iff.1 h
  by_cases hgiven : given.frame.guardFromRange = true
  · rw [resolve, if_pos hgiven]
    show Timing.guardForRange given.maxRangeM / 1000 % Count.limit * 1000 = _
    rw [Nat.mod_eq_of_lt]
    exact (Nat.div_le_self _ _).trans_lt ((Timing.guardForRange_le _).trans_lt (by decide))
  · rw [resolve, if_neg hgiven] at hg
    exact absurd hg hgiven

/-- What the guard time for a range is good for. -/
structure Guards (c : Config) : Prop where
  /-- Only the cut to microseconds may make it too short. -/
  travel : ∀ d, ¬ c.maxRangeM < d →
    Timing.propagationDelay d ≤ Timing.guardForRange c.maxRangeM
  cut : c.frame.guardTime = Timing.guardForRange c.maxRangeM / 1000 * 1000
  /-- It is too short for a distance only if it is too short for the range itself. -/
  guarded_iff : c.Guarded ↔ Timing.propagationDelay c.maxRangeM ≤ c.frame.guardTime
  far : 30000.0 ≤ c.maxRangeM → c.maxRangeM ≤ 5e18 → c.Guarded
  /-- What is sent to the end of a slot arrives everywhere in range by the beginning of the next slot,
  or less than a microsecond after it. -/
  arrival : ∀ (m : Medium) (a b : Nat) (delay : Time), m.channel.maxRange = c.maxRangeM →
    m.Reaches a b delay → delay < c.frame.guardTime + 1000 ∧ (c.Guarded → delay ≤ c.frame.guardTime)

theorem guarded_iff {c : Config} (hr : Above (parts c.maxRangeM)) :
    c.Guarded ↔ Timing.propagationDelay c.maxRangeM ≤ c.frame.guardTime := by
  refine ⟨fun h => h _ (zero_le_of_above hr) (le_self_of_above hr), fun h d _ hd => ?_⟩
  by_cases habove : Above (parts d)
  · exact (Timing.propagationDelay_mono hr (not_lt_of_le habove hr hd)).trans h
  · rw [Timing.propagationDelay_of_not_above habove]
    exact Nat.zero_le _

/-- An accepted configuration whose guard time is made for its range. -/
theorem guards_of_accept {logged : Bool} {source : String} {c : Config}
    (h : accept logged source = .ok (.ok c)) (hg : c.frame.guardFromRange = true) : c.Guards := by
  have hr := above_of_pos (accepted_of_accept h).maxRange
  have hcut := guardTime_of_accept h hg
  refine ⟨fun d => Timing.propagationDelay_le_guardForRange hr, hcut, guarded_iff hr,
    fun hlow hhigh => (guarded_iff hr).2 ?_, ?_⟩
  · rw [hcut]
    exact Timing.propagationDelay_le_whole hlow hhigh
  · rintro m a b delay hm ⟨-, here, there, -, -, hnear, rfl⟩
    rw [hm] at hnear
    refine ⟨?_, fun hguarded => ?_⟩
    · have hwhole : ∀ delay guard : Nat, delay ≤ guard → delay < guard / 1000 * 1000 + 1000 := by
        omega
      rw [hcut]
      exact hwhole _ _ (Timing.propagationDelay_le_guardForRange hr hnear)
    · exact (Timing.propagationDelay_mono hr hnear).trans ((guarded_iff hr).1 hguarded)

/-- The guard time for the range of 100 kilometres. -/
def farRange : String := "[frame]\nguard_from_range = true\n[channel]\nmax_range_m = 100000.0\n"

theorem guards_of_accept_farRange : ∃ c, ofToml farRange = .ok (.ok c) ∧
    c.frame.guardFromRange = true ∧ c.Guards ∧ c.frame.guardTime = 333000 ∧ c.Guarded := by
  obtain ⟨c, hc, hp⟩ := exists_of_accept true farRange (p := fun c => c.frame.guardFromRange &&
    c.frame.guardTime == 333000 && Timing.propagationDelay c.maxRangeM == 330000) (by decide +kernel)
  simp only [Bool.and_eq_true, beq_iff_eq] at hp
  obtain ⟨⟨hg, hguard⟩, hdelay⟩ := hp
  have hguards := guards_of_accept hc hg
  refine ⟨c, hc, hg, hguards, hguard, hguards.guarded_iff.2 ?_⟩
  rw [hdelay, hguard]
  decide

/-- The guard time for the range that is the default. -/
def usualRange : String := "[frame]\nguard_from_range = true\n"

/-- Nothing is left of the guard time, and a frame from the edge of the range is late. -/
theorem usualRange_not_guarded : ∃ c, ofToml usualRange = .ok (.ok c) ∧
    c.frame.guardFromRange = true ∧ c.frame.guardTime = 0 ∧
    Timing.propagationDelay c.maxRangeM = 825 ∧ ¬ c.Guarded := by
  obtain ⟨c, hc, hp⟩ := exists_of_accept true usualRange (p := fun c => c.frame.guardFromRange &&
    c.frame.guardTime == 0 && Timing.propagationDelay c.maxRangeM == 825) (by decide +kernel)
  simp only [Bool.and_eq_true, beq_iff_eq] at hp
  obtain ⟨⟨hg, hguard⟩, hdelay⟩ := hp
  refine ⟨c, hc, hg, hguard, hdelay, fun hguarded => ?_⟩
  have hr := above_of_pos (accepted_of_accept hc).maxRange
  have hlate := (guarded_iff hr).1 hguarded
  rw [hdelay, hguard] at hlate
  exact absurd hlate (by decide)

end Config

end SlotNet
