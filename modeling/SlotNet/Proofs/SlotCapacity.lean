import Mathlib.Algebra.Order.Floor.Div
import Mathlib.Algebra.Order.Group.Nat
import SlotNet.Timing

/-!
# What fits a slot

The airtime of a frame is rounded up to nanoseconds, and the capacity of a slot is rounded down twice, to bits and
then to bytes. Both ask the same question of the exact product (`airtime_le_iff`, `le_capacity_iff`), so a frame is
sent within a slot if and only if the slot carries its bytes. Rounding up each of several frames only takes more
time, so frames that are sent one after the other within a slot have no more bytes than it carries either.
-/

namespace SlotNet.Timing

variable {size rate : Nat} {slot t : Time}

/-- Does the exact time on air of so many bytes fit 64 bits, in nanoseconds? -/
def IsTimed (rate size : Nat) : Prop := size * 8 * Time.second ≤ longest * rate

/-! ## One frame -/

theorem airtime_le (hrate : 0 < rate) (h : size * 8 * Time.second ≤ t * rate) : airtime size rate ≤ t := by
  unfold airtime
  rw [if_neg (Nat.ne_of_gt hrate)]
  refine (Nat.min_le_right _ _).trans ?_
  rw [← Nat.ceilDiv_eq_add_pred_div, ceilDiv_le_iff_le_mul hrate, Nat.mul_comm rate]
  exact h

theorem le_airtime_mul (hrate : 0 < rate) (hsize : IsTimed rate size) :
    size * 8 * Time.second ≤ airtime size rate * rate := by
  have hup : size * 8 * Time.second ≤ (size * 8 * Time.second + rate - 1) / rate * rate := by
    rw [← Nat.ceilDiv_eq_add_pred_div, Nat.mul_comm _ rate]
    exact le_smul_ceilDiv hrate
  unfold airtime
  rw [if_neg (Nat.ne_of_gt hrate)]
  rcases Nat.le_total longest ((size * 8 * Time.second + rate - 1) / rate) with hlong | hshort
  · rw [Nat.min_eq_left hlong]
    exact hsize
  · rw [Nat.min_eq_right hshort]
    exact hup

theorem airtime_le_iff (hrate : 0 < rate) (hsize : IsTimed rate size) :
    airtime size rate ≤ t ↔ size * 8 * Time.second ≤ t * rate :=
  ⟨fun h => (le_airtime_mul hrate hsize).trans (Nat.mul_le_mul_right rate h), airtime_le hrate⟩

theorem le_capacity_iff : size ≤ slot * rate / Time.second / 8 ↔ size * 8 * Time.second ≤ slot * rate := by
  rw [Nat.le_div_iff_mul_le (by decide), Nat.le_div_iff_mul_le (by decide)]

theorem capacity_eq_ok (hproduct : slot * rate < productLimit)
    (hbytes : slot * rate / Time.second / 8 < Count.limit) :
    capacity slot rate = .ok (slot * rate / Time.second / 8) := by
  rw [capacity, if_pos hproduct, Nat.mod_eq_of_lt hbytes]

/-! ## One frame after the other -/

theorem sum_le_sum_airtime_mul (hrate : 0 < rate) {sizes : List Nat} (hsizes : ∀ size ∈ sizes, IsTimed rate size) :
    sizes.sum * 8 * Time.second ≤ (sizes.map (airtime · rate)).sum * rate := by
  induction sizes with
  | nil => simp
  | cons size sizes ih =>
    have hfirst := le_airtime_mul hrate (hsizes size (.head _))
    have hrest := ih fun s hs => hsizes s (.tail _ hs)
    simp only [List.map_cons, List.sum_cons, Nat.add_mul]
    omega

/-- A slot whose product with the rate is in bounds carries a number of bytes. A frame is sent within the slot if and
only if it has no more bytes, and frames that are sent one after the other within it do not have more together. -/
theorem airtime_le_iff_le_capacity (hrate : 0 < rate) (hproduct : slot * rate < productLimit)
    (hbytes : slot * rate / Time.second / 8 < Count.limit) :
    ∃ most, capacity slot rate = .ok most ∧
      (∀ size, IsTimed rate size → (airtime size rate ≤ slot ↔ size ≤ most)) ∧
      ∀ sizes : List Nat, (∀ size ∈ sizes, IsTimed rate size) →
        (sizes.map (airtime · rate)).sum ≤ slot → sizes.sum ≤ most := by
  refine ⟨_, capacity_eq_ok hproduct hbytes, fun size hsize => ?_, fun sizes hsizes hsum => ?_⟩
  · rw [airtime_le_iff hrate hsize, le_capacity_iff]
  · rw [le_capacity_iff]
    exact (sum_le_sum_airtime_mul hrate hsizes).trans (Nat.mul_le_mul_right rate hsum)

/-- At a rate that divides no time evenly, a frame of 1050 bytes fills a slot of 1200 microseconds to the last
nanosecond. Split in two it would take one nanosecond more, and only 1049 bytes are sent. -/
theorem airtime_le_iff_le_capacity_oddRate : 0 < 7000003 ∧ 1200000 * 7000003 < productLimit ∧
    1200000 * 7000003 / Time.second / 8 < Count.limit ∧
    (∀ size ∈ [500, 549, 550, 1050, 1051], IsTimed 7000003 size) ∧
    (([500, 550].map (airtime · 7000003)).sum = 1200001 ∧
      ([500, 549].map (airtime · 7000003)).sum ≤ 1200000) ∧
    ∃ most, capacity 1200000 7000003 = .ok most ∧
      (airtime 1050 7000003 ≤ 1200000 ↔ 1050 ≤ most) ∧ (airtime 1051 7000003 ≤ 1200000 ↔ 1051 ≤ most) ∧
      1050 ≤ most ∧ most < 1051 ∧ [500, 549].sum ≤ most := by
  have hsizes : ∀ size ∈ [500, 549, 550, 1050, 1051], IsTimed 7000003 size := by
    unfold IsTimed
    decide
  have hpair : [500, 549] ⊆ [500, 549, 550, 1050, 1051] := by decide
  have hsum : ([500, 549].map (airtime · 7000003)).sum ≤ 1200000 := by decide
  have hproduct : 1200000 * 7000003 < productLimit := by decide
  have hbytes : 1200000 * 7000003 / Time.second / 8 < Count.limit := by decide
  obtain ⟨most, hmost, hone, hall⟩ := airtime_le_iff_le_capacity (by decide) hproduct hbytes
  have hfull := hone 1050 (hsizes 1050 (by decide))
  have hlong := hone 1051 (hsizes 1051 (by decide))
  refine ⟨by decide, hproduct, hbytes, hsizes, ⟨by decide, hsum⟩, most, hmost, hfull, hlong,
    hfull.1 (by decide), ?_, ?_⟩
  · exact Nat.lt_of_not_le fun h => absurd (hlong.2 h) (by decide)
  · exact hall [500, 549] (fun size hs => hsizes size (hpair hs)) hsum

end SlotNet.Timing
