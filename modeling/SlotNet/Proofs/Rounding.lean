import Mathlib

/-!
# Squares and roots in double precision

To compare a number `x` with the square of a range, or its root with the range, is the same thing in
exact arithmetic. Here it is almost the same: as long as the square of the range neither overflows nor
underflows, the root of the rounded square is the range again (`IsValue.sqrt_mul_self`), and roots do
not change the order.

Mantissas and exponents are followed through the arithmetic of `Float`. Real numbers are not needed:
a root is rounded by a comparison of integers (`lt_nearestRoot`).
-/

namespace SlotNet.Rounding

open Float.Model Float.Model.UnpackedFloat

/-! ## Roots of integers -/

/-- The integer nearest to the root of an integer. There are no ties. -/
def nearestRoot (n : Nat) : Nat := if n - n.sqrt * n.sqrt ≤ n.sqrt then n.sqrt else n.sqrt + 1

theorem lt_nearestRoot {n q : Nat} : q < nearestRoot n ↔ q * (q + 1) < n := by
  have hle := Nat.sqrt_le n
  have hlt := Nat.lt_succ_sqrt n
  unfold nearestRoot
  generalize n.sqrt = s at *
  rw [Nat.succ_eq_add_one] at hlt
  split
  · refine ⟨fun h => by nlinarith, fun h => ?_⟩
    by_contra hge
    have hge := Nat.le_of_not_lt hge
    nlinarith [Nat.mul_le_mul hge hge, Nat.sub_add_cancel hle]
  · refine ⟨fun h => ?_, fun h => ?_⟩
    · have hge := Nat.le_of_lt_succ h
      nlinarith [Nat.mul_le_mul hge hge, Nat.sub_add_cancel hle]
    · by_contra hge
      have hge := Nat.le_of_not_lt hge
      nlinarith [Nat.mul_le_mul hge hge]

theorem nearestRoot_mono {n n' : Nat} (h : n ≤ n') : nearestRoot n ≤ nearestRoot n' := by
  by_contra hlt
  have hq := lt_nearestRoot.1 (Nat.lt_of_not_le hlt)
  exact Nat.lt_irrefl _ (lt_nearestRoot.2 (Nat.lt_of_lt_of_le hq h))

theorem nearestRoot_eq {n m : Nat} (hlow : m * (m - 1) < n) (hhigh : n ≤ m * (m + 1)) :
    nearestRoot n = m := by
  refine Nat.le_antisymm (Nat.le_of_not_lt fun h => ?_) ?_
  · exact Nat.not_lt_of_le hhigh (lt_nearestRoot.1 h)
  · cases m with
    | zero => exact Nat.zero_le _
    | succ m =>
      refine lt_nearestRoot.2 ?_
      rwa [Nat.add_sub_cancel, Nat.mul_comm] at hlow

/-! ## Shifting bits out -/

/-- What an accuracy says about the rest of a division by `unit`. -/
def Measures (unit rest : Nat) : Accuracy → Prop
  | .exact => rest = 0
  | .inexact .lt => 0 < rest ∧ 2 * rest < unit
  | .inexact .eq => 2 * rest = unit
  | .inexact .gt => unit < 2 * rest ∧ rest < unit

/-- A mantissa stands for `n` if it counts the whole units in `n`, and its accuracy tells how the rest
compares to half a unit. -/
def Stands (em : ExtendedMantissa) (n unit : Nat) : Prop :=
  ∃ rest, n = em.mantissa * unit + rest ∧ rest < unit ∧ Measures unit rest em.accuracy

theorem stands_exact (n : Nat) : Stands (ExtendedMantissa.ofMantissaAndAccuracy n .exact) n 1 :=
  ⟨0, (Nat.mul_one n).symm, Nat.one_pos, rfl⟩

theorem stands_shiftRightOne {em : ExtendedMantissa} {n unit : Nat} (h : Stands em n unit) :
    Stands em.shiftRightOne n (2 * unit) := by
  obtain ⟨rest, rfl, hrest, hm⟩ := h
  obtain ⟨m, round, sticky⟩ := em
  have hdiv := Nat.mod_add_div m 2
  refine ⟨rest + m % 2 * unit, ?_, ?_, ?_⟩
  · simp only [ExtendedMantissa.shiftRightOne]
    nlinarith
  · rcases Nat.mod_two_eq_zero_or_one m with hbit | hbit <;> rw [hbit] <;> omega
  · -- the bit that leaves becomes the round bit, and the round bit joins the sticky one
    rcases Nat.mod_two_eq_zero_or_one m with hbit | hbit <;> cases round <;> cases sticky <;>
      simp [hbit, ExtendedMantissa.shiftRightOne, ExtendedMantissa.accuracy, Measures] at hm ⊢ <;>
      omega

theorem stands_shiftRight {em : ExtendedMantissa} {n unit : Nat} (h : Stands em n unit)
    (shift : Nat) : Stands (em >>> shift) n (2 ^ shift * unit) := by
  induction shift with
  | zero => rwa [Nat.pow_zero, Nat.one_mul]
  | succ shift ih =>
    rw [Nat.pow_succ', Nat.mul_assoc]
    exact stands_shiftRightOne ih

/-- Rounding is off by half a unit at most. -/
theorem roundedMantissa_near {em : ExtendedMantissa} {n unit : Nat} (h : Stands em n unit) :
    2 * n ≤ 2 * (em.roundedMantissa * unit) + unit ∧
      2 * (em.roundedMantissa * unit) ≤ 2 * n + unit := by
  obtain ⟨rest, rfl, hrest, hm⟩ := h
  unfold ExtendedMantissa.roundedMantissa
  cases ha : em.accuracy with
  | exact =>
    rw [ha] at hm
    obtain rfl : rest = 0 := hm
    simp only [Accuracy.roundToNearestEven]
    omega
  | inexact order =>
    rw [ha] at hm
    cases order with
    | lt =>
      obtain ⟨-, hm⟩ := hm
      simp only [Accuracy.roundToNearestEven]
      omega
    | eq =>
      have hm : 2 * rest = unit := hm
      simp only [Accuracy.roundToNearestEven, Nat.add_mul]
      rcases Nat.mod_two_eq_zero_or_one em.mantissa with hbit | hbit <;> rw [hbit] <;> omega
    | gt =>
      obtain ⟨hm, -⟩ := hm
      simp only [Accuracy.roundToNearestEven, Nat.add_mul]
      omega

theorem roundedMantissa_of (m : Nat) (accuracy : Accuracy) :
    (ExtendedMantissa.ofMantissaAndAccuracy m accuracy).roundedMantissa
      = accuracy.roundToNearestEven m := by
  cases accuracy with
  | exact => rfl
  | inexact order => cases order <;> rfl

/-! ## Rounding to 53 bits -/

/-- A mantissa of 53 bits, with an exponent not below the least one. -/
structure Normal (m : Nat) (e : Int) : Prop where
  low : 2 ^ 52 ≤ m
  high : m < 2 ^ 53
  exponent : -1074 ≤ e

/-- The number is positive, and it is `m * 2 ^ e`. -/
def IsValue (x : UnpackedFloat) (m : Nat) (e : Int) : Prop :=
  ∃ positive, x = .finite .positive m e positive

theorem log2_eq {m : Nat} (hlow : 2 ^ 52 ≤ m) (hhigh : m < 2 ^ 53) : m.log2 = 52 :=
  (Nat.log2_eq_iff (by omega)).2 ⟨hlow, hhigh⟩

theorem targetExponent_eq (m : Nat) (e : Int) :
    Format.binary64.targetExponent (totalExponent m e) = max (m.log2 + e - 52) (-1074) := by
  simp only [Format.targetExponent, totalExponent, Format.mantissaBits, Format.minExponent]
  omega

theorem shift_by {m k : Nat} {e : Int} (h : max (m.log2 + e - 52) (-1074) - e = k)
    (accuracy : Accuracy) : shiftToTargetExponent Format.binary64 m e accuracy
      = (ExtendedMantissa.ofMantissaAndAccuracy m accuracy >>> k, e + k) := by
  simp only [shiftToTargetExponent, shiftToExponent, targetExponent_eq, h, Int.toNat_natCast]

theorem Normal.shift {m : Nat} {e : Int} (h : Normal m e) (accuracy : Accuracy) :
    shiftToTargetExponent Format.binary64 m e accuracy
      = (ExtendedMantissa.ofMantissaAndAccuracy m accuracy, e) := by
  have he := h.exponent
  rw [shift_by (k := 0) (by rw [log2_eq h.low h.high]; omega), Int.natCast_zero, Int.add_zero]
  rfl

theorem shift_carry {e : Int} (he : -1074 ≤ e) :
    shiftToTargetExponent Format.binary64 (2 ^ 53) e .exact
      = (ExtendedMantissa.ofMantissaAndAccuracy (2 ^ 52) .exact, e + 1) := by
  rw [shift_by (k := 1) (by rw [Nat.log2_two_pow]; omega)]
  rfl

theorem isValue_round {n m : Nat} {e e' e'' : Int} {accuracy : Accuracy} {em : ExtendedMantissa}
    (h : shiftToTargetExponent Format.binary64 n e accuracy = (em, e'))
    (h' : shiftToTargetExponent Format.binary64 em.roundedMantissa e' .exact
      = (ExtendedMantissa.ofMantissaAndAccuracy m .exact, e'')) (hm : 0 < m) :
    IsValue (roundWithAccuracy Format.binary64 .positive n e accuracy) m e'' := by
  refine ⟨hm, ?_⟩
  unfold roundWithAccuracy
  simp only [h, h']
  exact dif_neg (Nat.ne_of_gt hm)

theorem Normal.isValue_round {m r : Nat} {e : Int} {accuracy : Accuracy} (h : Normal m e)
    (h' : Normal r e) (hr : accuracy.roundToNearestEven m = r) :
    IsValue (roundWithAccuracy Format.binary64 .positive m e accuracy) r e := by
  refine Rounding.isValue_round (h.shift accuracy) ?_ (Nat.lt_of_lt_of_le (by decide) h'.low)
  rw [roundedMantissa_of, hr]
  exact h'.shift .exact

theorem isValue_round_of_long {n k : Nat} {e : Int} (hlow : 2 ^ (52 + k) ≤ n)
    (hhigh : n < 2 ^ (53 + k)) (he : -1074 ≤ e + k) :
    ∃ m j : Nat, IsValue (roundWithAccuracy Format.binary64 .positive n e .exact) m (e + j) ∧
      Normal m (e + j) ∧ (j = k ∨ j = k + 1 ∧ m = 2 ^ 52) ∧
      2 * n ≤ 2 * (m * 2 ^ j) + 2 ^ k ∧ 2 * (m * 2 ^ j) ≤ 2 * n + 2 ^ k := by
  have hlog : n.log2 = 52 + k :=
    (Nat.log2_eq_iff (Nat.ne_of_gt (Nat.lt_of_lt_of_le (Nat.two_pow_pos _) hlow))).2
      ⟨hlow, by rwa [Nat.add_right_comm]⟩
  have hnear := roundedMantissa_near (stands_shiftRight (stands_exact n) k)
  rw [Nat.mul_one] at hnear
  have hshift := shift_by (m := n) (k := k) (e := e) (by rw [hlog]; omega) .exact
  generalize ExtendedMantissa.ofMantissaAndAccuracy n .exact >>> k = em at *
  rw [Nat.pow_add] at hlow hhigh
  have hpos := Nat.two_pow_pos k
  have hm : 2 ^ 52 ≤ em.roundedMantissa ∧ em.roundedMantissa ≤ 2 ^ 53 := by
    constructor <;> by_contra hm <;> nlinarith
  by_cases hcarry : em.roundedMantissa = 2 ^ 53
  · have hround := isValue_round hshift (by rw [hcarry]; exact shift_carry he) (by decide)
    have hpow : (2 : Nat) ^ 53 * 2 ^ k = 2 ^ 52 * 2 ^ (k + 1) := by ring
    rw [hcarry, hpow] at hnear
    rw [Int.add_assoc] at hround
    exact ⟨2 ^ 52, k + 1, hround, ⟨by decide, by decide, by omega⟩, .inr ⟨rfl, rfl⟩, hnear⟩
  · have hnormal : Normal em.roundedMantissa (e + k) :=
      ⟨hm.1, Nat.lt_of_le_of_ne hm.2 hcarry, he⟩
    have hround := isValue_round hshift (hnormal.shift .exact)
      (Nat.lt_of_lt_of_le (by decide) hm.1)
    exact ⟨em.roundedMantissa, k, hround, hnormal, .inl rfl, hnear⟩

/-! ## Stored numbers -/

/-- The sign, the mantissa and the exponent of a number. -/
def parts (x : Float) : UnpackedFloat := x.toModel.unpack

theorem parts_mul (x y : Float) :
    parts (x * y) = (Float.Model.pack (mul Format.binary64 (parts x) (parts y))).unpack := rfl

theorem parts_sqrt {x : Float} {u : UnpackedFloat} (h : parts x = u) :
    parts x.sqrt = (Float.Model.pack (UnpackedFloat.sqrt Format.binary64 u)).unpack := by
  rw [← h]
  rfl

theorem toNat_implicit (v : BitVec 52) : (1#1 ++ v).toNat = 2 ^ 52 + v.toNat := by
  rw [BitVec.toNat_append, ← Nat.shiftLeft_add_eq_or_of_lt v.isLt]
  rfl

theorem IsValue.unpack_pack {x : UnpackedFloat} {m : Nat} {e : Int} (h : IsValue x m e)
    (hn : Normal m e) (he : e ≤ 971) : IsValue (Float.Model.pack x).unpack m e := by
  obtain ⟨hm, rfl⟩ := h
  refine ⟨hm, ?_⟩
  have hleast := hn.exponent
  obtain ⟨biased, hb⟩ : ∃ biased : Nat, (biased : Int) = e + 1075 := ⟨(e + 1075).toNat, by omega⟩
  have hpack : UnpackedFloat.pack Format.binary64 (.finite .positive m e hm)
      = packComponents Format.binary64 .positive (BitVec.ofNat 11 biased) (BitVec.ofNat 52 m) := by
    have hbiased : (e + (1023 : Nat) + (52 : Nat)).toNat = biased := by omega
    unfold UnpackedFloat.pack
    show (if 2 ^ 11 ≤ (e + (1023 : Nat) + (52 : Nat)).toNat + 1 then _ else
      if m.log2 + 1 = 53 then packComponents Format.binary64 .positive
        (BitVec.ofNat 11 (e + (1023 : Nat) + (52 : Nat)).toNat) (BitVec.ofNat 52 m) else _) = _
    rw [hbiased, if_neg (by omega), if_pos (by rw [log2_eq hn.low hn.high])]
  have hexponent : (BitVec.ofNat 11 biased).toNat = biased := by
    rw [BitVec.toNat_ofNat, Nat.mod_eq_of_lt (by omega)]
  have hmantissa : (1#1 ++ BitVec.ofNat 52 m).toNat = m := by
    have hlow := hn.low
    have hhigh := hn.high
    rw [toNat_implicit, BitVec.toNat_ofNat]
    omega
  have hfinite : BitVec.ofNat 11 biased ≠ -1#11 := fun h => by
    have := congrArg BitVec.toNat h
    rw [hexponent] at this
    change biased = 2047 at this
    omega
  have hnormal : BitVec.ofNat 11 biased ≠ 0#11 := fun h => by
    have := congrArg BitVec.toNat h
    rw [hexponent] at this
    change biased = 0 at this
    omega
  show UnpackedFloat.unpack _ (UnpackedFloat.pack _ _) = _
  rw [hpack]
  unfold UnpackedFloat.unpack
  simp only [unpackMantissa_packComponents, unpackExponent_packComponents, unpackSign_packComponents,
    Sign.ofBitVec_toBitVec, if_neg hfinite, if_neg hnormal, hmantissa, hexponent]
  congr 1
  show (biased : Int) - (1023 + 52 : Nat) = e
  omega

/-- The mantissa and the exponent of a stored number. -/
structure Canonical (m : Nat) (e : Int) : Prop where
  high : m < 2 ^ 53
  least : -1074 ≤ e
  most : e ≤ 971
  normal : 2 ^ 52 ≤ m ∨ e = -1074

theorem IsValue.canonical {x : Float} {m : Nat} {e : Int} (h : IsValue (parts x) m e) :
    Canonical m e := by
  obtain ⟨hm, h⟩ := h
  have hmantissa := (@unpackMantissa Format.binary64 x.toModel.toBits.toBitVec).isLt
  have hexponent := (@unpackExponent Format.binary64 x.toModel.toBits.toBitVec).isLt
  unfold parts Float.Model.unpack UnpackedFloat.unpack at h
  dsimp only at h hmantissa hexponent
  split at h
  · split at h <;> cases h
  rename_i hfinite
  have hmost : (@unpackExponent Format.binary64 x.toModel.toBits.toBitVec).toNat ≠ 2047 :=
    fun h => hfinite (BitVec.eq_of_toNat_eq h)
  split at h
  · rename_i hzero
    split at h
    · cases h
    · obtain ⟨-, rfl, rfl⟩ := UnpackedFloat.finite.inj h
      rw [hzero]
      exact ⟨Nat.lt_trans hmantissa (by decide), by decide, by decide, .inr (by decide)⟩
  · rename_i hnormal
    have hleast : (@unpackExponent Format.binary64 x.toModel.toBits.toBitVec).toNat ≠ 0 :=
      fun h => hnormal (BitVec.eq_of_toNat_eq h)
    obtain ⟨-, rfl, rfl⟩ := UnpackedFloat.finite.inj h
    rw [toNat_implicit]
    refine ⟨?_, ?_, ?_, .inl (Nat.le_add_right _ _)⟩
    · exact Nat.add_lt_add_left hmantissa _
    · show -1074 ≤ (_ : Int) - (1023 + 52)
      omega
    · show (_ : Int) - (1023 + 52) ≤ 971
      omega

instance (x : UnpackedFloat) (m : Nat) (e : Int) : Decidable (IsValue x m e) :=
  match x with
  | .finite .positive n f positive =>
    decidable_of_iff (n = m ∧ f = e)
      ⟨by rintro ⟨rfl, rfl⟩; exact ⟨positive, rfl⟩, fun ⟨_, h⟩ => by cases h; exact ⟨rfl, rfl⟩⟩
  | .finite .negative .. => .isFalse nofun
  | .zero _ => .isFalse nofun
  | .infinity _ => .isFalse nofun
  | .notANumber => .isFalse nofun

/-! ## Comparing -/

section Comparing

variable {x y z : Float} {k m n : Nat} {e f g : Int}

theorem lt_iff : x < y ↔ (parts x).compare (parts y) = some .lt := by
  show decide ((parts x).lt (parts y) = true) = true ↔ _
  rw [decide_eq_true_iff, UnpackedFloat.lt, beq_iff_eq]

theorem le_iff : x ≤ y ↔ ((parts x).compare (parts y)).any (·.isLE) = true := by
  show decide ((parts x).le (parts y) = true) = true ↔ _
  rw [decide_eq_true_iff, UnpackedFloat.le]

theorem compare_eq (hx : IsValue (parts x) m e) (hy : IsValue (parts y) n f) :
    (parts x).compare (parts y) = some ((compare e f).then (compare m n)) := by
  obtain ⟨_, hx⟩ := hx
  obtain ⟨_, hy⟩ := hy
  rw [hx, hy]
  rfl

theorem IsValue.lt_iff (hx : IsValue (parts x) m e) (hy : IsValue (parts y) n f) :
    x < y ↔ e < f ∨ e = f ∧ m < n := by
  rw [Rounding.lt_iff, compare_eq hx hy, Option.some.injEq, Ordering.then_eq_lt,
    Int.compare_eq_lt, Int.compare_eq_eq, Nat.compare_eq_lt]

theorem IsValue.le_iff (hx : IsValue (parts x) m e) (hy : IsValue (parts y) n f) :
    x ≤ y ↔ e < f ∨ e = f ∧ m ≤ n := by
  rw [Rounding.le_iff, compare_eq hx hy, Option.any_some, Ordering.isLE_then_iff_or,
    Int.compare_eq_lt, Int.compare_eq_eq, Nat.isLE_compare]

theorem isValue_of_between (hx : IsValue (parts x) m e) (hz : IsValue (parts z) n f) (h : x ≤ y)
    (h' : y ≤ z) : ∃ k g, IsValue (parts y) k g := by
  obtain ⟨_, hx⟩ := hx
  obtain ⟨_, hz⟩ := hz
  rw [le_iff, hx] at h
  rw [le_iff, hz] at h'
  cases hy : parts y with
  | finite sign k g hk =>
    cases sign with
    | positive => exact ⟨k, g, hk, rfl⟩
    | negative => rw [hy] at h; cases h
  | zero _ => rw [hy] at h; cases h
  | infinity sign =>
    cases sign with
    | positive => rw [hy] at h'; cases h'
    | negative => rw [hy] at h; cases h
  | notANumber => rw [hy] at h; cases h

end Comparing

/-! ## Roots -/

/-- The number `n * 2 ^ e` is an integer of 105 or 106 bits times an even power of two. -/
structure Scaled (n : Nat) (e half : Int) (shift : Nat) : Prop where
  pos : 0 < n
  exponent : e = 2 * half + shift
  size : n.log2 + shift = 104 ∨ n.log2 + shift = 105

theorem log2_lt {n : Nat} (hn : 0 < n) (hhigh : n < 2 ^ 53) : n.log2 < 53 :=
  (Nat.log2_lt (Nat.ne_of_gt hn)).2 hhigh

theorem scaled_log2 {n : Nat} (e : Int) (hn : 0 < n) (hhigh : n < 2 ^ 53) :
    Scaled n e ((n.log2 + 2 + e) / 2 - 53) (e - 2 * ((n.log2 + 2 + e) / 2 - 53)).toNat := by
  have hlog := log2_lt hn hhigh
  refine ⟨hn, ?_, ?_⟩ <;> omega

namespace Scaled

variable {n n' shift shift' : Nat} {e e' half half' : Int}

theorem le_mul (h : Scaled n e half shift) : 2 ^ (n.log2 + shift) ≤ n * 2 ^ shift := by
  rw [Nat.pow_add]
  exact Nat.mul_le_mul_right _ (Nat.log2_self_le (Nat.ne_of_gt h.pos))

theorem mul_le (n shift : Nat) : n * 2 ^ shift + 2 ^ shift ≤ 2 ^ (n.log2 + shift + 1) := by
  rw [Nat.add_right_comm, Nat.pow_add, ← Nat.succ_mul]
  exact Nat.mul_le_mul_right _ Nat.lt_log2_self

theorem normal (h : Scaled n e half shift) (hn : n < 2 ^ 53) (hhalf : -1074 ≤ half) :
    Normal (n * 2 ^ shift).sqrt half ∧ Normal (nearestRoot (n * 2 ^ shift)) half := by
  have hlog := log2_lt h.pos hn
  have hlow : 2 ^ 104 ≤ n * 2 ^ shift :=
    Nat.le_trans (Nat.pow_le_pow_right (by decide) (by have := h.size; omega)) h.le_mul
  have hhigh : n * 2 ^ shift ≤ (2 ^ 53 - 1) * 2 ^ 53 := by
    have hle := mul_le n shift
    have hpos := Nat.two_pow_pos shift
    rcases h.size with hsize | hsize <;> rw [hsize] at hle
    · omega
    · have hpow := Nat.pow_le_pow_right (n := 2) (by decide) (show 53 ≤ shift by omega)
      omega
  refine ⟨⟨Nat.le_sqrt.2 (by omega), Nat.sqrt_lt.2 (by omega), hhalf⟩,
    ⟨?_, Nat.lt_of_not_le fun hge => ?_, hhalf⟩⟩
  · have := lt_nearestRoot.2 (show (2 ^ 52 - 1) * (2 ^ 52 - 1 + 1) < n * 2 ^ shift by omega)
    omega
  · have := lt_nearestRoot.1 (show 2 ^ 53 - 1 < nearestRoot (n * 2 ^ shift) by omega)
    omega

theorem lex (h : Scaled n e half shift) (h' : Scaled n' e' half' shift') (hn : n < 2 ^ 53)
    (hn' : 2 ^ 52 ≤ n' ∨ e' ≤ e) (hle : e < e' ∨ e = e' ∧ n ≤ n') :
    half < half' ∨
      half = half' ∧ nearestRoot (n * 2 ^ shift) ≤ nearestRoot (n' * 2 ^ shift') := by
  have hlog := log2_lt h.pos hn
  have hs := h.exponent
  have hs' := h'.exponent
  have hsize := h.size
  have hsize' := h'.size
  rcases hle with hlt | ⟨rfl, hle⟩
  · have hlog' : 52 ≤ n'.log2 :=
      (Nat.le_log2 (Nat.ne_of_gt h'.pos)).2 (hn'.resolve_right (by omega))
    rcases (show half ≤ half' by omega).lt_or_eq with hhalf | rfl
    · exact .inl hhalf
    · refine .inr ⟨rfl, nearestRoot_mono ?_⟩
      have hbits := Nat.pow_le_pow_right (n := 2) (by decide)
        (show n.log2 + shift + 1 ≤ n'.log2 + shift' by omega)
      exact Nat.le_trans (Nat.le_of_add_right_le (mul_le n shift)) (Nat.le_trans hbits h'.le_mul)
  · have hlog' : n.log2 ≤ n'.log2 := (Nat.le_log2 (Nat.ne_of_gt h'.pos)).2
      (Nat.le_trans (Nat.log2_self_le (Nat.ne_of_gt h.pos)) hle)
    rcases (show half ≤ half' by omega).lt_or_eq with hhalf | rfl
    · exact .inl hhalf
    · obtain rfl : shift = shift' := by omega
      exact .inr ⟨rfl, nearestRoot_mono (Nat.mul_le_mul_right _ hle)⟩

end Scaled

theorem roundToNearestEven_sqrt (n : Nat) :
    (if n - n.sqrt * n.sqrt = 0 then Accuracy.exact
      else .inexact (if n - n.sqrt * n.sqrt ≤ n.sqrt then .lt else .gt)).roundToNearestEven n.sqrt
        = nearestRoot n := by
  unfold nearestRoot
  by_cases hexact : n - n.sqrt * n.sqrt = 0
  · rw [if_pos hexact, if_pos (by omega)]
    rfl
  · rw [if_neg hexact]
    split <;> rfl

theorem IsValue.sqrt {x : Float} {n : Nat} {e : Int} (h : IsValue (parts x) n e) :
    ∃ half shift, Scaled n e half shift ∧
      IsValue (parts x.sqrt) (nearestRoot (n * 2 ^ shift)) half := by
  obtain ⟨hhigh, hleast, hmost, -⟩ := h.canonical
  obtain ⟨hn, h⟩ := h
  have hlog := log2_lt hn hhigh
  have hscaled := scaled_log2 e hn hhigh
  have htarget : min (e.ediv 2) (Format.binary64.targetExponent ((totalExponent n e + 1).ediv 2))
      = (n.log2 + 2 + e) / 2 - 53 := by
    show min (e / 2) (max ((n.log2 + 1 + e + 1) / 2 - 53) (-1074)) = _
    omega
  obtain ⟨hroot, hnear⟩ := hscaled.normal hhigh (by omega)
  refine ⟨_, _, hscaled, ?_⟩
  rw [parts_sqrt h]
  refine IsValue.unpack_pack ?_ hnear (by omega)
  simp only [UnpackedFloat.sqrt, sqrtCore, htarget, Nat.shiftLeft_eq]
  exact hroot.isValue_round hnear (roundToNearestEven_sqrt _)

theorem not_lt_sqrt {x y : Float} {u : UnpackedFloat} (h : parts x = u)
    (hu : UnpackedFloat.sqrt Format.binary64 u = .notANumber) : ¬ y < x.sqrt := by
  rw [lt_iff, parts_sqrt h, hu]
  cases parts y <;> nofun

theorem not_lt_sqrt_of_le {x y : Float} {n : Nat} {e : Int} (hy : IsValue (parts y) n e)
    (hn : 2 ^ 52 ≤ n) (h : x ≤ y) : ¬ y.sqrt < x.sqrt := by
  obtain ⟨half', shift', hscaled', hroot'⟩ := hy.sqrt
  intro hlt
  cases hx : parts x with
  | finite sign m f hm =>
    cases sign with
    | positive =>
      have hx : IsValue (parts x) m f := ⟨hm, hx⟩
      obtain ⟨half, shift, hscaled, hroot⟩ := hx.sqrt
      have hlex := hscaled.lex hscaled' hx.canonical.high (.inl hn) ((hx.le_iff hy).1 h)
      have hroots := (hroot'.lt_iff hroot).1 hlt
      omega
    | negative => exact not_lt_sqrt hx rfl hlt
  | zero sign =>
    obtain ⟨_, hroot'⟩ := hroot'
    rw [lt_iff, parts_sqrt hx, hroot'] at hlt
    cases sign <;> cases hlt
  | infinity sign =>
    cases sign with
    | positive =>
      obtain ⟨_, hy⟩ := hy
      rw [le_iff, hx, hy] at h
      cases h
    | negative => exact not_lt_sqrt hx rfl hlt
  | notANumber =>
    rw [le_iff, hx] at h
    cases h

theorem not_sqrt_lt_of_not_le {x y : Float} {n : Nat} {e : Int} (hy : IsValue (parts y) n e)
    (he : -1074 < e) (h : ¬ x ≤ y) : ¬ x.sqrt < y.sqrt := by
  obtain ⟨half', shift', hscaled', hroot'⟩ := hy.sqrt
  have hvalue := hy
  obtain ⟨_, hy⟩ := hy
  intro hlt
  cases hx : parts x with
  | finite sign m f hm =>
    cases sign with
    | positive =>
      have hx : IsValue (parts x) m f := ⟨hm, hx⟩
      obtain ⟨half, shift, hscaled, hroot⟩ := hx.sqrt
      rw [hx.le_iff hvalue] at h
      have hnormal := hx.canonical.normal
      have hlex := hscaled'.lex hscaled hvalue.canonical.high (by omega) (by omega)
      have hroots := (hroot.lt_iff hroot').1 hlt
      omega
    | negative => exact h (by rw [le_iff, hx, hy]; rfl)
  | zero sign => exact h (by rw [le_iff, hx, hy]; rfl)
  | infinity sign =>
    cases sign with
    | positive =>
      obtain ⟨_, hroot'⟩ := hroot'
      rw [lt_iff, parts_sqrt hx, hroot'] at hlt
      cases hlt
    | negative => exact h (by rw [le_iff, hx, hy]; rfl)
  | notANumber =>
    rw [lt_iff, parts_sqrt hx] at hlt
    cases hlt

/-! ## Squares -/

theorem IsValue.mul_self {r : Float} {m : Nat} {e : Int} (h : IsValue (parts r) m e)
    (hm : 2 ^ 52 ≤ m) (hlow : -563 ≤ e) (hhigh : e ≤ 458) :
    ∃ n k : Nat, IsValue (parts (r * r)) n (2 * e + k) ∧ Normal n (2 * e + k) ∧
      (k = 52 ∨ k = 53) ∧ m * (m - 1) < n * 2 ^ k ∧ n * 2 ^ k ≤ m * (m + 1) := by
  have hm' := Nat.le_sub_one_of_lt h.canonical.high
  obtain ⟨hpos, hr⟩ := h
  have hleast := Nat.mul_le_mul hm hm
  have hmost := Nat.mul_le_mul hm' hm'
  have hpred : m * (m - 1) + m = m * m := by
    rw [← Nat.mul_succ, Nat.succ_eq_add_one, Nat.sub_add_cancel hpos]
  have hsucc : m * (m + 1) = m * m + m := Nat.mul_succ m m
  -- half a unit is less than the distance to the square of a neighbour
  obtain ⟨k, hk, hmul, hmul'⟩ : ∃ k : Nat, (k = 52 ∨ k = 53 ∧ 2 ^ 52 < m) ∧
      2 ^ (52 + k) ≤ m * m ∧ m * m < 2 ^ (53 + k) := by
    by_cases hlong : m * m < 2 ^ 105
    · exact ⟨52, .inl rfl, hleast, hlong⟩
    · refine ⟨53, .inr ⟨rfl, ?_⟩, Nat.le_of_not_lt hlong, by omega⟩
      by_contra hle
      have := Nat.mul_le_mul (Nat.le_of_not_lt hle) (Nat.le_of_not_lt hle)
      omega
  obtain ⟨n, j, hround, hn, hj, hnear, hnear'⟩ :=
    isValue_round_of_long hmul hmul' (e := e + e) (by omega)
  rw [← Int.two_mul] at hn
  have hj' : j = 52 ∨ j = 53 := by
    rcases hj with rfl | ⟨rfl, rfl⟩
    · omega
    · rcases hk with rfl | ⟨rfl, -⟩
      · exact .inr rfl
      · omega
  refine ⟨n, j, ?_, hn, hj', ?_, ?_⟩
  · rw [parts_mul, hr]
    rw [Int.two_mul] at hn ⊢
    exact IsValue.unpack_pack hround hn (by omega)
  · rcases hk with rfl | ⟨rfl, hlt⟩ <;> omega
  · rcases hk with rfl | ⟨rfl, hlt⟩ <;> omega

/-- The root of the square is the number itself. -/
theorem IsValue.sqrt_mul_self {r : Float} {m : Nat} {e : Int} (h : IsValue (parts r) m e)
    (hm : 2 ^ 52 ≤ m) (hlow : -563 ≤ e) (hhigh : e ≤ 458) :
    IsValue (parts (r * r).sqrt) m e := by
  obtain ⟨n, k, hsquare, hn, hk, hnear, hnear'⟩ := h.mul_self hm hlow hhigh
  obtain ⟨half, shift, hscaled, hroot⟩ := hsquare.sqrt
  have hlog := log2_eq hn.low hn.high
  have hs := hscaled.exponent
  have hsize := hscaled.size
  obtain rfl : half = e := by omega
  obtain rfl : shift = k := by omega
  rwa [nearestRoot_eq hnear hnear'] at hroot

/-! ## Ranges -/

/-- The square of the range neither overflows nor underflows. -/
def Moderate (range : Float) : Prop := 1e-150 ≤ range ∧ range ≤ 1e150

namespace Moderate

variable {range x : Float}

theorem value (h : Moderate range) :
    ∃ m e, IsValue (parts range) m e ∧ 2 ^ 52 ≤ m ∧ -551 ≤ e ∧ e ≤ 446 := by
  obtain ⟨hlow, hhigh⟩ := h
  have hleast : IsValue (parts 1e-150) 7371020360979573 (-551) := by decide +kernel
  have hmost : IsValue (parts 1e150) 5503284107318959 446 := by decide +kernel
  obtain ⟨m, e, hvalue⟩ := isValue_of_between hleast hmost hlow hhigh
  have hfloor := (hleast.le_iff hvalue).1 hlow
  have hceil := (hvalue.le_iff hmost).1 hhigh
  have hnormal := hvalue.canonical.normal
  exact ⟨m, e, hvalue, by omega, by omega, by omega⟩

theorem not_lt_sqrt (h : Moderate range) (hx : x ≤ range * range) : ¬ range < x.sqrt := by
  obtain ⟨m, e, hvalue, hm, hlow, hhigh⟩ := h.value
  obtain ⟨n, k, hsquare, hn, -⟩ := hvalue.mul_self hm (by omega) (by omega)
  obtain ⟨_, hroot⟩ := hvalue.sqrt_mul_self hm (by omega) (by omega)
  obtain ⟨_, hvalue⟩ := hvalue
  have hroots := not_lt_sqrt_of_le hsquare hn.low hx
  rwa [lt_iff, hroot, ← hvalue, ← lt_iff] at hroots

theorem le_mul_self (h : Moderate range) (hx : x.sqrt < range) : x ≤ range * range := by
  obtain ⟨m, e, hvalue, hm, hlow, hhigh⟩ := h.value
  obtain ⟨n, k, hsquare, -, hk, -⟩ := hvalue.mul_self hm (by omega) (by omega)
  obtain ⟨_, hroot⟩ := hvalue.sqrt_mul_self hm (by omega) (by omega)
  obtain ⟨_, hvalue⟩ := hvalue
  by_contra hle
  have hroots := not_sqrt_lt_of_not_le hsquare (by omega) hle
  rw [lt_iff, hroot, ← hvalue, ← lt_iff] at hroots
  exact hroots hx

end Moderate

end SlotNet.Rounding
