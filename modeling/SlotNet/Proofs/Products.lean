import SlotNet.Timing
import SlotNet.Proofs.Rounding

/-!
# Products and quotients in double precision

A product or a quotient of positive numbers is the exact one, rounded to the nearest number of 53 bits
(`Nearest`). It is off by half a unit at most, and it does not change the order. `Holds` says which
number a stored one is; what is too large to be stored is held as infinite, so that nothing is lost
where a number is cut to a whole one below a limit (`truncate_of_holds`).
-/

namespace SlotNet.Rounding

open Float.Model Float.Model.UnpackedFloat

/-! ## The nearest number of 53 bits -/

/-- The number `r * 2 ^ t` is nearest to `v` among those of 53 bits, the least exponent aside. -/
structure Nearest (v : ℚ) (r : Nat) (t : Int) : Prop where
  least : -1074 ≤ t
  carry : r ≤ 2 ^ 53
  normal : (2 ^ 52 ≤ r ∧ 2 ^ (t + 52) ≤ v) ∨ t = -1074
  below : v < 2 ^ (t + 53)
  low : v ≤ r * 2 ^ t + 2 ^ t / 2
  high : r * 2 ^ t ≤ v + 2 ^ t / 2

namespace Nearest

variable {v v' : ℚ} {r r' : Nat} {t t' : Int}

theorem lt_of_lt (h : Nearest v r t) (h' : Nearest v' r' t') (ht : t < t') : v < v' := by
  obtain ⟨-, hlow⟩ := h'.normal.resolve_right (by have := h.least; omega)
  refine h.below.trans_le (le_trans ?_ hlow)
  exact zpow_le_zpow_right₀ (by norm_num) (by omega)

theorem mono (h : Nearest v r t) (h' : Nearest v' r' t') (hv : v < v') :
    (r : ℚ) * 2 ^ t ≤ r' * 2 ^ t' := by
  rcases lt_trichotomy t t' with ht | rfl | ht
  · -- a power of two lies between the two
    obtain ⟨hr', -⟩ := h'.normal.resolve_right (by have := h.least; omega)
    have hr : (r : ℚ) ≤ 2 ^ 53 := by exact_mod_cast h.carry
    have hr' : (2 : ℚ) ^ 52 ≤ r' := by exact_mod_cast hr'
    calc (r : ℚ) * 2 ^ t ≤ 2 ^ 53 * 2 ^ t := by gcongr
      _ = 2 ^ (t + 53) := by rw [zpow_add₀ (by norm_num), mul_comm]; rfl
      _ ≤ 2 ^ (t' + 52) := zpow_le_zpow_right₀ (by norm_num) (by omega)
      _ = 2 ^ 52 * 2 ^ t' := by rw [zpow_add₀ (by norm_num), mul_comm]; rfl
      _ ≤ r' * 2 ^ t' := by gcongr
  · have hunit : (0 : ℚ) < 2 ^ t := zpow_pos (by norm_num) t
    have hle : r ≤ r' := by
      by_contra hlt
      have hlt : (r' : ℚ) + 1 ≤ r := by exact_mod_cast Nat.lt_of_not_le hlt
      have hlow := h'.low
      have hhigh := h.high
      nlinarith
    have hle : (r : ℚ) ≤ r' := by exact_mod_cast hle
    gcongr
  · exact absurd (h'.lt_of_lt h ht) hv.not_gt

theorem unit_le (h : Nearest v r t) (hv : 2 ^ (-1022 : Int) ≤ v) : (2 : ℚ) ^ t * 2 ^ 52 ≤ v := by
  rcases h.normal with ⟨-, hlow⟩ | rfl
  · rw [zpow_add₀ (by norm_num)] at hlow
    exact hlow
  · exact le_trans (le_of_eq (zpow_add₀ (by norm_num) (-1074) 52).symm) hv

theorem relative (h : Nearest v r t) (hv : 2 ^ (-1022 : Int) ≤ v) :
    v * (1 - 1 / 2 ^ 53) ≤ r * 2 ^ t ∧ (r : ℚ) * 2 ^ t ≤ v * (1 + 1 / 2 ^ 53) := by
  have hunit := h.unit_le hv
  have hlow := h.low
  have hhigh := h.high
  constructor <;> linarith

end Nearest

/-- A rounded mantissa as it is kept: one that was rounded up to 54 bits is halved. -/
def settled (r : Nat) (t : Int) : UnpackedFloat :=
  if h : r = 0 then .zero .positive
  else if r < 2 ^ 53 then .finite .positive r t (Nat.pos_of_ne_zero h)
  else .finite .positive (2 ^ 52) (t + 1) (by decide)

theorem shift_none {m : Nat} {e : Int} (hm : m.log2 ≤ 52) (he : -1074 ≤ e) :
    shiftToTargetExponent Format.binary64 m e .exact
      = (ExtendedMantissa.ofMantissaAndAccuracy m .exact, e) := by
  have hzero : (max (m.log2 + e - 52) (-1074) - e).toNat = 0 := by omega
  simp only [shiftToTargetExponent, shiftToExponent, targetExponent_eq, hzero, Int.natCast_zero,
    Int.add_zero]
  rfl

theorem round_eq_settled {n : Nat} {e t : Int} {accuracy : Accuracy} {em : ExtendedMantissa}
    (h : shiftToTargetExponent Format.binary64 n e accuracy = (em, t)) (ht : -1074 ≤ t)
    (hr : em.roundedMantissa ≤ 2 ^ 53) :
    roundWithAccuracy Format.binary64 .positive n e accuracy = settled em.roundedMantissa t := by
  unfold roundWithAccuracy settled
  simp only [h]
  rcases hr.lt_or_eq with hlt | hcarry
  · have hlog : em.roundedMantissa.log2 ≤ 52 := by
      by_cases hzero : em.roundedMantissa = 0
      · rw [hzero]
        decide
      · exact Nat.le_of_lt_succ ((Nat.log2_lt hzero).2 hlt)
    simp only [shift_none hlog ht, if_pos hlt]
    rfl
  · simp only [hcarry, shift_carry ht]
    rfl

theorem mantissa_of (n : Nat) (accuracy : Accuracy) :
    (ExtendedMantissa.ofMantissaAndAccuracy n accuracy).mantissa = n := by
  cases accuracy with
  | exact => rfl
  | inexact order => cases order <;> rfl

/-- The nearest number, when `num / unit` units of the last place are exact. -/
theorem nearest_of_units {num unit r : Nat} {t : Int} (hunit : 0 < unit) (ht : -1074 ≤ t)
    (hcarry : r ≤ 2 ^ 53) (hfull : (2 ^ 52 ≤ r ∧ 2 ^ 52 * unit ≤ num) ∨ t = -1074)
    (hbelow : num < 2 ^ 53 * unit) (hlow : 2 * num ≤ 2 * (r * unit) + unit)
    (hhigh : 2 * (r * unit) ≤ 2 * num + unit) : Nearest (num / unit * 2 ^ t) r t := by
  have hpow : (0 : ℚ) < 2 ^ t := zpow_pos (by norm_num) t
  have hunit : (0 : ℚ) < unit := by exact_mod_cast hunit
  have hbits : ∀ n : Nat, (2 : ℚ) ^ (t + n) = 2 ^ n * 2 ^ t := fun n => by
    rw [zpow_add₀ (by norm_num), zpow_natCast, mul_comm]
  have hlow' : (num : ℚ) / unit ≤ r + 1 / 2 := by
    rw [div_le_iff₀ hunit]
    have : (2 : ℚ) * num ≤ 2 * (r * unit) + unit := by exact_mod_cast hlow
    linarith
  have hhigh' : (r : ℚ) - 1 / 2 ≤ num / unit := by
    rw [le_div_iff₀ hunit]
    have : (2 : ℚ) * (r * unit) ≤ 2 * num + unit := by exact_mod_cast hhigh
    linarith
  have hnormal : 2 ^ 52 * unit ≤ num → (2 : ℚ) ^ (t + (52 : Nat)) ≤ num / unit * 2 ^ t := fun hnum => by
    have hnum : (2 : ℚ) ^ 52 * unit ≤ num := by exact_mod_cast hnum
    rw [hbits]
    exact mul_le_mul_of_nonneg_right ((le_div_iff₀ hunit).2 hnum) hpow.le
  have hbelow' : (num : ℚ) / unit * 2 ^ t < 2 ^ (t + (53 : Nat)) := by
    have hbelow : (num : ℚ) < 2 ^ 53 * unit := by exact_mod_cast hbelow
    rw [hbits]
    exact mul_lt_mul_of_pos_right ((div_lt_iff₀ hunit).2 hbelow) hpow
  refine ⟨ht, hcarry, hfull.imp_left (And.imp_right hnormal), hbelow', ?_, ?_⟩
  · linarith [mul_le_mul_of_nonneg_right hlow' hpow.le]
  · linarith [mul_le_mul_of_nonneg_right hhigh' hpow.le]

/-- Rounding gives the nearest number to what the mantissa and its accuracy stand for. -/
theorem nearest_round {n k num unit : Nat} {e : Int} {accuracy : Accuracy} (hn : 0 < n)
    (hunit : 0 < unit) (h : Stands (ExtendedMantissa.ofMantissaAndAccuracy n accuracy) num unit)
    (hk : max (n.log2 + e - 52) (-1074) - e = k) :
    ∃ r t, roundWithAccuracy Format.binary64 .positive n e accuracy = settled r t ∧
      Nearest (num / unit * 2 ^ e) r t := by
  obtain ⟨hlow, hhigh⟩ : 2 ^ n.log2 * unit ≤ num ∧ num < 2 ^ (n.log2 + 1) * unit := by
    obtain ⟨rest, hnum, hrest, -⟩ := h
    rw [mantissa_of] at hnum
    have hlow := Nat.mul_le_mul_right unit (Nat.log2_self_le (Nat.ne_of_gt hn))
    have hhigh := Nat.mul_le_mul_right unit (Nat.succ_le_of_lt (Nat.lt_log2_self (n := n)))
    rw [Nat.succ_mul] at hhigh
    omega
  obtain ⟨hnear, hnear'⟩ := roundedMantissa_near (stands_shiftRight h k)
  have hshift := shift_by hk accuracy
  generalize ExtendedMantissa.ofMantissaAndAccuracy n accuracy >>> k = em at *
  have hbelow : num < 2 ^ 53 * (2 ^ k * unit) := by
    rw [← Nat.mul_assoc, ← Nat.pow_add]
    refine hhigh.trans_le (Nat.mul_le_mul_right unit ?_)
    exact Nat.pow_le_pow_right (by decide) (by omega)
  have habove : e + k = -1074 ∨ 2 ^ 52 * (2 ^ k * unit) ≤ num := by
    refine or_iff_not_imp_left.2 fun hleast => ?_
    rw [← Nat.mul_assoc, ← Nat.pow_add]
    refine le_trans (Nat.mul_le_mul_right unit ?_) hlow
    exact Nat.pow_le_pow_right (by decide) (by omega)
  have hpos : 0 < 2 ^ k * unit := Nat.mul_pos (Nat.two_pow_pos k) hunit
  have hcarry : em.roundedMantissa ≤ 2 ^ 53 := by
    by_contra hlt
    have := Nat.mul_le_mul_right (2 ^ k * unit) (Nat.succ_le_of_lt (Nat.lt_of_not_le hlt))
    rw [Nat.succ_mul] at this
    omega
  have hfull : e + k = -1074 ∨ 2 ^ 52 ≤ em.roundedMantissa := by
    refine habove.imp_right fun habove => ?_
    by_contra hlt
    have := Nat.mul_le_mul_right (2 ^ k * unit) (Nat.succ_le_of_lt (Nat.lt_of_not_le hlt))
    rw [Nat.succ_mul] at this
    omega
  refine ⟨_, _, round_eq_settled hshift (by omega) hcarry, ?_⟩
  have hvalue : (num / unit * 2 ^ e : ℚ) = num / (2 ^ k * unit : Nat) * 2 ^ (e + k) := by
    rw [zpow_add₀ (by norm_num), zpow_natCast, Nat.cast_mul, Nat.cast_pow, Nat.cast_ofNat]
    field_simp
  rw [hvalue]
  exact nearest_of_units hpos (by omega) hcarry (by omega) hbelow hnear hnear'

/-! ## Stored numbers -/

/-- The number that is stored. What is infinite stands for anything too large. -/
inductive Holds (x : Float) (v : ℚ) : Prop
  | zero (h : parts x = .zero .positive) (hv : v = 0)
  | value {m : Nat} {e : Int} (h : IsValue (parts x) m e) (hv : v = m * 2 ^ e)
  | infinite (h : parts x = .infinity .positive) (hv : 2 ^ 1024 ≤ v)

theorem IsValue.unpack_pack_subnormal {u : UnpackedFloat} {m : Nat} (h : IsValue u m (-1074))
    (hm : m < 2 ^ 52) : IsValue (Float.Model.pack u).unpack m (-1074) := by
  obtain ⟨hpos, rfl⟩ := h
  refine ⟨hpos, ?_⟩
  have hlog : m.log2 < 52 := (Nat.log2_lt (Nat.ne_of_gt hpos)).2 hm
  have hpack : UnpackedFloat.pack Format.binary64 (.finite .positive m (-1074) hpos)
      = packComponents Format.binary64 .positive 0#11 (BitVec.ofNat 52 m) := by
    unfold UnpackedFloat.pack
    show (if 2 ^ 11 ≤ 1 + 1 then _ else if m.log2 + 1 = 53 then _ else packComponents
      Format.binary64 .positive 0#11 (BitVec.ofNat 52 m)) = _
    rw [if_neg (show ¬ m.log2 + 1 = 53 by omega)]
    rfl
  have hmantissa : (BitVec.ofNat 52 m).toNat = m := by
    rw [BitVec.toNat_ofNat, Nat.mod_eq_of_lt hm]
  have hnonzero : BitVec.ofNat 52 m ≠ 0#52 := fun h => by
    have := congrArg BitVec.toNat h
    rw [hmantissa] at this
    change m = 0 at this
    omega
  have hfinite : 0#11 ≠ -1#11 := by decide
  show UnpackedFloat.unpack _ (UnpackedFloat.pack _ _) = _
  rw [hpack]
  unfold UnpackedFloat.unpack
  simp only [unpackMantissa_packComponents, unpackExponent_packComponents, unpackSign_packComponents,
    Sign.ofBitVec_toBitVec, if_neg hfinite, dif_neg hnonzero, hmantissa]
  rfl

theorem holds_stored {x : Float} {u : UnpackedFloat} {m : Nat} {e : Int} (h : IsValue u m e)
    (hm : m < 2 ^ 53) (he : -1074 ≤ e) (hnormal : 2 ^ 52 ≤ m ∨ e = -1074)
    (hx : parts x = (Float.Model.pack u).unpack) : Holds x (m * 2 ^ e) := by
  rcases Nat.lt_or_ge m (2 ^ 52) with hlt | hge
  · obtain rfl : e = -1074 := hnormal.resolve_left (Nat.not_le_of_lt hlt)
    exact .value (hx ▸ h.unpack_pack_subnormal hlt) rfl
  · rcases Int.lt_or_le 971 e with hlarge | hsmall
    · refine .infinite ?_ ?_
      · obtain ⟨hpos, rfl⟩ := h
        have hpack : UnpackedFloat.pack Format.binary64 (.finite .positive m e hpos)
            = packedInfinity Format.binary64 .positive := by
          unfold UnpackedFloat.pack
          exact if_pos (show 2 ^ 11 ≤ (e + (1023 : Nat) + (52 : Nat)).toNat + 1 by omega)
        rw [hx]
        show UnpackedFloat.unpack _ (UnpackedFloat.pack _ _) = _
        rw [hpack]
        rfl
      · have hge : (2 : ℚ) ^ 52 ≤ m := by exact_mod_cast hge
        have hpow : (2 : ℚ) ^ (972 : Int) ≤ 2 ^ e := zpow_le_zpow_right₀ (by norm_num) (by omega)
        calc (2 : ℚ) ^ 1024 = (2 : ℚ) ^ 52 * (2 : ℚ) ^ (972 : Int) := by
              rw [zpow_ofNat, ← pow_add]
          _ ≤ (m : ℚ) * (2 : ℚ) ^ e := by gcongr
    · exact .value (hx ▸ h.unpack_pack ⟨hge, hm, he⟩ hsmall) rfl

theorem Nearest.holds {v : ℚ} {r : Nat} {t : Int} (h : Nearest v r t) {x : Float}
    (hx : parts x = (Float.Model.pack (settled r t)).unpack) : Holds x (r * 2 ^ t) := by
  by_cases hzero : r = 0
  · subst hzero
    rw [settled, dif_pos rfl] at hx
    rw [Nat.cast_zero, zero_mul]
    exact .zero hx rfl
  · have hpos := Nat.pos_of_ne_zero hzero
    rw [settled, dif_neg hzero] at hx
    rcases h.carry.lt_or_eq with hlt | rfl
    · rw [if_pos hlt] at hx
      exact holds_stored ⟨hpos, rfl⟩ hlt h.least (h.normal.imp_left And.left) hx
    · rw [if_neg (lt_irrefl _)] at hx
      have hhalf : ((2 ^ 53 : Nat) : ℚ) * 2 ^ t = (2 ^ 52 : Nat) * 2 ^ (t + 1) := by
        rw [zpow_add₀ (by norm_num), zpow_one]
        push_cast
        ring
      rw [hhalf]
      exact holds_stored ⟨by decide, rfl⟩ (by decide) (by have := h.least; omega)
        (.inl (Nat.le_refl _)) hx

/-! ## Whole numbers -/

def below : Sign → Bool
  | .negative => true
  | .positive => false

def asBinary : UnpackedFloat → Binary
  | .notANumber => .nan
  | .infinity sign => .infinite (below sign)
  | .zero sign => .finite (below sign) 0 (-1074)
  | .finite sign m e _ => .finite (below sign) m e

theorem below_ofBitVec (b : BitVec 1) : below (Sign.ofBitVec b) = (b.toNat == 1) := by
  revert b
  decide

theorem ofFloat_eq (x : Float) : Binary.ofFloat x = asBinary (parts x) := by
  have hfraction : (@unpackMantissa Format.binary64 x.toModel.toBits.toBitVec).toNat
      = x.toBits.toNat % 2 ^ 52 := rfl
  have hexponent : (@unpackExponent Format.binary64 x.toModel.toBits.toBitVec).toNat
      = x.toBits.toNat / 2 ^ 52 % 2 ^ 11 := by
    show (x.toBits.toNat >>> 52) % 2 ^ 11 = _
    rw [Nat.shiftRight_eq_div_pow]
  have hsign : below (Sign.ofBitVec (@unpackSign Format.binary64 x.toModel.toBits.toBitVec))
      = (x.toBits.toNat / 2 ^ 63 % 2 == 1) := by
    rw [below_ofBitVec]
    show ((x.toBits.toNat >>> 63) % 2 == 1) = _
    rw [Nat.shiftRight_eq_div_pow]
  have hinfinite : @unpackExponent Format.binary64 x.toModel.toBits.toBitVec = -1#11
      ↔ x.toBits.toNat / 2 ^ 52 % 2 ^ 11 + 1 = 2 ^ 11 := by
    rw [← BitVec.toNat_inj, hexponent]
    show _ = 2047 ↔ _
    omega
  have hleast : @unpackExponent Format.binary64 x.toModel.toBits.toBitVec = 0#11
      ↔ x.toBits.toNat / 2 ^ 52 % 2 ^ 11 = 0 := by
    rw [← BitVec.toNat_inj, hexponent]
    rfl
  have hzero : @unpackMantissa Format.binary64 x.toModel.toBits.toBitVec = 0#52
      ↔ x.toBits.toNat % 2 ^ 52 = 0 := by
    rw [← BitVec.toNat_inj, hfraction]
    rfl
  have hdecode : Binary.ofFloat x = if x.toBits.toNat / 2 ^ 52 % 2 ^ 11 + 1 = 2 ^ 11 then
      if x.toBits.toNat % 2 ^ 52 = 0 then .infinite (x.toBits.toNat / 2 ^ 63 % 2 == 1) else .nan
    else if x.toBits.toNat / 2 ^ 52 % 2 ^ 11 = 0 then
      .finite (x.toBits.toNat / 2 ^ 63 % 2 == 1) (x.toBits.toNat % 2 ^ 52) (-1074)
    else .finite (x.toBits.toNat / 2 ^ 63 % 2 == 1) (2 ^ 52 + x.toBits.toNat % 2 ^ 52)
      (-1074 + (x.toBits.toNat / 2 ^ 52 % 2 ^ 11 : Nat) - 1) := rfl
  rw [hdecode]
  unfold parts Float.Model.unpack UnpackedFloat.unpack
  dsimp only
  by_cases hi : x.toBits.toNat / 2 ^ 52 % 2 ^ 11 + 1 = 2 ^ 11
  · rw [if_pos hi, if_pos (hinfinite.2 hi)]
    by_cases hz : x.toBits.toNat % 2 ^ 52 = 0
    · rw [if_pos hz, if_pos (hzero.2 hz), asBinary, hsign]
    · rw [if_neg hz, if_neg (mt hzero.1 hz)]
      rfl
  · rw [if_neg hi, if_neg (mt hinfinite.1 hi)]
    by_cases hl : x.toBits.toNat / 2 ^ 52 % 2 ^ 11 = 0
    · rw [if_pos hl, if_pos (hleast.2 hl)]
      by_cases hz : x.toBits.toNat % 2 ^ 52 = 0
      · rw [hz, dif_pos (hzero.2 hz), asBinary, hsign]
      · rw [dif_neg (mt hzero.1 hz), asBinary, hsign, hfraction, hexponent, hl]
        rfl
    · rw [if_neg hl, if_neg (mt hleast.1 hl), asBinary, hsign, toNat_implicit, hfraction, hexponent]
      congr 1
      show _ = (_ : Int) - (1023 + 52)
      omega

theorem ratio_floor (m : Nat) (q : Int) :
    (Binary.ratio m q).1 / (Binary.ratio m q).2 = ⌊(m : ℚ) * 2 ^ q⌋₊ := by
  show m * 2 ^ q.toNat / 2 ^ (-q).toNat = _
  rcases Int.le_total 0 q with hq | hq
  · lift q to Nat using hq
    rw [zpow_natCast, show (-(q : Int)).toNat = 0 by omega, Int.toNat_natCast, Nat.pow_zero,
      Nat.div_one]
    exact_mod_cast (Nat.floor_natCast (R := ℚ) (m * 2 ^ q)).symm
  · obtain ⟨k, rfl⟩ : ∃ k : Nat, q = -k := ⟨(-q).toNat, by omega⟩
    rw [show (-(k : Int)).toNat = 0 by omega, Int.neg_neg, Int.toNat_natCast, Nat.pow_zero,
      Nat.mul_one, zpow_neg, zpow_natCast, ← div_eq_mul_inv]
    exact_mod_cast (Nat.floor_div_eq_div (K := ℚ) m (2 ^ k)).symm

theorem ratio_pos (m : Nat) (q : Int) : 0 < (Binary.ratio m q).2 := Nat.two_pow_pos _

theorem truncate_of_holds {x : Float} {v : ℚ} (h : Holds x v) {limit : Nat}
    (hlimit : limit ≤ 2 ^ 64) : Binary.truncate limit x = min limit ⌊v⌋₊ := by
  rw [Binary.truncate, ofFloat_eq]
  cases h with
  | zero h hv =>
    rw [h, hv]
    show min limit ((Binary.ratio 0 (-1074)).1 / (Binary.ratio 0 (-1074)).2) = _
    rw [ratio_floor, Nat.cast_zero, zero_mul]
  | value h hv =>
    obtain ⟨_, h⟩ := h
    rw [h, hv, ← ratio_floor]
    rfl
  | infinite h hv =>
    rw [h]
    refine (Nat.min_eq_left (Nat.le_floor ?_)).symm
    have hlimit : (limit : ℚ) ≤ 2 ^ 64 := by exact_mod_cast hlimit
    exact hlimit.trans (le_trans (pow_le_pow_right₀ (by norm_num) (by norm_num)) hv)

theorem truncate_le_round (limit : Nat) (x : Float) :
    Binary.truncate limit x ≤ Binary.round limit x := by
  unfold Binary.truncate Binary.round
  generalize Binary.ofFloat x = number
  cases number with
  | nan => exact Nat.le_refl _
  | infinite negative => cases negative <;> exact Nat.le_refl _
  | finite negative m q =>
    cases negative with
    | true => exact Nat.le_refl _
    | false =>
      refine min_le_min_left limit ?_
      have hpos := ratio_pos m q
      show (Binary.ratio m q).1 / (Binary.ratio m q).2 ≤ _
      rw [Binary.roundHalfUp, Nat.le_div_iff_mul_le (by omega)]
      have := Nat.div_mul_le_self (Binary.ratio m q).1 (Binary.ratio m q).2
      rw [Nat.mul_left_comm]
      omega

def Above : UnpackedFloat → Prop
  | .finite .positive _ _ _ | .infinity .positive => True
  | _ => False

theorem truncate_eq_zero {x : Float} (h : ¬ Above (parts x)) (limit : Nat) :
    Binary.truncate limit x = 0 := by
  rw [Binary.truncate, ofFloat_eq]
  generalize parts x = u at h
  match u, h with
  | .notANumber, _ => rfl
  | .infinity .negative, _ => rfl
  | .infinity .positive, h => exact absurd trivial h
  | .zero .negative, _ => rfl
  | .zero .positive, _ =>
    show min limit ((Binary.ratio 0 (-1074)).1 / (Binary.ratio 0 (-1074)).2) = 0
    rw [ratio_floor, Nat.cast_zero, zero_mul, Nat.floor_zero, Nat.min_zero]
  | .finite .negative .., _ => rfl
  | .finite .positive .., h => exact absurd trivial h

/-! ## Products -/

section Products

variable {x y : Float} {m n : Nat} {e f : Int}

theorem IsValue.mul (hx : IsValue (parts x) m e) (hy : IsValue (parts y) n f)
    (hlong : 2 ^ 52 ≤ m ∨ 2 ^ 52 ≤ n) :
    ∃ r t, Nearest (m * 2 ^ e * (n * 2 ^ f)) r t ∧ Holds (x * y) (r * 2 ^ t) := by
  obtain ⟨hm, hx⟩ := hx
  obtain ⟨hn, hy⟩ := hy
  have hlog : 52 ≤ (m * n).log2 := by
    rw [Nat.le_log2 (Nat.mul_pos hm hn).ne']
    rcases hlong with hlong | hlong <;> nlinarith
  obtain ⟨k, hk⟩ : ∃ k : Nat, max ((m * n).log2 + (e + f) - 52) (-1074) - (e + f) = k :=
    ⟨(max ((m * n).log2 + (e + f) - 52) (-1074) - (e + f)).toNat, by omega⟩
  obtain ⟨r, t, hround, hnear⟩ :=
    nearest_round (Nat.mul_pos hm hn) Nat.one_pos (stands_exact (m * n)) hk
  have hvalue : ((m * n : Nat) / (1 : Nat) * 2 ^ (e + f) : ℚ) = m * 2 ^ e * (n * 2 ^ f) := by
    rw [zpow_add₀ (by norm_num), Nat.cast_one, div_one, Nat.cast_mul]
    ring
  rw [hvalue] at hnear
  refine ⟨r, t, hnear, hnear.holds ?_⟩
  rw [parts_mul, hx, hy, ← hround]
  rfl

theorem unpackSign_pack_finite (sign : Sign) (m : Nat) (e : Int) (hm : 0 < m) :
    unpackSign (UnpackedFloat.pack Format.binary64 (.finite sign m e hm)) = sign.toBitVec := by
  unfold UnpackedFloat.pack
  dsimp only
  split
  · exact unpackSign_packComponents _ _ _
  · split <;> exact unpackSign_packComponents _ _ _

theorem not_above_unpack {b : BitVec Format.binary64.numBits}
    (h : unpackSign b = Sign.toBitVec .negative) : ¬ Above (UnpackedFloat.unpack Format.binary64 b) := by
  unfold UnpackedFloat.unpack
  dsimp only
  rw [h, Sign.ofBitVec_toBitVec]
  split
  · split <;> exact not_false
  · split
    · split <;> exact not_false
    · exact not_false

theorem not_above_mul (hx : IsValue (parts x) m e) (hy : ¬ Above (parts y)) :
    ¬ Above (parts (x * y)) := by
  obtain ⟨hm, hx⟩ := hx
  rw [parts_mul, hx]
  generalize parts y = u at hy
  match u, hy with
  | .notANumber, _ =>
    show ¬ Above (Float.Model.pack .notANumber).unpack
    exact not_false
  | .zero .negative, _ =>
    show ¬ Above (Float.Model.pack (.zero .negative)).unpack
    exact not_false
  | .zero .positive, _ =>
    show ¬ Above (Float.Model.pack (.zero .positive)).unpack
    exact not_false
  | .infinity .negative, _ =>
    show ¬ Above (Float.Model.pack (.infinity .negative)).unpack
    exact not_false
  | .infinity .positive, hy => exact absurd trivial hy
  | .finite .positive .., hy => exact absurd trivial hy
  | .finite .negative n f hn, _ =>
    show ¬ Above (Float.Model.pack (roundWithAccuracy Format.binary64 .negative _ _ _)).unpack
    unfold roundWithAccuracy
    dsimp only
    split
    next => exact not_false
    next hne => exact not_above_unpack (unpackSign_pack_finite _ _ _ (Nat.pos_of_ne_zero hne))

theorem infinite_or_isValue (h : Above (parts x)) :
    parts x = .infinity .positive ∨ ∃ m e, IsValue (parts x) m e := by
  generalize parts x = u at h
  match u, h with
  | .infinity .positive, _ => exact .inl rfl
  | .finite .positive m e hm, _ => exact .inr ⟨m, e, hm, rfl⟩

theorem parts_mul_infinite (hx : IsValue (parts x) m e) (hy : parts y = .infinity .positive) :
    parts (x * y) = .infinity .positive := by
  obtain ⟨hm, hx⟩ := hx
  rw [parts_mul, hx, hy]
  show (Float.Model.pack (.infinity .positive)).unpack = _
  rfl

theorem parts_infinite_mul (hx : parts x = .infinity .positive) (hy : IsValue (parts y) n f) :
    parts (x * y) = .infinity .positive := by
  obtain ⟨hn, hy⟩ := hy
  rw [parts_mul, hx, hy]
  show (Float.Model.pack (.infinity .positive)).unpack = _
  rfl

theorem value_lt (hx : IsValue (parts x) m e) (hy : IsValue (parts y) n f)
    (h : e < f ∨ e = f ∧ m < n) : (m : ℚ) * 2 ^ e < n * 2 ^ f := by
  have hpow : (0 : ℚ) < 2 ^ e := zpow_pos (by norm_num) e
  rcases h with hlt | ⟨rfl, hlt⟩
  · have hm : (m : ℚ) < 2 ^ 53 := by exact_mod_cast hx.canonical.high
    have hn : (2 : ℚ) ^ 52 ≤ n := by
      exact_mod_cast hy.canonical.normal.resolve_right (by have := hx.canonical.least; omega)
    calc (m : ℚ) * 2 ^ e < 2 ^ 53 * 2 ^ e := mul_lt_mul_of_pos_right hm hpow
      _ = 2 ^ 52 * 2 ^ (e + 1) := by
        rw [zpow_add₀ (by norm_num), zpow_one]
        ring
      _ ≤ 2 ^ 52 * 2 ^ f := by
        gcongr
        · norm_num
        · omega
      _ ≤ n * 2 ^ f := by gcongr
  · have hlt : (m : ℚ) < n := by exact_mod_cast hlt
    exact mul_lt_mul_of_pos_right hlt hpow

theorem value_le (hx : IsValue (parts x) m e) (hy : IsValue (parts y) n f) (h : x ≤ y) :
    (m : ℚ) * 2 ^ e ≤ n * 2 ^ f := by
  rcases (show (e < f ∨ e = f ∧ m < n) ∨ e = f ∧ m = n by
    have := (hx.le_iff hy).1 h; omega) with hlt | ⟨rfl, rfl⟩
  · exact (value_lt hx hy hlt).le
  · exact le_refl _

theorem IsValue.normal_of_one_le (hx : IsValue (parts x) m e) (h : 1 ≤ (m : ℚ) * 2 ^ e) :
    2 ^ 52 ≤ m ∧ -52 ≤ e := by
  have he : -52 ≤ e := by
    by_contra hlt
    have hm : (m : ℚ) < 2 ^ 53 := by exact_mod_cast hx.canonical.high
    have hpow : (2 : ℚ) ^ e ≤ 2 ^ (-53 : Int) := zpow_le_zpow_right₀ (by norm_num) (by omega)
    have hsmall : (m : ℚ) * 2 ^ e < 2 ^ 53 * 2 ^ (-53 : Int) :=
      mul_lt_mul hm hpow (zpow_pos (by norm_num) e) (by norm_num)
    norm_num at hsmall
    linarith
  exact ⟨hx.canonical.normal.resolve_right (by omega), he⟩

theorem truncate_mul_mono {c : Float} {k : Nat} {g : Int} (hc : IsValue (parts c) k g)
    (hk : 2 ^ 52 ≤ k) (hx : IsValue (parts x) m e) (hy : IsValue (parts y) n f) (h : x ≤ y)
    {limit : Nat} (hlimit : limit ≤ 2 ^ 64) :
    Binary.truncate limit (c * x) ≤ Binary.truncate limit (c * y) := by
  rcases (show (e < f ∨ e = f ∧ m < n) ∨ e = f ∧ m = n by
    have := (hx.le_iff hy).1 h; omega) with hlt | ⟨rfl, rfl⟩
  · have hlt := value_lt hx hy hlt
    obtain ⟨r, t, hnear, hholds⟩ := hc.mul hx (.inl hk)
    obtain ⟨r', t', hnear', hholds'⟩ := hc.mul hy (.inl hk)
    have hpos : (0 : ℚ) < k * 2 ^ g :=
      mul_pos (by exact_mod_cast hc.choose) (zpow_pos (by norm_num) g)
    rw [truncate_of_holds hholds hlimit, truncate_of_holds hholds' hlimit]
    refine min_le_min_left limit (Nat.floor_mono (hnear.mono hnear' ?_))
    exact mul_lt_mul_of_pos_left hlt hpos
  · obtain ⟨_, hx⟩ := hx
    obtain ⟨_, hy⟩ := hy
    rw [Binary.truncate, Binary.truncate, ofFloat_eq, ofFloat_eq, parts_mul, parts_mul, hx, hy]

end Products

/-! ## Numbers above zero -/

section Above

variable {x y : Float}

theorem above_of_pos (h : 0.0 < x) : Above (parts x) := by
  rw [lt_iff, show parts 0.0 = .zero .positive from rfl] at h
  generalize parts x = u at h
  match u, h with
  | .finite .positive .., _ => trivial
  | .infinity .positive, _ => trivial

theorem zero_le_of_above (h : Above (parts x)) : 0.0 ≤ x := by
  rw [le_iff, show parts 0.0 = .zero .positive from rfl]
  generalize parts x = u at h
  match u, h with
  | .finite .positive .., _ => rfl
  | .infinity .positive, _ => rfl

theorem le_self_of_above (h : Above (parts x)) : x ≤ x := by
  rcases infinite_or_isValue h with hx | ⟨m, e, hx⟩
  · rw [le_iff, hx]
    rfl
  · exact (hx.le_iff hx).2 (.inr ⟨rfl, Nat.le_refl m⟩)

theorem not_lt_of_le (hx : Above (parts x)) (hy : Above (parts y)) (h : x ≤ y) : ¬ y < x := by
  rcases infinite_or_isValue hy with hy | ⟨n, f, hy⟩
  · rw [lt_iff, hy]
    rcases infinite_or_isValue hx with hx | ⟨m, e, hm, hx⟩ <;> rw [hx] <;> exact nofun
  · rcases infinite_or_isValue hx with hx | ⟨m, e, hx⟩
    · obtain ⟨_, hy⟩ := hy
      rw [le_iff, hx, hy] at h
      cases h
    · rw [hx.le_iff hy] at h
      rw [hy.lt_iff hx]
      omega

end Above

/-! ## Quotients -/

theorem accuracy_of (n : Nat) (accuracy : Accuracy) :
    (ExtendedMantissa.ofMantissaAndAccuracy n accuracy).accuracy = accuracy := by
  cases accuracy with
  | exact => rfl
  | inexact order => cases order <;> rfl

theorem measures_fraction {rest unit : Nat} (h : rest < unit) :
    Measures unit rest (accuracyOfFraction rest unit) := by
  unfold accuracyOfFraction
  split
  · assumption
  · cases horder : compare (2 * rest) unit with
    | lt => exact ⟨by omega, Nat.compare_eq_lt.1 horder⟩
    | eq => exact Nat.compare_eq_eq.1 horder
    | gt => exact ⟨Nat.compare_eq_gt.1 horder, h⟩

theorem stands_quotient {num unit : Nat} (hunit : 0 < unit) : Stands
    (ExtendedMantissa.ofMantissaAndAccuracy (num / unit) (accuracyOfFraction (num % unit) unit))
    num unit := by
  refine ⟨num % unit, ?_, Nat.mod_lt _ hunit, ?_⟩
  · rw [mantissa_of]
    exact (Nat.div_add_mod' num unit).symm
  · rw [accuracy_of]
    exact measures_fraction (Nat.mod_lt _ hunit)

theorem parts_div (x y : Float) :
    parts (x / y) = (Float.Model.pack (div Format.binary64 (parts x) (parts y))).unpack := rfl

theorem parts_infinite_div {x y : Float} {n : Nat} {f : Int} (hx : parts x = .infinity .positive)
    (hy : IsValue (parts y) n f) : parts (x / y) = .infinity .positive := by
  obtain ⟨hn, hy⟩ := hy
  rw [parts_div, hx, hy]
  show (Float.Model.pack (.infinity .positive)).unpack = _
  rfl

theorem divCore_eq {m n : Nat} {e f : Int} (hm : m.log2 = 52) (hn : n.log2 = 52)
    (hexponent : -1021 ≤ e - f) : divCore Format.binary64 m e n f
      = (m * 2 ^ 53 / n, e - f - 53, accuracyOfFraction (m * 2 ^ 53 % n) n) := by
  have htarget : min (e - f) (Format.binary64.targetExponent (totalExponent m e - totalExponent n f))
      = e - f - 53 := by
    simp only [Format.targetExponent, totalExponent, hm, hn, Format.mantissaBits, Format.minExponent]
    show min (e - f) (max (((52 : Nat) : Int) + 1 + e - (((52 : Nat) : Int) + 1 + f) - 53) (-1074)) = _
    omega
  have hshift : (e - f - (e - f - 53)).toNat = 53 := by omega
  simp only [divCore, htarget, hshift, Nat.shiftLeft_eq]

theorem IsValue.div {x y : Float} {m n : Nat} {e f : Int} (hx : IsValue (parts x) m e)
    (hy : IsValue (parts y) n f) (hm : 2 ^ 52 ≤ m) (hn : 2 ^ 52 ≤ n) (hexponent : -1021 ≤ e - f) :
    ∃ r t, Nearest (m * 2 ^ e / (n * 2 ^ f)) r t ∧ Holds (x / y) (r * 2 ^ t) := by
  have hcore := divCore_eq (log2_eq hm hx.canonical.high) (log2_eq hn hy.canonical.high) hexponent
  have hlarge : 2 ^ 52 ≤ m * 2 ^ 53 / n := by
    have := hy.canonical.high
    rw [Nat.le_div_iff_mul_le (by omega)]
    nlinarith
  have hlog : 52 ≤ (m * 2 ^ 53 / n).log2 := (Nat.le_log2 (by omega)).2 hlarge
  obtain ⟨hmpos, hx⟩ := hx
  obtain ⟨hnpos, hy⟩ := hy
  have hk : max ((m * 2 ^ 53 / n).log2 + (e - f - 53) - 52) (-1074) - (e - f - 53)
      = ((m * 2 ^ 53 / n).log2 - 52 : Nat) := by omega
  obtain ⟨r, t, hround, hnear⟩ := nearest_round (Nat.lt_of_lt_of_le (by decide) hlarge) hnpos
    (stands_quotient hnpos) hk
  have hvalue : ((m * 2 ^ 53 : Nat) / n * 2 ^ (e - f - 53) : ℚ) = m * 2 ^ e / (n * 2 ^ f) := by
    rw [zpow_sub₀ (by norm_num), zpow_sub₀ (by norm_num), Nat.cast_mul, zpow_ofNat]
    field_simp
    push_cast
    ring
  rw [hvalue] at hnear
  refine ⟨r, t, hnear, hnear.holds ?_⟩
  rw [parts_div, hx, hy, ← hround]
  simp only [UnpackedFloat.div, hcore]
  rfl

end SlotNet.Rounding
