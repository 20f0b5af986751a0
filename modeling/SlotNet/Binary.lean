/-!
# Binary floating point as exact numbers

A double or a single is decoded into a sign and `mantissa * 2 ^ exponent`, so that cutting,
rounding and printing are arithmetic on natural numbers.
-/

namespace SlotNet

/-- The exact value of a floating-point number. -/
inductive Binary where
  | nan
  | infinite (negative : Bool)
  /-- `mantissa * 2 ^ exponent`, below zero if `negative`. -/
  | finite (negative : Bool) (mantissa : Nat) (exponent : Int)
  deriving DecidableEq, Repr

namespace Binary

/-- How many bits hold the fraction and the exponent. -/
structure Layout where
  fractionBits : Nat
  exponentBits : Nat

def double : Layout := ⟨52, 11⟩

def single : Layout := ⟨23, 8⟩

/-- The exponent of the least subnormal number. -/
def Layout.leastExponent (l : Layout) : Int :=
  2 - Nat.pow 2 (l.exponentBits - 1) - l.fractionBits

/-- Reads the bits of a number: sign, exponent, fraction. -/
def decode (l : Layout) (bits : Nat) : Binary :=
  let fractions := Nat.pow 2 l.fractionBits
  let exponents := Nat.pow 2 l.exponentBits
  let fraction := bits % fractions
  let exponent := bits / fractions % exponents
  let negative := bits / (fractions * exponents) % 2 == 1
  if exponent + 1 = exponents then
    if fraction = 0 then .infinite negative else .nan
  else if exponent = 0 then .finite negative fraction l.leastExponent
  else .finite negative (fractions + fraction) (l.leastExponent + exponent - 1)

def ofFloat (x : Float) : Binary := decode double x.toBits.toNat

def ofFloat32 (x : Float32) : Binary := decode single x.toBits.toNat

/-! ## Whole numbers -/

/-- `m * 2 ^ q` as a fraction of two natural numbers, the second one positive. -/
def ratio (m : Nat) (q : Int) : Nat × Nat := (m * Nat.pow 2 q.toNat, Nat.pow 2 (-q).toNat)

/-- `num / den` to the nearest whole number; a half goes up. -/
def roundHalfUp (num den : Nat) : Nat := (2 * num + den) / (2 * den)

/-- `num / den` to the nearest whole number; a half goes to the even neighbour. -/
def roundHalfEven (num den : Nat) : Nat :=
  let low := num / den
  let twice := 2 * (num % den)
  if den < twice ∨ (twice = den ∧ low % 2 = 1) then low + 1 else low

/-- The number brought to a whole one by `whole`, kept between zero and `limit`. A number that is
none becomes zero. -/
def clamp (whole : Nat → Nat → Nat) (limit : Nat) : Binary → Nat
  | .nan | .infinite true | .finite true _ _ => 0
  | .infinite false => limit
  | .finite false m q => min limit (whole (ratio m q).1 (ratio m q).2)

/-- The whole part of a number, kept between zero and `limit`. -/
def truncate (limit : Nat) (x : Float) : Nat := clamp (· / ·) limit (ofFloat x)

/-- The nearest whole number, a half going up, kept between zero and `limit`. -/
def round (limit : Nat) (x : Float) : Nat := clamp roundHalfUp limit (ofFloat x)

end Binary

end SlotNet
