import SlotNet.Binary

/-!
# Shortest decimals

The shortest decimal of a binary number is the one with the fewest digits among those that read
back to it, and of these the nearest. A binary number owns the interval between the midpoints to
its two neighbours, the ends included when its mantissa is even. For one digit, two digits and so
on the two decimals around the number are tried until one lies in the interval.
-/

namespace SlotNet

/-- `significand * 10 ^ exponent`. -/
structure Decimal where
  significand : Nat
  exponent : Int
  deriving DecidableEq, Repr

namespace Decimal

/-- The digits of the significand. -/
def digits (d : Decimal) : List Char := Nat.toDigits 10 d.significand

/-- The number is `0.d₁d₂… * 10 ^ point`. -/
def point (d : Decimal) : Int := d.digits.length + d.exponent

/-- Drops zeros at the end of the significand, at most `fuel` of them. -/
def stripZeros (fuel : Nat) (d : Decimal) : Decimal :=
  match fuel with
  | 0 => d
  | fuel + 1 =>
    if d.significand % 10 = 0 ∧ d.significand ≠ 0 then
      stripZeros fuel ⟨d.significand / 10, d.exponent + 1⟩
    else d

/-- What happens when two decimals of one length are equally near. -/
inductive Tie where
  | up
  | toEven
  deriving DecidableEq, Repr

/-- A positive number with the interval of the numbers that read back to it, all three over one
denominator. -/
structure Interval where
  low : Nat
  value : Nat
  high : Nat
  den : Nat
  closed : Bool

/-- The interval of `m * 2 ^ q`. Below a power of two the numbers lie twice as close, except at the
bottom of the range. -/
def Interval.around (l : Binary.Layout) (m : Nat) (q : Int) : Interval :=
  let (num, den) := Binary.ratio 1 (q - 2)
  let below := if m = Nat.pow 2 l.fractionBits ∧ l.leastExponent < q then 1 else 2
  { low := (4 * m - below) * num, value := 4 * m * num, high := (4 * m + 2) * num, den
    closed := m % 2 == 0 }

def Interval.holds (i : Interval) (n : Nat) (k : Int) : Bool :=
  let x := n * Nat.pow 10 k.toNat * i.den
  let scale := Nat.pow 10 (-k).toNat
  if i.closed then i.low * scale ≤ x && x ≤ i.high * scale
  else i.low * scale < x && x < i.high * scale

/-- The power of ten of the first digit of `num / den`. -/
def leadingPower (num den : Nat) : Int :=
  if den ≤ num then (Nat.toDigits 10 (num / den)).length - 1
  else - (Nat.toDigits 10 ((den + num - 1) / num - 1)).length

/-- The better of the two decimals `n * 10 ^ k` and `(n + 1) * 10 ^ k` around the value, if one of
them is in the interval. -/
def Interval.candidate (i : Interval) (tie : Tie) (k : Int) : Option Decimal :=
  let num := i.value * Nat.pow 10 (-k).toNat
  let den := i.den * Nat.pow 10 k.toNat
  let n := num / den
  let twice := 2 * (num % den)
  let upNearer := den < twice ∨ (twice = den ∧ (tie = .up ∨ n % 2 = 1))
  match i.holds n k, i.holds (n + 1) k with
  | true, true => some ⟨if upNearer then n + 1 else n, k⟩
  | true, false => some ⟨n, k⟩
  | false, true => some ⟨n + 1, k⟩
  | false, false => none

/-- The first candidate on the grids of `n`, `n + 1`, … digits. -/
def Interval.search (i : Interval) (tie : Tie) (lead : Int) : Nat → Nat → Option Decimal
  | 0, _ => none
  | fuel + 1, n =>
    match i.candidate tie (lead + 1 - n) with
    | some d => some d
    | none => i.search tie lead fuel (n + 1)

/-- The shortest decimal of `m * 2 ^ q`; zero for zero. Seventeen digits always suffice. -/
def shortest (l : Binary.Layout) (tie : Tie) (m : Nat) (q : Int) : Decimal :=
  if m = 0 then ⟨0, 0⟩
  else
    let i := Interval.around l m q
    match i.search tie (leadingPower i.value i.den) 17 1 with
    | some d => stripZeros 400 d
    | none => ⟨0, 0⟩

end Decimal

end SlotNet
