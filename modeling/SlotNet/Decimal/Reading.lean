import SlotNet.Decimal

/-!
# Reading decimals

A decimal numeral is a sign, digits, perhaps a fraction and perhaps an exponent. It is read as the
nearest double.
-/

namespace SlotNet.Decimal

def ofDigits (cs : List Char) : Nat :=
  cs.foldl (fun n c => 10 * n + (c.toNat - '0'.toNat)) 0

/-- A decimal numeral, taken apart. -/
structure Numeral where
  negative : Bool
  significand : Nat
  exponent : Int
  /-- It has neither a fraction nor an exponent. -/
  isWhole : Bool
  deriving DecidableEq, Repr

/-- The double nearest to a decimal. Exponents far outside the range are decided by size. -/
def toFloat (d : Decimal) : Float :=
  if d.significand = 0 then 0.0
  else if 400 < d.point then 1.0 / 0.0
  else if d.point < -400 then 0.0
  else Float.ofScientific d.significand (d.exponent < 0) d.exponent.natAbs

def Numeral.toFloat (n : Numeral) : Float :=
  let x := Decimal.toFloat ⟨n.significand, n.exponent⟩
  if n.negative then -x else x

/-- The integer that a numeral writes, if it is whole. -/
def Numeral.toInt? (n : Numeral) : Option Int :=
  if n.isWhole then some (if n.negative then -n.significand else n.significand) else none

/-- Takes a numeral apart: a sign, digits, `.` and digits, `e` and a signed number. Nothing about
which digits must be there is checked here. -/
def Numeral.ofChars (cs : List Char) : Numeral :=
  let (negative, cs) := match cs with
    | '-' :: r => (true, r)
    | '+' :: r => (false, r)
    | r => (false, r)
  let whole := cs.takeWhile Char.isDigit
  let rest := cs.dropWhile Char.isDigit
  let (fraction, rest) := match rest with
    | '.' :: r => (r.takeWhile Char.isDigit, r.dropWhile Char.isDigit)
    | r => ([], r)
  let exponent : Int := match rest with
    | _ :: '-' :: r => -ofDigits r
    | _ :: '+' :: r => ofDigits r
    | _ :: r => ofDigits r
    | [] => 0
  { negative, significand := ofDigits (whole ++ fraction)
    exponent := exponent - fraction.length
    isWhole := fraction.isEmpty && rest.isEmpty }

end SlotNet.Decimal
