import SlotNet.Decimal

/-!
# Writing decimals

Two notations. The plain one shows all digits and never an exponent. The one with exponents is
positional while the point stands in a given span, and scientific outside it.
-/

namespace SlotNet.Decimal

/-- The digits with the point after `point` of them, filled up with zeros. A number without a
fraction ends in `whole`. -/
def positional (whole : String) (digits : List Char) (point : Int) : String :=
  if point ≤ 0 then
    "0." ++ String.ofList (List.replicate (-point).toNat '0' ++ digits)
  else if digits.length ≤ point.toNat then
    String.ofList (digits ++ List.replicate (point.toNat - digits.length) '0') ++ whole
  else
    String.ofList (digits.take point.toNat) ++ "." ++ String.ofList (digits.drop point.toNat)

/-- One digit, the others behind the point, and the exponent with its sign. -/
def scientific (digits : List Char) (point : Int) : String :=
  let mantissa := match digits with
    | [] => "0"
    | [d] => String.ofList [d]
    | d :: rest => String.ofList (d :: '.' :: rest)
  let exponent := point - 1
  mantissa ++ (if exponent < 0 then "e-" else "e+") ++ toString exponent.natAbs

/-- Where a notation with exponents is positional: the point stands after more than `least` and at
most `greatest` digits. -/
structure Span where
  least : Int
  greatest : Int

def doubleSpan : Span := ⟨-5, 16⟩

def singleSpan : Span := ⟨-6, 13⟩

/-- A decimal in the notation with exponents; whole numbers end in `.0`. -/
def withExponent (s : Span) (d : Decimal) : String :=
  if d.significand = 0 then "0.0"
  else if s.least < d.point ∧ d.point ≤ s.greatest then positional ".0" d.digits d.point
  else scientific d.digits d.point

/-- A decimal with all its digits. -/
def plain (d : Decimal) : String :=
  if d.significand = 0 then "0" else positional "" d.digits d.point

/-- A sign before the text of a number below zero, zero included. -/
def signed (negative : Bool) (text : String) : String :=
  if negative then "-" ++ text else text

/-- A number in the notation with exponents; nothing for infinite numbers and for those that are
none. A tie goes to the even digit. -/
def write? (l : Binary.Layout) (s : Span) : Binary → Option String
  | .nan | .infinite _ => none
  | .finite negative m q => some (signed negative (withExponent s (shortest l .toEven m q)))

def writeDouble? (x : Float) : Option String :=
  write? Binary.double doubleSpan (Binary.ofFloat x)

def writeSingle? (x : Float32) : Option String :=
  write? Binary.single singleSpan (Binary.ofFloat32 x)

/-- A double with all its digits. A tie goes up. -/
def writePlain (x : Float) : String :=
  match Binary.ofFloat x with
  | .nan => "NaN"
  | .infinite negative => signed negative "inf"
  | .finite negative m q => signed negative (plain (shortest Binary.double .up m q))

end SlotNet.Decimal
