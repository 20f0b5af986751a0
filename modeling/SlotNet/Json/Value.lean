import SlotNet.Decimal.Reading

/-!
# JSON values

A number is kept as it is written, so that `1`, `1.0` and `1e0` stay apart and no digit is lost.
-/

namespace SlotNet

/-- A JSON value. The members of an object are in the order of the text; names may repeat. -/
inductive Json where
  | null
  | bool (value : Bool)
  | number (lexeme : String)
  | string (text : String)
  | array (items : List Json)
  | object (members : List (String × Json))

namespace Json

/-- The member of an object with a name: the first one. -/
def get? (name : String) : Json → Option Json
  | .object members => members.lookup name
  | _ => none

/-- The integer that a number writes without fraction and exponent. Minus zero is none. -/
def int? : Json → Option Int
  | .number lexeme => if lexeme = "-0" then none else (Decimal.Numeral.ofChars lexeme.toList).toInt?
  | _ => none

/-- The natural number that a number writes without fraction and exponent. -/
def nat? (j : Json) : Option Nat :=
  match j.int? with
  | some (.ofNat n) => some n
  | _ => none

def float? : Json → Option Float
  | .number lexeme => some (Decimal.Numeral.ofChars lexeme.toList).toFloat
  | _ => none

def text? : Json → Option String
  | .string s => some s
  | _ => none

def bool? : Json → Option Bool
  | .bool b => some b
  | _ => none

def items? : Json → Option (List Json)
  | .array xs => some xs
  | _ => none

def ofNat (n : Nat) : Json := .number (toString n)

def ofInt (n : Int) : Json := .number (toString n)

end Json

end SlotNet
