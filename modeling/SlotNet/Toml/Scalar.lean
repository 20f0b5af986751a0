import SlotNet.Decimal.Reading
import SlotNet.Toml.Text
import SlotNet.Toml.Value

/-!
# Numbers, dates and truth values in TOML

Digits may be grouped by single underscores between them. An integer must fit 64 bits with sign, and
a number that is too great to be a double is refused; one that is too far below zero is not.
-/

namespace SlotNet.Toml

/-! ## Digits -/

/-- Digits of a kind with single underscores between them, at least one digit; without the
underscores. -/
def grouped? (isDigit : Char → Bool) : List Char → Option (List Char × List Char)
  | [] => none
  | c :: rest =>
    if isDigit c then
      match rest with
      | '_' :: d :: more =>
        if isDigit d then (grouped? isDigit (d :: more)).map fun (ds, r) => (c :: ds, r)
        else some ([c], rest)
      | d :: more =>
        if isDigit d then (grouped? isDigit (d :: more)).map fun (ds, r) => (c :: ds, r)
        else some ([c], rest)
      | [] => some ([c], [])
    else none

/-- A sign at the front, if there is one. -/
def sign? : List Char → List Char × List Char
  | '+' :: rest => (['+'], rest)
  | '-' :: rest => (['-'], rest)
  | cs => ([], cs)

/-- A decimal integer: a sign, and zero or digits that do not begin with zero. -/
def decimal? (cs : List Char) : Option (List Char × List Char) :=
  let (sign, cs) := sign? cs
  match cs with
  | '0' :: rest => some (sign ++ ['0'], rest)
  | cs => (grouped? Char.isDigit cs).map fun (ds, rest) => (sign ++ ds, rest)

/-! ## Integers -/

/-- An integer, if it fits 64 bits with sign. -/
def word? (n : Int) : Option Int :=
  if -9223372036854775808 ≤ n ∧ n < 9223372036854775808 then some n else none

/-- The value of digits of a base. -/
def ofBase (base : Nat) (ds : List Char) : Nat :=
  ds.foldl (fun n c => base * n + (Json.hexValue? c).getD 0) 0

/-- Digits of a base after its mark. -/
def based? (base : Nat) (isDigit : Char → Bool) (cs : List Char) : Option (Value × List Char) :=
  (grouped? isDigit cs).bind fun (ds, rest) => (word? (ofBase base ds)).map (.integer ·, rest)

def integer? (cs : List Char) : Option (Value × List Char) :=
  match cs with
  | '0' :: 'x' :: rest => based? 16 (fun c => (Json.hexValue? c).isSome) rest
  | '0' :: 'o' :: rest => based? 8 (fun c => '0' ≤ c && c ≤ '7') rest
  | '0' :: 'b' :: rest => based? 2 (fun c => c == '0' || c == '1') rest
  | cs =>
    (decimal? cs).bind fun (ds, rest) =>
      ((Decimal.Numeral.ofChars ds).toInt?.bind word?).map (.integer ·, rest)

/-! ## Floats -/

/-- A fraction with its point. -/
def fraction? : List Char → Option (List Char × List Char)
  | '.' :: rest => (grouped? Char.isDigit rest).map fun (ds, r) => ('.' :: ds, r)
  | _ => none

def exponent? : List Char → Option (List Char × List Char)
  | c :: rest =>
    if c == 'e' || c == 'E' then
      let (sign, rest) := sign? rest
      (grouped? Char.isDigit rest).map fun (ds, r) => ('e' :: sign ++ ds, r)
    else none
  | [] => none

/-- The characters of a float: an integer with a fraction, an exponent, or both. -/
def floatChars? (cs : List Char) : Option (List Char × List Char) := do
  let (whole, cs) ← decimal? cs
  match fraction? cs with
  | some (fraction, cs) =>
    let (exponent, cs) := (exponent? cs).getD ([], cs)
    return (whole ++ fraction ++ exponent, cs)
  | none =>
    let (exponent, cs) ← exponent? cs
    return (whole ++ exponent, cs)

/-- Infinity or no number, after a sign. -/
def specialFloat? (cs : List Char) : Option (Value × List Char) :=
  let (sign, cs) := sign? cs
  let signed (x : Float) : Value := .float (if sign = ['-'] then -x else x)
  match cs with
  | 'i' :: 'n' :: 'f' :: rest => some (signed (1.0 / 0.0), rest)
  | 'n' :: 'a' :: 'n' :: rest => some (signed (0.0 / 0.0), rest)
  | _ => none

def float? (cs : List Char) : Option (Value × List Char) :=
  match floatChars? cs with
  | some (text, rest) =>
    let x := (Decimal.Numeral.ofChars text).toFloat
    if x == 1.0 / 0.0 then none else some (.float x, rest)
  | none => specialFloat? cs

/-! ## Dates and times -/

/-- A number of exactly so many digits within bounds. -/
def fixed? (digits low high : Nat) (cs : List Char) : Option (Nat × List Char) :=
  let ds := cs.take digits
  let n := Decimal.ofDigits ds
  if ds.length = digits ∧ ds.all Char.isDigit ∧ low ≤ n ∧ n ≤ high then some (n, cs.drop digits)
  else none

/-- The rest after a character. -/
def after? (c : Char) : List Char → Option (List Char)
  | d :: rest => if d = c then some rest else none
  | [] => none

def daysIn (year month : Nat) : Nat :=
  if month = 2 then
    if year % 4 = 0 ∧ (year % 100 ≠ 0 ∨ year % 400 = 0) then 29 else 28
  else if month = 4 ∨ month = 6 ∨ month = 9 ∨ month = 11 then 30
  else 31

/-- The rest after a day of the calendar. -/
def day? (cs : List Char) : Option (List Char) := do
  let (year, cs) ← fixed? 4 0 9999 cs
  let cs ← after? '-' cs
  let (month, cs) ← fixed? 2 1 12 cs
  let cs ← after? '-' cs
  let (_, cs) ← fixed? 2 1 (daysIn year month) cs
  return cs

/-- The rest after hours and minutes. -/
def minutes? (cs : List Char) : Option (List Char) := do
  let (_, cs) ← fixed? 2 0 23 cs
  let cs ← after? ':' cs
  let (_, cs) ← fixed? 2 0 59 cs
  return cs

/-- The rest after a time of the day. A second may be a leap second and have a fraction. -/
def time? (cs : List Char) : Option (List Char) := do
  let cs ← minutes? cs
  let cs ← after? ':' cs
  let (_, cs) ← fixed? 2 0 60 cs
  match cs with
  | '.' :: d :: rest => return if d.isDigit then rest.dropWhile Char.isDigit else cs
  | _ => return cs

/-- The rest after the distance from universal time, if it is given. -/
def skipOffset? : List Char → Option (List Char)
  | 'Z' :: rest => some rest
  | 'z' :: rest => some rest
  | '+' :: rest => minutes? rest
  | '-' :: rest => minutes? rest
  | cs => some cs

/-- Is it what may stand between a day and a time? -/
def isDelimiter (c : Char) : Bool := c == 'T' || c == 't' || c == ' '

/-- A day, a time, or a day with a time. -/
def date? (cs : List Char) : Option (Value × List Char) :=
  match day? cs with
  | some rest =>
    match rest with
    | c :: more =>
      match if isDelimiter c then time? more else none with
      | some more => (skipOffset? more).map (.date, ·)
      | none => some (.date, rest)
    | [] => some (.date, [])
  | none => (time? cs).map (.date, ·)

/-! ## Scalars -/

/-- A fixed word. -/
def word (text : List Char) (value : Value) (cs : List Char) : Option (Value × List Char) :=
  if text.isPrefixOf cs then some (value, cs.drop text.length) else none

/-- Anything but an array and a table. -/
def scalar? (cs : List Char) : Option (Value × List Char) :=
  match cs with
  | [] => none
  | c :: _ =>
    if c == '"' || c == '\'' then (string? cs).map fun (s, rest) => (.string s, rest)
    else if c == 't' then word "true".toList (.boolean true) cs
    else if c == 'f' then word "false".toList (.boolean false) cs
    else if c == 'i' || c == 'n' then specialFloat? cs
    else if c == '+' || c == '-' || c.isDigit then
      (date? cs).orElse fun _ => (float? cs).orElse fun _ => integer? cs
    else none

end SlotNet.Toml
