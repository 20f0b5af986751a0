import SlotNet.Json.Value

/-!
# Reading JSON

The grammar is the strict one: no comments, no commas at the end, no leading zeros. An unpaired
surrogate in a text is read as the replacement character; in the name of a member it is refused.
Each value takes at least one character, so the length of the text bounds the depth.
-/

namespace SlotNet.Json

def isBlank (c : Char) : Bool := c == ' ' || c == '\n' || c == '\t' || c == '\r'

def skipBlanks (cs : List Char) : List Char := cs.dropWhile isBlank

def hexValue? (c : Char) : Option Nat :=
  if c.isDigit then some (c.toNat - '0'.toNat)
  else if 'a' ≤ c ∧ c ≤ 'f' then some (c.toNat - 'a'.toNat + 10)
  else if 'A' ≤ c ∧ c ≤ 'F' then some (c.toNat - 'A'.toNat + 10)
  else none

def hexUnit? : List Char → Option (Nat × List Char)
  | a :: b :: c :: d :: rest => do
    let a ← hexValue? a
    let b ← hexValue? b
    let c ← hexValue? c
    let d ← hexValue? d
    return (((a * 16 + b) * 16 + c) * 16 + d, rest)
  | _ => none

def isHighSurrogate (u : Nat) : Bool := 0xd800 ≤ u && u < 0xdc00

def isLowSurrogate (u : Nat) : Bool := 0xdc00 ≤ u && u < 0xe000

/-- What stands for an unpaired surrogate. -/
def replacement : Char := '\ufffd'

/-- The character that a one-letter escape writes. -/
def shortEscape? : Char → Option Char
  | '"' => some '"'
  | '\\' => some '\\'
  | '/' => some '/'
  | 'b' => some '\x08'
  | 'f' => some '\x0c'
  | 'n' => some '\n'
  | 'r' => some '\r'
  | 't' => some '\t'
  | _ => none

/-- The rest of a text up to its closing quote, onto the characters read so far, latest first.
Unpaired surrogates are refused if `strict`. -/
def quotedRest? (strict : Bool) : Nat → List Char → List Char → Option (List Char × List Char)
  | 0, _, _ => none
  | fuel + 1, cs, acc =>
    match cs with
    | [] => none
    | '"' :: rest => some (acc.reverse, rest)
    | '\\' :: 'u' :: rest =>
      match hexUnit? rest with
      | none => none
      | some (u, rest) =>
        if isHighSurrogate u then
          match rest with
          | '\\' :: 'u' :: more =>
            match hexUnit? more with
            | none => none
            | some (v, after) =>
              if isLowSurrogate v then
                let code := 0x10000 + (u - 0xd800) * 0x400 + (v - 0xdc00)
                quotedRest? strict fuel after (Char.ofNat code :: acc)
              else if strict then none
              else quotedRest? strict fuel rest (replacement :: acc)
          | _ => if strict then none else quotedRest? strict fuel rest (replacement :: acc)
        else if isLowSurrogate u then
          if strict then none else quotedRest? strict fuel rest (replacement :: acc)
        else quotedRest? strict fuel rest (Char.ofNat u :: acc)
    | '\\' :: c :: rest =>
      match shortEscape? c with
      | some e => quotedRest? strict fuel rest (e :: acc)
      | none => none
    | c :: rest =>
      if c.toNat < 0x20 then none else quotedRest? strict fuel rest (c :: acc)

def digits? (cs : List Char) : Option (List Char × List Char) :=
  match cs.takeWhile Char.isDigit with
  | [] => none
  | ds => some (ds, cs.dropWhile Char.isDigit)

/-- The whole part of a number: zero alone, or digits that do not begin with zero. -/
def wholePart? : List Char → Option (List Char × List Char)
  | '0' :: rest => some (['0'], rest)
  | cs => digits? cs

/-- A fraction, if there is one. -/
def fractionPart? : List Char → Option (List Char × List Char)
  | '.' :: rest => (digits? rest).map fun (ds, rest) => ('.' :: ds, rest)
  | cs => some ([], cs)

def exponentPart? : List Char → Option (List Char × List Char)
  | c :: rest =>
    if c == 'e' || c == 'E' then
      match rest with
      | '-' :: r => (digits? r).map fun (ds, r) => (c :: '-' :: ds, r)
      | '+' :: r => (digits? r).map fun (ds, r) => (c :: '+' :: ds, r)
      | r => (digits? r).map fun (ds, r) => (c :: ds, r)
    else some ([], c :: rest)
  | [] => some ([], [])

def number? (cs : List Char) : Option (Json × List Char) := do
  let (sign, cs) := match cs with
    | '-' :: rest => (['-'], rest)
    | cs => ([], cs)
  let (whole, cs) ← wholePart? cs
  let (fraction, cs) ← fractionPart? cs
  let (exponent, cs) ← exponentPart? cs
  return (.number (String.ofList (sign ++ whole ++ fraction ++ exponent)), cs)

def word? (word : List Char) (value : Json) (cs : List Char) : Option (Json × List Char) :=
  if word.isPrefixOf cs then some (value, cs.drop word.length) else none

mutual

/-- A value after blanks. -/
def value? : Nat → List Char → Option (Json × List Char)
  | 0, _ => none
  | fuel + 1, cs =>
    match skipBlanks cs with
    | [] => none
    | '"' :: rest =>
      (quotedRest? false (rest.length + 1) rest []).map fun (s, r) => (.string (String.ofList s), r)
    | '[' :: rest =>
      match skipBlanks rest with
      | ']' :: rest => some (.array [], rest)
      | rest => (itemsRest? fuel rest).map fun (xs, r) => (.array xs, r)
    | '\x7b' :: rest =>
      match skipBlanks rest with
      | '\x7d' :: rest => some (.object [], rest)
      | rest => (membersRest? fuel rest).map fun (ms, r) => (.object ms, r)
    | cs =>
      (word? "null".toList .null cs).orElse fun _ =>
      (word? "true".toList (.bool true) cs).orElse fun _ =>
      (word? "false".toList (.bool false) cs).orElse fun _ =>
      number? cs

/-- The values of an array up to its bracket. -/
def itemsRest? : Nat → List Char → Option (List Json × List Char)
  | 0, _ => none
  | fuel + 1, cs =>
    match value? fuel cs with
    | none => none
    | some (x, rest) =>
      match skipBlanks rest with
      | ',' :: rest => (itemsRest? fuel rest).map fun (xs, r) => (x :: xs, r)
      | ']' :: rest => some ([x], rest)
      | _ => none

/-- The members of an object up to its brace. -/
def membersRest? : Nat → List Char → Option (List (String × Json) × List Char)
  | 0, _ => none
  | fuel + 1, cs =>
    match skipBlanks cs with
    | '"' :: rest =>
      match quotedRest? true (rest.length + 1) rest [] with
      | none => none
      | some (name, rest) =>
        match skipBlanks rest with
        | ':' :: rest =>
          match value? fuel rest with
          | none => none
          | some (x, rest) =>
            match skipBlanks rest with
            | ',' :: rest =>
              (membersRest? fuel rest).map fun (ms, r) => ((String.ofList name, x) :: ms, r)
            | '\x7d' :: rest => some ([(String.ofList name, x)], rest)
            | _ => none
        | _ => none
    | _ => none

end

/-- The value that a whole text writes. -/
def parse? (text : String) : Option Json :=
  let cs := text.toList
  match value? (cs.length + 1) cs with
  | some (x, rest) => if (skipBlanks rest).isEmpty then some x else none
  | none => none

end SlotNet.Json
