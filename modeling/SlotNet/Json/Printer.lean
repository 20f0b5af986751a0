import SlotNet.Json.Value

/-!
# Writing JSON

Two layouts: on one line without spaces, and spread over lines with two spaces for each level.
-/

namespace SlotNet.Json

/-- The two low hexadecimal digits of a number. -/
def hexPair (n : Nat) : List Char :=
  let digit (k : Nat) : Char := (Nat.toDigits 16 (k % 16)).headD '0'
  [digit (n / 16), digit n]

/-- A character inside quotes. Quotes, backslashes and control characters are escaped. -/
def quotedChar (c : Char) : List Char :=
  match c with
  | '"' => ['\\', '"']
  | '\\' => ['\\', '\\']
  | '\n' => ['\\', 'n']
  | '\r' => ['\\', 'r']
  | '\t' => ['\\', 't']
  | '\x08' => ['\\', 'b']
  | '\x0c' => ['\\', 'f']
  | c => if c.toNat < 0x20 then ['\\', 'u', '0', '0'] ++ hexPair c.toNat else [c]

def quoted (s : String) : String :=
  String.ofList ('"' :: (s.toList.flatMap quotedChar ++ ['"']))

mutual

/-- A value on one line, without spaces. -/
def compact : Json → String
  | .null => "null"
  | .bool b => if b then "true" else "false"
  | .number lexeme => lexeme
  | .string s => quoted s
  | .array xs => "[" ++ ",".intercalate (compactItems xs) ++ "]"
  | .object ms => "\x7b" ++ ",".intercalate (compactMembers ms) ++ "\x7d"

def compactItems : List Json → List String
  | [] => []
  | x :: xs => compact x :: compactItems xs

def compactMembers : List (String × Json) → List String
  | [] => []
  | (name, x) :: ms => (quoted name ++ ":" ++ compact x) :: compactMembers ms

end

/-- Lines between brackets, one level further in. -/
def block (opening closing : String) (indent : String) (lines : List String) : String :=
  if lines.isEmpty then opening ++ closing
  else
    let inner := indent ++ "  "
    opening ++ "\n" ++ ",\n".intercalate (lines.map (inner ++ ·)) ++ "\n" ++ indent ++ closing

mutual

/-- A value spread over lines, its later lines after `indent`. -/
def pretty (indent : String) : Json → String
  | .array xs => block "[" "]" indent (prettyItems indent xs)
  | .object ms => block "\x7b" "\x7d" indent (prettyMembers indent ms)
  | x => compact x

def prettyItems (indent : String) : List Json → List String
  | [] => []
  | x :: xs => pretty (indent ++ "  ") x :: prettyItems indent xs

def prettyMembers (indent : String) : List (String × Json) → List String
  | [] => []
  | (name, x) :: ms =>
    (quoted name ++ ": " ++ pretty (indent ++ "  ") x) :: prettyMembers indent ms

end

end SlotNet.Json
