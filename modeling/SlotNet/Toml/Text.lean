import SlotNet.Json.Reader

/-!
# Blanks, comments and strings in TOML

Every reader takes the characters to come and gives what it read and the rest, or nothing where the
text does not fit.
-/

namespace SlotNet.Toml

/-- Is it a space or a tab? -/
def isBlank (c : Char) : Bool := c == ' ' || c == '\t'

def skipBlanks (cs : List Char) : List Char := cs.dropWhile isBlank

/-- A line break: a line feed, perhaps after a carriage return. -/
def newline? : List Char → Option (List Char)
  | '\n' :: rest => some rest
  | '\r' :: '\n' :: rest => some rest
  | _ => none

/-- Is it no control character, or a tab? -/
def isPrintable (c : Char) : Bool := c == '\t' || (0x20 ≤ c.toNat && c.toNat != 0x7f)

/-- The rest after a comment, if there is one. -/
def skipComment : List Char → List Char
  | '#' :: rest => rest.dropWhile isPrintable
  | cs => cs

/-- The rest after the end of a line, which may be the end of the text. -/
def lineEnd? : List Char → Option (List Char)
  | [] => some []
  | cs => newline? cs

/-- The rest after blanks, perhaps a comment, and the end of the line. -/
def lineRest? (cs : List Char) : Option (List Char) := lineEnd? (skipComment (skipBlanks cs))

/-- The rest after blanks, comments and line breaks. A comment must end with its line. -/
def skipLines? : Nat → List Char → Option (List Char)
  | 0, _ => none
  | fuel + 1, cs =>
    match skipBlanks cs with
    | '#' :: rest => (newline? (skipComment ('#' :: rest))).bind (skipLines? fuel)
    | '\n' :: rest => skipLines? fuel rest
    | '\r' :: rest => (newline? ('\r' :: rest)).bind (skipLines? fuel)
    | rest => some rest

/-! ## Strings -/

def hexDigits? : Nat → Nat → List Char → Option (Nat × List Char)
  | 0, value, cs => some (value, cs)
  | n + 1, value, c :: rest =>
    (Json.hexValue? c).bind fun d => hexDigits? n (16 * value + d) rest
  | _ + 1, _, [] => none

/-- A character by its number; surrogates and numbers that are too great are none. -/
def charOfCode? (n : Nat) : Option Char :=
  if h : n.isValidChar then some (Char.ofNatAux n h) else none

/-- What stands after a backslash. -/
def escape? : List Char → Option (Char × List Char)
  | 'b' :: rest => some ('\x08', rest)
  | 'f' :: rest => some ('\x0c', rest)
  | 'n' :: rest => some ('\n', rest)
  | 'r' :: rest => some ('\r', rest)
  | 't' :: rest => some ('\t', rest)
  | '"' :: rest => some ('"', rest)
  | '\\' :: rest => some ('\\', rest)
  | 'u' :: rest => unicode 4 rest
  | 'U' :: rest => unicode 8 rest
  | _ => none
where
  /-- A character by so many hexadecimal digits. -/
  unicode (digits : Nat) (cs : List Char) : Option (Char × List Char) :=
    (hexDigits? digits 0 cs).bind fun (n, rest) => (charOfCode? n).map (·, rest)

/-- The rest of a string in double quotes, onto what was read of it, latest first. -/
def basicRest? : Nat → List Char → List Char → Option (String × List Char)
  | 0, _, _ => none
  | fuel + 1, cs, acc =>
    match cs with
    | '"' :: rest => some (String.ofList acc.reverse, rest)
    | '\\' :: rest => (escape? rest).bind fun (c, rest) => basicRest? fuel rest (c :: acc)
    | c :: rest => if isPrintable c then basicRest? fuel rest (c :: acc) else none
    | [] => none

/-- The rest of a string in single quotes. -/
def literalRest? (cs : List Char) : Option (String × List Char) :=
  let body := cs.takeWhile fun c => isPrintable c && c != '\''
  match cs.drop body.length with
  | '\'' :: rest => some (String.ofList body, rest)
  | _ => none

/-- The rest after a line break at the very beginning of a string over lines. -/
def skipFirstBreak (cs : List Char) : List Char := (newline? cs).getD cs

/-- The rest after the line breaks and blanks that a backslash at the end of a line swallows. -/
def swallowed? (cs : List Char) : Option (List Char) :=
  (newline? (skipBlanks cs)).map (skipBreaks cs.length)
where
  /-- The rest after blanks and line breaks. -/
  skipBreaks : Nat → List Char → List Char
    | 0, cs => cs
    | fuel + 1, cs =>
      let cs := skipBlanks cs
      match newline? cs with
      | some rest => skipBreaks fuel rest
      | none => cs

/-- Three or more quotes end a string over lines: the last three of at most five. -/
def closing? (quote : Char) (cs : List Char) : Option (List Char × List Char) :=
  let quotes := (cs.takeWhile (· == quote)).length
  if 3 ≤ quotes then
    let count := min quotes 5
    some (List.replicate (count - 3) quote, cs.drop count)
  else none

/-- The rest of a string over lines in double quotes. -/
def basicLines? : Nat → List Char → List Char → Option (String × List Char)
  | 0, _, _ => none
  | fuel + 1, cs, acc =>
    match closing? '"' cs with
    | some (quotes, rest) => some (String.ofList (acc.reverse ++ quotes), rest)
    | none =>
      match cs with
      | '\\' :: rest =>
        match swallowed? rest with
        | some rest => basicLines? fuel rest acc
        | none => (escape? rest).bind fun (c, rest) => basicLines? fuel rest (c :: acc)
      | c :: rest =>
        match newline? cs with
        | some rest => basicLines? fuel rest ('\n' :: acc)
        | none => if isPrintable c then basicLines? fuel rest (c :: acc) else none
      | [] => none

/-- The rest of a string over lines in single quotes. -/
def literalLines? : Nat → List Char → List Char → Option (String × List Char)
  | 0, _, _ => none
  | fuel + 1, cs, acc =>
    match closing? '\'' cs with
    | some (quotes, rest) => some (String.ofList (acc.reverse ++ quotes), rest)
    | none =>
      match cs with
      | c :: rest =>
        match newline? cs with
        | some rest => literalLines? fuel rest ('\n' :: acc)
        | none => if isPrintable c then literalLines? fuel rest (c :: acc) else none
      | [] => none

/-- A string of any of the four kinds. -/
def string? (cs : List Char) : Option (String × List Char) :=
  match cs with
  | '"' :: '"' :: '"' :: rest => basicLines? (rest.length + 1) (skipFirstBreak rest) []
  | '"' :: rest => basicRest? (rest.length + 1) rest []
  | '\'' :: '\'' :: '\'' :: rest => literalLines? (rest.length + 1) (skipFirstBreak rest) []
  | '\'' :: rest => literalRest? rest
  | _ => none

end SlotNet.Toml
