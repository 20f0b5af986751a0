import SlotNet.Toml.Scalar
import SlotNet.Toml.Table

/-!
# Reading TOML documents

Arrays and inline tables may lie within each other, and keys may have dots, up to a fixed depth. Each
step takes at least one character, so the length of the text bounds their number.
-/

namespace SlotNet.Toml

/-- Arrays and inline tables are nested less deeply than this, and keys have fewer parts. -/
def depthLimit : Nat := 80

/-! ## Keys -/

/-- May the character stand in a key without quotes? -/
def isBare (c : Char) : Bool := c.isAlphanum || c == '-' || c == '_'

/-- One part of a key. -/
def keyPart? (cs : List Char) : Option (String × List Char) :=
  match cs with
  | '"' :: rest => basicRest? (rest.length + 1) rest []
  | '\'' :: rest => literalRest? rest
  | cs =>
    match cs.takeWhile isBare with
    | [] => none
    | name => some (String.ofList name, cs.drop name.length)

def keyParts? : Nat → List Char → Option (List String × List Char)
  | 0, _ => none
  | fuel + 1, cs => do
    let (part, cs) ← keyPart? (skipBlanks cs)
    match skipBlanks cs with
    | '.' :: rest =>
      let (parts, rest) ← keyParts? fuel rest
      return (part :: parts, rest)
    | rest => return ([part], rest)

/-- A key: the parts before the last one, and the last one. -/
def key? (cs : List Char) : Option ((List String × String) × List Char) := do
  let (parts, rest) ← keyParts? depthLimit cs
  if depthLimit ≤ parts.length then none
  else
    let last ← parts.getLast?
    return ((parts.dropLast, last), rest)

/-! ## Values -/

mutual

/-- A value at most so deep. -/
def value? : Nat → Nat → List Char → Option (Value × List Char)
  | 0, _, _ => none
  | fuel + 1, depth, cs =>
    match cs with
    | '[' :: rest =>
      if depth = 0 then none
      else (items? fuel (depth - 1) rest).map fun (xs, r) => (.array xs, r)
    | '\x7b' :: rest =>
      if depth = 0 then none
      else match skipBlanks rest with
        | '\x7d' :: rest => some (.table [], rest)
        | rest => (entries? fuel (depth - 1) .empty rest).map fun (t, r) =>
            (.table (entryValues t.entries), r)
    | cs => scalar? cs

/-- The values of an array up to its bracket. A comma may stand after the last one. -/
def items? : Nat → Nat → List Char → Option (List Value × List Char)
  | 0, _, _ => none
  | fuel + 1, depth, cs =>
    match skipLines? (cs.length + 1) cs with
    | some (']' :: rest) => some ([], rest)
    | some cs =>
      match value? fuel depth cs with
      | none => none
      | some (x, rest) =>
        match skipLines? (rest.length + 1) rest with
        | some (',' :: rest) => (items? fuel depth rest).map fun (xs, r) => (x :: xs, r)
        | some (']' :: rest) => some ([x], rest)
        | _ => none
    | none => none

/-- The entries of an inline table up to its brace, onto those before. -/
def entries? : Nat → Nat → Table → List Char → Option (Table × List Char)
  | 0, _, _, _ => none
  | fuel + 1, depth, t, cs =>
    match key? cs with
    | some ((path, key), '=' :: rest) =>
      match value? fuel depth (skipBlanks rest) with
      | none => none
      | some (x, rest) =>
        match t.assign path key x with
        | none => none
        | some t =>
          match skipBlanks rest with
          | ',' :: rest => entries? fuel depth t rest
          | '\x7d' :: rest => some (t, rest)
          | _ => none
    | _ => none

end

/-! ## Lines -/

/-- A key with its value, up to the end of the line. -/
def assignment? (d : Draft) (cs : List Char) : Option (Draft × List Char) := do
  let ((path, key), cs) ← key? cs
  let cs ← after? '=' cs
  let cs := skipBlanks cs
  let (x, cs) ← value? (cs.length + 1) (depthLimit - 1) cs
  let cs ← lineRest? cs
  let d ← d.assign path key x
  return (d, cs)

def header? (d : Draft) (cs : List Char) : Option (Draft × List Char) :=
  match cs with
  | '[' :: '[' :: rest => do
    let ((path, key), cs) ← key? rest
    let cs ← after? ']' cs
    let cs ← after? ']' cs
    let cs ← lineRest? cs
    return (← d.openItem path key, cs)
  | '[' :: rest => do
    let ((path, key), cs) ← key? rest
    let cs ← after? ']' cs
    let cs ← lineRest? cs
    return (← d.openTable path key, cs)
  | _ => none

/-- The lines of a document, onto what was read before. -/
def lines? : Nat → Draft → List Char → Option Draft
  | 0, _, _ => none
  | fuel + 1, d, cs =>
    match skipBlanks cs with
    | [] => some d
    | '#' :: rest => (lineEnd? (skipComment ('#' :: rest))).bind (lines? fuel d)
    | '[' :: rest => (header? d ('[' :: rest)).bind fun (d, cs) => lines? fuel d cs
    | '\n' :: rest => lines? fuel d rest
    | '\r' :: rest => (newline? ('\r' :: rest)).bind (lines? fuel d)
    | cs => (assignment? d cs).bind fun (d, cs) => lines? fuel d cs

/-- The entries of a document. A byte order mark may stand before it. -/
def parse? (text : String) : Option (List (String × Value)) :=
  let cs := match text.toList with
    | '\ufeff' :: rest => rest
    | cs => cs
  (lines? (cs.length + 1) .start cs).bind Draft.finish

end SlotNet.Toml
