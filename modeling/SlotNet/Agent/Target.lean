/-!
# Request targets

What a client asks a server for at a URL: the path with its dots resolved, and the query, with the
characters escaped that may not stand there. The fragment is not sent.
-/

namespace SlotNet.Target

def escapeByte (b : UInt8) : List Char :=
  let digit (k : Nat) : Char := ((Nat.toDigits 16 (k % 16)).headD '0').toUpper
  ['%', digit (b.toNat / 16), digit b.toNat]

/-- A character, escaped byte by byte if it is a control character, not ASCII, or one of `others`. -/
def escaped (others : List Char) (c : Char) : List Char :=
  if c.toNat < 0x20 ∨ 0x7f ≤ c.toNat ∨ c ∈ others then
    c.toString.toUTF8.toList.flatMap escapeByte
  else [c]

def pathOthers : List Char := [' ', '"', '#', '<', '>', '?', '\x60', '\x7b', '\x7d']

def queryOthers : List Char := [' ', '"', '#', '<', '>', '\x27']

/-- The parts between slashes, of either kind. -/
def segments : List Char → List (List Char)
  | [] => [[]]
  | c :: rest =>
    match segments rest with
    | s :: more => if c == '/' || c == '\\' then [] :: s :: more else (c :: s) :: more
    | [] => [[c]]

/-- A part in lower case, with escaped dots as dots. -/
def dots (s : List Char) : List Char :=
  match s with
  | '%' :: '2' :: 'e' :: rest => '.' :: dots rest
  | '%' :: '2' :: 'E' :: rest => '.' :: dots rest
  | c :: rest => c :: dots rest
  | [] => []

/-- Resolves the parts of a path, onto the parts before, latest first. One dot stands for nothing and
two for the part before; at the end they leave an empty part. -/
def resolve : List (List Char) → List (List Char) → List (List Char)
  | acc, [] => acc.reverse
  | acc, s :: rest =>
    let last := rest.isEmpty
    if dots s = ['.', '.'] then resolve (if last then [] :: acc.drop 1 else acc.drop 1) rest
    else if dots s = ['.'] then resolve (if last then [] :: acc else acc) rest
    else resolve (s :: acc) rest

def path (parts : List (List Char)) : List Char :=
  parts.flatMap fun s => '/' :: s.flatMap (escaped pathOthers)

/-- Is it left out of a URL, wherever it stands? -/
def isIgnored (c : Char) : Bool := c == '\t' || c == '\n' || c == '\r'

/-- Is it left out at the end of a URL? -/
def isEdge (c : Char) : Bool := c.toNat ≤ 0x20

/-- The target for what stands in a URL behind host and port. Where that goes on with anything but a
path, a query or a fragment, the port is not a number, and there is no target. -/
def ofTail? (tail : String) : Option String :=
  let cs := (tail.toList.reverse.dropWhile isEdge).reverse.filter fun c => !isIgnored c
  let cs := cs.takeWhile (· != '#')
  let front := cs.takeWhile (· != '?')
  let query := match cs.drop front.length with
    | '?' :: q => '?' :: q.flatMap (escaped queryOthers)
    | _ => []
  match front with
  | [] => some (String.ofList ('/' :: query))
  | c :: rest =>
    if c == '/' || c == '\\' then
      some (String.ofList (path (resolve [] (segments rest)) ++ query))
    else none

end SlotNet.Target
