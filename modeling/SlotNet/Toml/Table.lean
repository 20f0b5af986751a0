import SlotNet.Toml.Value

/-!
# Building tables

A document names tables by headers and by keys with dots. A table that only stands on the way to
another one may be completed later by its own header, and one that keys with dots opened may be
extended by further keys with dots; apart from that no table and no key is given twice.
-/

namespace SlotNet.Toml

/-- What a key stands for while a document is read. -/
inductive Node where
  /-- A finished value. -/
  | value (v : Value)
  /-- A table. It is `implicit` as long as it was only passed through, and `dotted` if keys with dots
  passed through it. -/
  | table (implicit dotted : Bool) (entries : List (String × Node))
  /-- The tables that headers in double brackets have added. -/
  | tables (items : List (List (String × Node)))

structure Table where
  implicit : Bool
  dotted : Bool
  entries : List (String × Node)

namespace Table

def empty : Table := ⟨false, false, []⟩

def node (t : Table) : Node := .table t.implicit t.dotted t.entries

def get? (t : Table) (key : String) : Option Node := t.entries.lookup key

def add (t : Table) (key : String) (n : Node) : Table := { t with entries := t.entries ++ [(key, n)] }

def erase (t : Table) (key : String) : Table :=
  { t with entries := t.entries.filter (·.1 != key) }

/-- The table with another node in the place of a key. -/
def replace (t : Table) (key : String) (n : Node) : Table :=
  { t with entries := t.entries.map fun (k, old) => (k, if k = key then n else old) }

/-- Changes the table at the end of a path. Tables that are missing on the way are opened. A path
passes through the last one of added tables, but not through values, and a path of a key with dots
only through tables that have no header. -/
def change (byDots : Bool) (f : Table → Option Table) : List String → Table → Option Table
  | [], t => f t
  | key :: path, t =>
    match t.get? key with
    | none => (change byDots f path ⟨true, byDots, []⟩).map fun child => t.add key child.node
    | some (.value _) => none
    | some (.table implicit dotted entries) =>
      if byDots && !implicit then none
      else (change byDots f path ⟨implicit, dotted, entries⟩).map fun child =>
        t.replace key child.node
    | some (.tables items) =>
      match items.getLast? with
      | none => none
      | some entries => (change byDots f path ⟨false, false, entries⟩).map fun child =>
        t.replace key (.tables (items.dropLast ++ [child.entries]))

/-- Enters a value under a new key. A table with a header takes no keys with dots from outside, and a
table opened by dots takes no others. -/
def enter (byDots : Bool) (key : String) (v : Value) (t : Table) : Option Table :=
  if t.dotted != byDots then none
  else match t.get? key with
    | some _ => none
    | none => some (t.add key (.value v))

/-- Enters the value of a key, which may have dots. -/
def assign (t : Table) (path : List String) (key : String) (v : Value) : Option Table :=
  change true (enter (!path.isEmpty) key v) path t

end Table

mutual

def Node.toValue : Node → Value
  | .value v => v
  | .table _ _ entries => .table (entryValues entries)
  | .tables items => .array (tableValues items)

def entryValues : List (String × Node) → List (String × Value)
  | [] => []
  | (key, n) :: rest => (key, n.toValue) :: entryValues rest

def tableValues : List (List (String × Node)) → List Value
  | [] => []
  | entries :: rest => .table (entryValues entries) :: tableValues rest

end

/-! ## Documents -/

/-- Where the entries of the table at hand belong. -/
inductive Place where
  /-- The top of the document. -/
  | top
  /-- A table of its own. -/
  | table (path : List String) (key : String)
  /-- One more of added tables. -/
  | item (path : List String) (key : String)

/-- A document while it is read: what is finished, and the table at hand. -/
structure Draft where
  root : Table
  current : Table
  place : Place

namespace Draft

def start : Draft := ⟨.empty, .empty, .top⟩

/-- Puts the table at hand in its place. -/
def settled (d : Draft) : Option Table :=
  match d.place with
  | .top => some d.current
  | .table path key =>
    d.root.change false (fun parent =>
      match parent.get? key with
      | none => some (parent.add key d.current.node)
      | some _ => none) path
  | .item path key =>
    d.root.change false (fun parent =>
      match parent.get? key with
      | none => some (parent.add key (.tables [d.current.entries]))
      | some (.tables items) =>
        some (parent.replace key (.tables (items ++ [d.current.entries])))
      | some _ => none) path

/-- A header opens a table. One that was only passed through is taken over with its entries. -/
def openTable (d : Draft) (path : List String) (key : String) : Option Draft := do
  let root ← d.settled
  let root ← root.change false (fun parent => some parent) path
  let found ← find path root
  match found with
  | none => return ⟨root, .empty, .table path key⟩
  | some (.table true false entries) =>
    let root ← root.change false (fun parent => some (parent.erase key)) path
    return ⟨root, ⟨false, false, entries⟩, .table path key⟩
  | some _ => none
where
  /-- The node under the key at the end of a path. -/
  find : List String → Table → Option (Option Node)
    | [], t => some (t.get? key)
    | k :: path, t =>
      match t.get? k with
      | some (.table implicit dotted entries) => find path ⟨implicit, dotted, entries⟩
      | some (.tables items) =>
        (items.getLast?).bind fun entries => find path ⟨false, false, entries⟩
      | _ => none

/-- A header in double brackets opens one more table. -/
def openItem (d : Draft) (path : List String) (key : String) : Option Draft := do
  let root ← d.settled
  let root ← root.change false (fun parent =>
    match parent.get? key with
    | none => some parent
    | some (.tables _) => some parent
    | some _ => none) path
  return ⟨root, .empty, .item path key⟩

/-- Enters a value into the table at hand. -/
def assign (d : Draft) (path : List String) (key : String) (v : Value) : Option Draft :=
  (d.current.assign path key v).map fun current => { d with current }

/-- The entries of the whole document. -/
def finish (d : Draft) : Option (List (String × Value)) :=
  d.settled.map fun t => entryValues t.entries

end Draft

end SlotNet.Toml
