import SlotNet.Fault
import SlotNet.Claim

/-!
# The claims that the nodes know of

For each node a row with its view of every data slot, once for the current frame and once for the
one before.
-/

namespace SlotNet

/-- To which frame a row belongs. -/
inductive Generation where
  | previous
  | current
  deriving DecidableEq, Repr

/-- The views of all nodes in two generations. -/
structure ClaimTable where
  previous : List (List Claim)
  current : List (List Claim)
  deriving DecidableEq, Repr

namespace ClaimTable

/-- The bytes of an entry. -/
def entryBytes : Nat := 16

/-- A table without claims. The number of its entries must be a count. -/
def new (nodes slots : Nat) : Except Fault ClaimTable := do
  let entries ← Count.mul nodes slots
  Memory.allot entries entryBytes
  let rows := List.replicate nodes (List.replicate slots Claim.free)
  return ⟨rows, rows⟩

def rows (t : ClaimTable) : Generation → List (List Claim)
  | .previous => t.previous
  | .current => t.current

def row (t : ClaimTable) (g : Generation) (node : Nat) : Option (List Claim) := (t.rows g)[node]?

def get (t : ClaimTable) (g : Generation) (node slot : Nat) : Option Claim :=
  (t.row g node).bind (·[slot]?)

/-- The table with another row for a node, if it has one. -/
def setRow (t : ClaimTable) (g : Generation) (node : Nat) (row : List Claim) : ClaimTable :=
  match g with
  | .previous => { t with previous := t.previous.set node row }
  | .current => { t with current := t.current.set node row }

/-- The table with another claim in a place, if there is such a place. -/
def set (t : ClaimTable) (g : Generation) (node slot : Nat) (claim : Claim) : ClaimTable :=
  match t.row g node with
  | some row => t.setRow g node (row.set slot claim)
  | none => t

def hasPlace (t : ClaimTable) (node slot : Nat) : Bool := (t.get .current node slot).isSome

/-- The next frame begins: the current claims become the previous ones. -/
def rotate (t : ClaimTable) : ClaimTable :=
  ⟨t.current, t.current.map fun row => row.map fun _ => Claim.free⟩

end ClaimTable

end SlotNet
