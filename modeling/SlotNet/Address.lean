import SlotNet.Fault

/-!
# Link addresses

An address has 48 bits. Node `n` has the address `n + 1`, and the address of all ones is heard by
every node.
-/

namespace SlotNet

structure Address where
  bits : BitVec 48
  deriving DecidableEq, Repr

namespace Address

/-- There are `2 ^ 48` addresses. -/
def limit : Nat := 281474976710656

/-- The address that every node hears. -/
def broadcast : Address := ⟨BitVec.allOnes 48⟩

/-- The address of a node: the low 48 bits of its number plus one. -/
def ofNode (node : Nat) : Address := ⟨BitVec.ofNat 48 (node + 1)⟩

/-- The address of any 64-bit node number; the last one has no successor. -/
def ofNode? (node : Nat) : Except Fault Address :=
  (Count.add node 1).map fun n => ⟨BitVec.ofNat 48 n⟩

def isBroadcast (a : Address) : Bool := a == broadcast

def order (a b : Address) : Ordering := compare a.bits.toNat b.bits.toNat

def hexByte (n : Nat) : String :=
  let digit (k : Nat) : Char := (Nat.toDigits 16 (k % 16)).headD '0'
  String.ofList [digit (n / 16), digit n]

/-- The six bytes in hexadecimal, the highest first, with colons between them. -/
def text (a : Address) : String :=
  let byte (i : Nat) : String := hexByte (a.bits.toNat / Nat.pow 256 i % 256)
  ":".intercalate ([5, 4, 3, 2, 1, 0].map byte)

theorem ofNode_injective {a b : Nat} (ha : a + 1 < limit) (hb : b + 1 < limit)
    (h : ofNode a = ofNode b) : a = b := by
  have h := congrArg (fun x => x.bits.toNat) h
  simp only [ofNode, BitVec.toNat_ofNat] at h
  unfold limit at ha hb
  omega

theorem isBroadcast_ofNode {a : Nat} (ha : a + 2 < limit) : (ofNode a).isBroadcast = false := by
  refine beq_eq_false_iff_ne.2 fun h => ?_
  have h := congrArg (fun x => x.bits.toNat) h
  simp only [ofNode, broadcast, BitVec.toNat_ofNat, BitVec.toNat_allOnes] at h
  unfold limit at ha
  omega

end Address

end SlotNet
