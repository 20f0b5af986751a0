/-!
# Claims on slots

A node's view of a data slot: who claims it, and over how many hops that was learned. Priority 0 is
no claim, 1 was seen first-hand, and each relay adds one up to 9.
-/

namespace SlotNet

structure Claim where
  priority : Nat
  owner : Nat
  deriving DecidableEq, Repr

namespace Claim

def free : Claim := ⟨0, 0⟩

/-- A node's own claim. -/
def own (node : Nat) : Claim := ⟨1, node⟩

/-- The greatest priority that a status message can hold. -/
def greatestPriority : Nat := 9

def isClaimed (c : Claim) : Bool := c.priority != 0

def isOwnedBy (node : Nat) (c : Claim) : Bool := c.isClaimed && c.owner == node

/-- How a node passes on its view: claims of others come one hop further away. -/
def advertised (node : Nat) (c : Claim) : Claim :=
  if c.isClaimed && c.owner != node then ⟨min (c.priority + 1) greatestPriority, c.owner⟩ else c

end Claim

end SlotNet
