import SlotNet.Config
import SlotNet.Random.Draw

/-!
# Where the nodes are
-/

namespace SlotNet.Placement

open SlotNet.Random (Stream)

/-- Random positions in an area, for each node its `x` and then its `y`. -/
def scatter (area : PlacementArea) : Nat → Stream → Except Fault (List Point × Stream)
  | 0, s => .ok ([], s)
  | n + 1, s => do
    let (x, s) ← s.coordinate area.widthM
    let (y, s) ← s.coordinate area.heightM
    let (points, s) ← scatter area n s
    return (⟨x, y⟩ :: points, s)

/-- The given positions if there are any, otherwise random ones. -/
def positions (c : Config) (s : Stream) : Except Fault (List Point) :=
  if c.nodes.isEmpty then (scatter c.placement c.placement.nodeCount s).map (·.1)
  else .ok c.nodes

/-- The positions of a run, drawn from the stream of its seed. -/
def ofConfig (c : Config) : Except Fault (List Point) :=
  positions c (Stream.ofSeed c.seed.toUInt64)

end SlotNet.Placement
