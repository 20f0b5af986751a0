/-!
# Positions and distances
-/

namespace SlotNet

/-- A position in the plane, in metres. -/
structure Point where
  x : Float
  y : Float

namespace Point

def distanceSquared (a b : Point) : Float :=
  let dx := a.x - b.x
  let dy := a.y - b.y
  dx * dx + dy * dy

def distance (a b : Point) : Float := (distanceSquared a b).sqrt

/-- Are the points at most `range` metres apart? The squares are compared. -/
def withinRange (range : Float) (a b : Point) : Bool := distanceSquared a b ≤ range * range

end Point

end SlotNet
