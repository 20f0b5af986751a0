import SlotNet.Geometry

/-!
# Routes

Every node knows, for each node that it reaches over links, the neighbour to hand a packet to and
the number of hops. Each table is filled by a search in breadth from its node; links are followed in
the order in which they are listed, and links to nodes that do not exist are passed over.
-/

namespace SlotNet

/-- A way to a destination. -/
structure Route where
  destination : Nat
  nextHop : Nat
  /-- Number of hops to the destination. -/
  distance : Nat
  deriving DecidableEq, Repr

abbrev RouteTable := List (Option Route)

structure Routes where
  tables : List RouteTable
  deriving DecidableEq, Repr

namespace Routes

/-! ## The search -/

/-- A search that has found some routes, and the nodes whose links are still to be followed. -/
structure Search where
  table : RouteTable
  frontier : List Nat
  deriving DecidableEq, Repr

/-- Is the node one that the search from `source` has yet to find? -/
def Search.isNew (source : Nat) (s : Search) (node : Nat) : Bool :=
  node != source && s.table[node]? == some none

/-- A link that leads to a new node adds a route and lengthens the frontier. -/
def Search.reach (source : Nat) (nextHop : Nat → Nat) (distance : Nat) (s : Search) (node : Nat) :
    Search :=
  if s.isNew source node then
    { table := s.table.set node (some ⟨node, nextHop node, distance⟩)
      frontier := s.frontier ++ [node] }
  else s

/-- Follows the links of the nodes of the frontier, first come first served. A node enters the
frontier once, so there are at most as many rounds as nodes. -/
def Search.run (source : Nat) (links : List (List Nat)) : Nat → Search → RouteTable
  | 0, s => s.table
  | fuel + 1, s =>
    match s.frontier with
    | [] => s.table
    | node :: rest =>
      match s.table[node]?.join with
      | none => run source links fuel { s with frontier := rest }
      | some via =>
        let next := (links.getD node []).foldl
          (Search.reach source (fun _ => via.nextHop) (via.distance + 1)) { s with frontier := rest }
        run source links fuel next

/-- The routes of one node. Neighbours are their own next hops. -/
def tableOf (links : List (List Nat)) (source : Nat) : RouteTable :=
  let start : Search := { table := List.replicate links.length none, frontier := [] }
  let near := (links.getD source []).foldl (Search.reach source id 1) start
  near.run source links links.length

/-- The routes of all nodes over listed links. -/
def ofLinks (links : List (List Nat)) : Routes :=
  ⟨(List.range links.length).map (tableOf links)⟩

/-- The nodes within range of a node, in ascending order. -/
def neighbours (range : Float) (points : List Point) (node : Nat) (here : Point) : List Nat :=
  points.zipIdx.filterMap fun (there, other) =>
    if other ≠ node ∧ Point.withinRange range here there then some other else none

/-- The links between nodes within range of each other. -/
def linksOf (range : Float) (points : List Point) : List (List Nat) :=
  points.zipIdx.map fun (here, node) => neighbours range points node here

def ofPositions (range : Float) (points : List Point) : Routes := ofLinks (linksOf range points)

/-! ## Questions -/

/-- The routes that a node knows, by ascending destination. -/
def entries (r : Routes) (node : Nat) : List Route := (r.tables.getD node []).reduceOption

/-- The neighbour to which `node` hands a packet for `destination`. -/
def nextHop (r : Routes) (node destination : Nat) : Option Nat :=
  ((r.tables.getD node [])[destination]?.join).map (·.nextHop)

end Routes

end SlotNet
