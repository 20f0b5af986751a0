import SlotNet.Routing

/-!
# Next hops

`nextHop_ofLinks`: the next hop of a node is another node of the network. `nextHop_self_ofLinks`: at its
destination a packet has no next hop.
-/

namespace SlotNet.Routes

/-- The routes in a table of `source` lead over other nodes of the network. -/
def Outward (source nodes : Nat) (table : RouteTable) : Prop :=
  ∀ route, some route ∈ table → route.nextHop ≠ source ∧ route.nextHop < nodes

theorem outward_replicate (source nodes n : Nat) :
    Outward source nodes (List.replicate n none) := by
  intro route h
  have := List.eq_of_mem_replicate h
  cases this

namespace Search

variable {source nodes : Nat} {s : Search}

theorem length_reach (nextHop : Nat → Nat) (distance node : Nat) :
    (s.reach source nextHop distance node).table.length = s.table.length := by
  unfold reach
  split
  · exact List.length_set
  · rfl

theorem outward_reach (h : Outward source nodes s.table) (hl : s.table.length = nodes)
    {nextHop : Nat → Nat} {distance node : Nat}
    (hn : node ≠ source → node < nodes → nextHop node ≠ source ∧ nextHop node < nodes) :
    Outward source nodes (s.reach source nextHop distance node).table := by
  unfold reach
  split
  · rename_i hnew
    simp only [isNew, Bool.and_eq_true, bne_iff_ne, beq_iff_eq] at hnew
    have hlt : node < nodes := by
      rw [← hl]
      exact (List.getElem?_eq_some_iff.1 hnew.2).1
    intro route hr
    rcases List.mem_or_eq_of_mem_set hr with hr | hr
    · exact h route hr
    · cases hr
      exact hn hnew.1 hlt
  · exact h

theorem outward_foldl_reach (nextHop : Nat → Nat) (distance : Nat)
    (hn : ∀ node, node ≠ source → node < nodes →
      nextHop node ≠ source ∧ nextHop node < nodes) (links : List Nat)
    (h : Outward source nodes s.table) (hl : s.table.length = nodes) :
    Outward source nodes (links.foldl (reach source nextHop distance) s).table ∧
      (links.foldl (reach source nextHop distance) s).table.length = nodes := by
  induction links generalizing s with
  | nil => exact ⟨h, hl⟩
  | cons node links ih =>
    exact ih (outward_reach h hl (hn node)) ((length_reach _ _ _).trans hl)

theorem outward_run {links : List (List Nat)} {fuel : Nat} (h : Outward source nodes s.table)
    (hl : s.table.length = nodes) : Outward source nodes (run source links fuel s) := by
  induction fuel generalizing s with
  | zero => exact h
  | succ fuel ih =>
    rw [run]
    split
    · exact h
    · split
      · exact ih h hl
      · rename_i node rest _ _ via hvia
        have hmem := List.mem_of_getElem? (Option.join_eq_some_iff.1 hvia)
        obtain ⟨h', hl'⟩ := outward_foldl_reach (s := { s with frontier := rest })
          (fun _ => via.nextHop) (via.distance + 1) (fun _ _ _ => h via hmem)
          (links.getD node []) h hl
        exact ih h' hl'

end Search

theorem outward_tableOf (links : List (List Nat)) (source : Nat) :
    Outward source links.length (tableOf links source) := by
  unfold tableOf
  obtain ⟨h, hl⟩ := Search.outward_foldl_reach
    (s := { table := List.replicate links.length none, frontier := [] }) id 1
    (fun _ h1 h2 => ⟨h1, h2⟩) (links.getD source [])
    (outward_replicate source links.length links.length) List.length_replicate
  exact Search.outward_run h hl

theorem nextHop_ofLinks {links : List (List Nat)} {node destination hop : Nat}
    (h : (ofLinks links).nextHop node destination = some hop) : hop ≠ node ∧ hop < links.length := by
  obtain ⟨route, hr, rfl⟩ := Option.map_eq_some_iff.1 h
  have hmem := List.mem_of_getElem? (Option.join_eq_some_iff.1 hr)
  rw [ofLinks, List.getD_eq_getElem?_getD, List.getElem?_map] at hmem
  by_cases hn : node < links.length
  · rw [List.getElem?_range hn] at hmem
    exact outward_tableOf links node route hmem
  · rw [List.getElem?_eq_none (by simpa using hn)] at hmem
    cases hmem

/-! ## The destination -/

/-- A table has no route to its own node. -/
def Homeless (source : Nat) (table : RouteTable) : Prop := table[source]?.join = none

namespace Search

variable {source : Nat} {s : Search}

theorem homeless_reach (h : Homeless source s.table) (nextHop : Nat → Nat) (distance node : Nat) :
    Homeless source (s.reach source nextHop distance node).table := by
  unfold reach
  split
  · rename_i hnew
    simp only [isNew, Bool.and_eq_true, bne_iff_ne] at hnew
    rw [Homeless, List.getElem?_set_ne hnew.1]
    exact h
  · exact h

theorem homeless_foldl_reach (h : Homeless source s.table) (nextHop : Nat → Nat) (distance : Nat)
    (links : List Nat) : Homeless source (links.foldl (reach source nextHop distance) s).table := by
  induction links generalizing s with
  | nil => exact h
  | cons node links ih => exact ih (homeless_reach h nextHop distance node)

theorem homeless_run {links : List (List Nat)} {fuel : Nat} (h : Homeless source s.table) :
    Homeless source (run source links fuel s) := by
  induction fuel generalizing s with
  | zero => exact h
  | succ fuel ih =>
    rw [run]
    split
    · exact h
    · split
      · exact ih h
      · rename_i node rest _ _ via _
        exact ih (homeless_foldl_reach (s := { s with frontier := rest }) h _ _ _)

end Search

theorem homeless_tableOf (links : List (List Nat)) (source : Nat) :
    Homeless source (tableOf links source) := by
  have hstart : Homeless source (List.replicate links.length none) := by
    rw [Homeless, List.getElem?_replicate]
    split <;> rfl
  exact Search.homeless_run (Search.homeless_foldl_reach
    (s := { table := List.replicate links.length none, frontier := [] }) hstart _ _ _)

theorem nextHop_self_ofLinks (links : List (List Nat)) (node : Nat) :
    (ofLinks links).nextHop node node = none := by
  rw [nextHop, ofLinks, List.getD_eq_getElem?_getD, List.getElem?_map]
  by_cases hn : node < links.length
  · rw [List.getElem?_range hn]
    exact Option.map_eq_none_iff.2 (homeless_tableOf links node)
  · have hnone : (List.range links.length)[node]? = none :=
      List.getElem?_eq_none (by simpa using hn)
    rw [hnone]
    rfl

end SlotNet.Routes
