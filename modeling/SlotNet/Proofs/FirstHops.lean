import Mathlib.Data.List.Basic
import Mathlib.Data.List.ReduceOption
import SlotNet.Proofs.ShortestRoutes

/-!
# Ties between shortest ways

Of the neighbours that are on a shortest way to a node, the one that is listed first is the next hop. The
frontier is sorted by distance, and at equal distance by the place of the first hop among the links of
`source` (`Search.Ranked`): a node is found by the front, and of all nodes as far away that have a link to
it the front has the earliest first hop.

`shortest_ways`: the routes of a node, one for each node to which links lead, in ascending order.
-/

namespace SlotNet.Routes

variable {links : List (List Nat)} {source node n : Nat}

/-- A node is so many links away: links lead to it, and no fewer do. -/
def Away (links : List (List Nat)) (source n node : Nat) : Prop :=
  Walk links source n node ∧ ∀ m, Walk links source m node → n ≤ m

namespace Search

variable {s s' : Search} {nextHop : Nat → Nat} {distance : Nat}

/-- The place of the first hop to a node among the links of `source`. -/
def place (links : List (List Nat)) (source : Nat) (s : Search) (node : Nat) : Nat :=
  (s.found node).elim 0 fun via => (links.getD source []).idxOf via.nextHop

theorem place_eq {via : Route} (h : s.found node = some via) :
    s.place links source node = (links.getD source []).idxOf via.nextHop := by
  rw [place, h]
  rfl

/-- First hops are the earliest ones, and the nodes `waiting` are sorted by them at each distance. -/
structure Ranked (links : List (List Nat)) (source : Nat) (waiting : List Nat) (s : Search) : Prop
    extends s.Explores links source waiting where
  /-- No neighbour on a way as short is listed before the first hop. -/
  earliest : ∀ x via, s.found x = some via → ∀ hop ∈ links.getD source [], ∀ n,
    via.distance = n + 1 → Walk links hop n x → s.place links source x ≤ (links.getD source []).idxOf hop
  level : waiting.Pairwise fun x y =>
    s.depth x = s.depth y → s.place links source x ≤ s.place links source y
  /-- What is one link further away was found over a node that was followed before. -/
  further : ∀ x ∈ waiting, ∀ y ∈ waiting, s.depth y = s.depth x + 1 →
    s.place links source y ≤ s.place links source x

theorem lt_of_found {via : Route} (h : s.found node = some via) : node < s.table.length :=
  (List.getElem?_eq_some_iff.1 (Option.join_eq_some_iff.1 h)).1

theorem Explores.place_of_known {waiting l : List Nat} (h : s.Explores links source waiting)
    (hs : Follows source nextHop distance l s s') {z : Nat}
    (hz : z = source ∨ (s.found z).isSome) :
    s'.place links source z = s.place links source z := by
  rw [place, place, h.found_of_known hs hz]

theorem Explores.source_not_mem {x : Nat} {rest : List Nat} {via : Route}
    (h : s.Explores links source (x :: rest)) (hx : s.found x = some via) : source ∉ x :: rest := by
  intro hmem
  obtain ⟨n, hn, -⟩ := (h.via x via hx).rest
  have hdepth := depth_eq hx
  have hsource := h.depth_source
  rcases List.mem_cons.1 hmem with rfl | hmem
  · exact (h.via _ via hx).other rfl
  · have hle := (List.pairwise_cons.1 h.rising).1 source hmem
    omega

/-! ## The neighbours -/

theorem isNew_of_reach {x : Nat} (h : (s.reach source nextHop distance node).isNew source x = true) :
    s.isNew source x = true ∧ x ≠ node := by
  obtain ⟨hne, hlt, hnone⟩ := isNew_iff.1 h
  rw [length_reach] at hlt
  rw [found_reach] at hnone
  split at hnone
  · cases hnone
  · rename_i hold
    have hnew : s.isNew source x = true := isNew_iff.2 ⟨hne, hlt, hnone⟩
    refine ⟨hnew, ?_⟩
    rintro rfl
    exact hold ⟨hnew, rfl⟩

theorem frontier_foldl_sorted (before after : List Nat)
    (hfrontier : ∀ x ∈ s.frontier, x ∈ before) (hbefore : ∀ x ∈ before, s.isNew source x ≠ true)
    (hsorted : s.frontier.Pairwise fun x y =>
      (before ++ after).idxOf x ≤ (before ++ after).idxOf y) :
    (after.foldl (reach source nextHop distance) s).frontier.Pairwise fun x y =>
      (before ++ after).idxOf x ≤ (before ++ after).idxOf y := by
  induction after generalizing before s with
  | nil => exact hsorted
  | cons node after ih =>
    rw [List.append_cons] at hsorted ⊢
    refine ih (before ++ [node]) (fun x hx => ?_) (fun x hx hnew => ?_) ?_
    · rw [List.mem_append, List.mem_singleton]
      unfold reach at hx
      split at hx
      · exact (List.mem_append.1 hx).imp (hfrontier x) List.mem_singleton.1
      · exact .inl (hfrontier x hx)
    · obtain ⟨hold, hne⟩ := isNew_of_reach hnew
      rcases List.mem_append.1 hx with hx | hx
      · exact hbefore x hx hold
      · exact hne (List.mem_singleton.1 hx)
    · unfold reach
      split
      · rename_i hnew
        refine List.pairwise_append.2 ⟨hsorted, List.pairwise_singleton .., fun x hx y hy => ?_⟩
        obtain rfl := List.mem_singleton.1 hy
        -- the node is not listed before, all others in the frontier are
        have hfirst : y ∉ before := fun hmem => hbefore y hmem hnew
        have hx := hfrontier x hx
        rw [List.append_assoc, List.idxOf_append_of_mem hx, List.idxOf_append_of_notMem hfirst]
        have hlt := List.idxOf_lt_length_of_mem hx
        omega
      · exact hsorted

theorem ranked_near (links : List (List Nat)) (source : Nat) :
    (near links source).Ranked links source (near links source).frontier := by
  have hself : ∀ x via, (near links source).found x = some via →
      via.nextHop = x ∧ via.distance = 1 := by
    intro x via hf
    rcases (follows_near links source).fresh x via hf with hold | ⟨-, -, -, -, rfl⟩
    · rw [found_replicate] at hold
      cases hold
    · exact ⟨rfl, rfl⟩
  have hone : ∀ x ∈ (near links source).frontier, (near links source).depth x = 1 ∧
      (near links source).place links source x = (links.getD source []).idxOf x := by
    intro x hx
    obtain ⟨via, hf⟩ := Option.isSome_iff_exists.1 (isSome_near hx)
    obtain ⟨hhop, hdistance⟩ := hself x via hf
    exact ⟨(depth_eq hf).trans hdistance, by rw [place_eq hf, hhop]⟩
  have hsorted : (near links source).frontier.Pairwise fun x y =>
      (links.getD source []).idxOf x ≤ (links.getD source []).idxOf y :=
    frontier_foldl_sorted [] (links.getD source []) nofun nofun .nil
  refine ⟨explores_near links source, fun x via hf hop hhop n hn hwalk => ?earliest,
    hsorted.imp_of_mem fun {x y} hx hy hxy _ => ?level, fun x hx y hy hxy => ?further⟩
  case earliest =>
    obtain ⟨hnext, hdistance⟩ := hself x via hf
    obtain rfl : n = 0 := by omega
    cases hwalk
    exact Nat.le_of_eq (by rw [place_eq hf, hnext])
  case level =>
    rw [(hone x hx).2, (hone y hy).2]
    exact hxy
  case further =>
    rw [(hone x hx).1, (hone y hy).1] at hxy
    omega

/-! ## Further on -/

theorem Ranked.earliest_of_new {x y hop : Nat} {rest : List Nat} {via : Route}
    (h : s.Ranked links source (x :: rest)) (hx : s.found x = some via) (hy : s.found y = none)
    (hne : y ≠ source) (hlt : y < links.length) (hhop : hop ∈ links.getD source [])
    (hwalk : Walk links hop via.distance y) :
    s.place links source x ≤ (links.getD source []).idxOf hop := by
  obtain ⟨k, hk, -⟩ := (h.via x via hx).rest
  have hdepth := depth_eq hx
  have hrising := (List.pairwise_cons.1 h.rising).1
  rw [hk] at hwalk
  cases hwalk with
  | @link _ z _ hz hyz =>
    -- the last node before `y` still waits, otherwise `y` would be found
    have hwaits : z = source ∨ (s.found z).isSome → z ∈ x :: rest := by
      intro hknown
      rcases h.settled z hknown with hmem | hclosed
      · exact hmem
      · obtain ⟨via', hf, -⟩ := hclosed y hyz hne hlt
        rw [hy] at hf
        cases hf
    have hother : z ≠ source := by
      rintro rfl
      exact h.source_not_mem hx (hwaits (.inl rfl))
    have hfar : ∀ w ∈ x :: rest, k + 1 ≤ s.depth w := by
      intro w hw
      rcases List.mem_cons.1 hw with rfl | hw
      · omega
      · have hle := hrising w hw
        omega
    obtain ⟨via', hf, hd⟩ := h.exists_of_walk hfar (hz.cons hhop) hother (lt_of_mem_getD hyz)
    have hdepth' := depth_eq hf
    rcases List.mem_cons.1 (hwaits (.inr (by rw [hf]; rfl))) with rfl | hmem
    · exact h.earliest z via hx hop hhop k hk hz
    · have hle := hrising z hmem
      have hbetween := (List.pairwise_cons.1 h.level).1 z hmem (by omega)
      exact Nat.le_trans hbetween (h.earliest z via' hf hop hhop k (by omega) hz)

/-- What waits is as far away as before, over the same first hop. What is new is one link further away than
the front and has its first hop. -/
theorem Ranked.frontier_of_follows {x : Nat} {rest : List Nat} {via : Route}
    (h : s.Ranked links source (x :: rest)) (hx : s.found x = some via)
    (hs : Follows source (fun _ => via.nextHop) (via.distance + 1) (links.getD x [])
      { s with frontier := rest } s') : ∃ more, s'.frontier = rest ++ more ∧
    (∀ z ∈ rest, s'.depth z = s.depth z ∧ s'.place links source z = s.place links source z) ∧
    ∀ z ∈ more, s'.depth z = s.depth x + 1 ∧ s'.place links source z = s.place links source x := by
  obtain ⟨more, hmore, hadded⟩ := hs.frontier
  have hpopped := h.setFrontier rest
  refine ⟨more, hmore, fun z hz => ?waits, fun z hz => ?new⟩
  case waits =>
    have hknown := h.known z (.tail _ hz)
    exact ⟨hpopped.depth_of_known hs hknown, hpopped.place_of_known hs hknown⟩
  case new =>
    rw [depth_eq hx, place_eq hx]
    obtain ⟨via', hf⟩ := Option.isSome_iff_exists.1 (hadded z hz).2
    rcases hs.fresh z via' hf with hold | ⟨-, -, -, -, rfl⟩
    · cases (hadded z hz).1.symm.trans hold
    · exact ⟨depth_eq hf, (place_eq hf :)⟩

theorem Ranked.round {x : Nat} {rest : List Nat} {via : Route}
    (h : s.Ranked links source s.frontier) (hfrontier : s.frontier = x :: rest)
    (hx : s.found x = some via)
    (hs : Follows source (fun _ => via.nextHop) (via.distance + 1) (links.getD x [])
      { s with frontier := rest } s') : s'.Ranked links source s'.frontier := by
  have hnext := h.toExplores.round hfrontier hx hs
  rw [hfrontier] at h
  obtain ⟨more, hmore, hwaiting, hnew⟩ := h.frontier_of_follows hx hs
  obtain ⟨hfirst, hlevel⟩ := List.pairwise_cons.1 h.level
  refine ⟨hnext, fun y via' hf hop hhop n hn hwalk => ?earliest, ?level, fun y hy z hz hyz => ?further⟩
  case earliest =>
    rcases hs.fresh y via' hf with hold | ⟨hnone, -, hne, -, rfl⟩
    · rw [(h.setFrontier rest).place_of_known hs (.inr (by rw [hold]; rfl))]
      exact h.earliest y via' hold hop hhop n hn hwalk
    · have hlt := lt_of_found hf
      rw [hnext.length] at hlt
      obtain rfl : n = via.distance := by
        have hn : via.distance + 1 = n + 1 := hn
        omega
      rw [place_eq hf, ← place_eq hx]
      exact h.earliest_of_new hx hnone hne hlt hhop hwalk
  case level =>
    rw [hmore]
    refine List.pairwise_append.2 ⟨hlevel.imp_of_mem fun {a b} ha hb hab => ?_,
      List.pairwise_of_forall_mem_list fun a ha b hb _ => ?_, fun a ha b hb hab => ?_⟩
    · rw [(hwaiting a ha).1, (hwaiting a ha).2, (hwaiting b hb).1, (hwaiting b hb).2]
      exact hab
    · exact Nat.le_of_eq ((hnew a ha).2.trans (hnew b hb).2.symm)
    · rw [(hwaiting a ha).1, (hnew b hb).1] at hab
      rw [(hwaiting a ha).2, (hnew b hb).2]
      exact h.further x (.head _) a (.tail _ ha) hab
  case further =>
    rw [hmore] at hy hz
    rcases List.mem_append.1 hy with hy | hy <;> rcases List.mem_append.1 hz with hz | hz
    · rw [(hwaiting y hy).1, (hwaiting z hz).1] at hyz
      rw [(hwaiting y hy).2, (hwaiting z hz).2]
      exact h.further y (.tail _ hy) z (.tail _ hz) hyz
    · rw [(hwaiting y hy).1, (hnew z hz).1] at hyz
      rw [(hwaiting y hy).2, (hnew z hz).2]
      exact hfirst y hy (by omega)
    · -- nothing that waits is two links further than the front
      have hle := h.depth_le hz
      rw [(hnew y hy).1, (hwaiting z hz).1] at hyz
      omega
    · rw [(hnew y hy).1, (hnew z hz).1] at hyz
      omega

end Search

/-! ## The tables -/

theorem ranked_tableOf (links : List (List Nat)) (source : Nat) :
    (⟨tableOf links source, []⟩ : Search).Ranked links source [] := by
  obtain ⟨t, ht, -, htable⟩ := Search.run_induction
    (P := fun s => s.Ranked links source s.frontier)
    (fun s node rest via h hfrontier hfound => h.round hfrontier hfound (Search.follows_foldl _ _))
    (Search.ranked_near links source) (fun _ => Search.isSome_near) (Search.pending_near links source)
  have hfound : ∀ x, (⟨tableOf links source, []⟩ : Search).found x = t.found x := by
    intro x
    show (tableOf links source)[x]?.join = t.table[x]?.join
    rw [htable]
    rfl
  refine ⟨explores_tableOf links source, fun x via hf => ?_, .nil, nofun⟩
  rw [Search.place, hfound]
  exact ht.earliest x via ((hfound x).symm.trans hf)

/-- The next hop is the first neighbour in the list from which a node is one link less away. -/
theorem first_of_route {via : Route} (h : (ofLinks links).route source node = some via) :
    ∃ n before after, via.distance = n + 1 ∧ links.getD source [] = before ++ via.nextHop :: after ∧
      Away links via.nextHop n node ∧ ∀ hop ∈ before, ¬ Away links hop n node := by
  have hvia := via_of_route h
  obtain ⟨hsource, hnode⟩ := lt_of_route h
  obtain ⟨n, hn, hrest⟩ := hvia.rest
  obtain ⟨before, after, hlinks, hfirst⟩ := List.eq_append_cons_of_mem hvia.first
  refine ⟨n, before, after, hn, hlinks, ⟨hrest, fun m hm => ?least⟩, fun hop hhop haway => ?first⟩
  case least =>
    obtain ⟨via', hroute, hle⟩ := exists_route_of_walk (hm.cons hvia.first) hvia.other hsource hnode
    obtain rfl := Option.some.inj (h.symm.trans hroute)
    omega
  case first =>
    rw [route_eq_found hsource] at h
    have hle := (ranked_tableOf links source).earliest node via h hop
      (hlinks ▸ List.mem_append_left _ hhop) n hn haway.1
    have hlt := List.idxOf_lt_length_of_mem hhop
    rw [Search.place_eq h, hlinks, List.idxOf_append_of_mem hhop,
      List.idxOf_append_of_notMem hfirst] at hle
    omega

theorem away_of_route {via : Route} (h : (ofLinks links).route source node = some via) :
    Away links source via.distance node := by
  have hvia := via_of_route h
  obtain ⟨hsource, hnode⟩ := lt_of_route h
  refine ⟨hvia.walk, fun m hm => ?_⟩
  obtain ⟨via', hroute, hle⟩ := exists_route_of_walk hm hvia.other hsource hnode
  obtain rfl := Option.some.inj (h.symm.trans hroute)
  exact hle

theorem mem_entries {via : Route} : via ∈ (ofLinks links).entries source ↔
    (ofLinks links).route source via.destination = some via := by
  rw [entries, List.reduceOption_mem_iff]
  constructor
  · intro hmem
    obtain ⟨x, hx⟩ := List.mem_iff_getElem?.1 hmem
    have hroute : (ofLinks links).route source x = some via := by
      rw [route, hx]
      rfl
    rw [(via_of_route hroute).destination]
    exact hroute
  · intro hroute
    exact List.mem_of_getElem? (Option.join_eq_some_iff.1 hroute)

theorem sorted_entries (links : List (List Nat)) (source : Nat) :
    ((ofLinks links).entries source).Pairwise fun r r' => r.destination < r'.destination := by
  rw [entries, List.reduceOption, List.pairwise_filterMap, List.pairwise_iff_getElem]
  intro i j hi hj hij r hr r' hr'
  have hroute : ∀ k (hk : k < ((ofLinks links).tables.getD source []).length) via,
      id ((ofLinks links).tables.getD source [])[k] = some via → via.destination = k := by
    intro k hk via hvia
    have hroute : (ofLinks links).route source k = some via := by
      rw [route, List.getElem?_eq_getElem hk]
      exact hvia
    exact (via_of_route hroute).destination
  rw [hroute i hi r hr, hroute j hj r' hr']
  exact hij

theorem Walk.lt_of_ne (h : Walk links source n node) (hne : node ≠ source) :
    source < links.length := by
  induction h with
  | here => exact absurd rfl hne
  | @link n x y hx hy ih =>
    by_cases hsource : x = source
    · exact hsource ▸ lt_of_mem_getD hy
    · exact ih hsource

/-- Over any links a node has one route to each other node to which links lead, and no more, in ascending
order. A route has as few links as there can be. Its next hop is the first neighbour in the list from which
the destination is one link less away, and it is the one that the node answers for this destination. -/
theorem shortest_ways (links : List (List Nat)) (source : Nat) :
    ((ofLinks links).entries source).Pairwise (fun r r' => r.destination < r'.destination) ∧
    (∀ node, (∃ r ∈ (ofLinks links).entries source, r.destination = node) ↔
      node < links.length ∧ node ≠ source ∧ ∃ n, Walk links source n node) ∧
    (∀ r ∈ (ofLinks links).entries source, Away links source r.distance r.destination ∧
      ∃ n before after, r.distance = n + 1 ∧ links.getD source [] = before ++ r.nextHop :: after ∧
        Away links r.nextHop n r.destination ∧ ∀ hop ∈ before, ¬ Away links hop n r.destination) ∧
    ∀ node, (ofLinks links).nextHop source node =
      (((ofLinks links).entries source).find? (·.destination = node)).map (·.nextHop) := by
  refine ⟨sorted_entries links source, fun node => ?reached, fun r hr => ?least, fun node => ?next⟩
  case reached =>
    constructor
    · rintro ⟨r, hr, rfl⟩
      have hroute := mem_entries.1 hr
      have hvia := via_of_route hroute
      exact ⟨(lt_of_route hroute).2, hvia.other, r.distance, hvia.walk⟩
    · rintro ⟨hlt, hne, n, hwalk⟩
      obtain ⟨via, hroute, -⟩ := exists_route_of_walk hwalk hne (hwalk.lt_of_ne hne) hlt
      have hdestination := (via_of_route hroute).destination
      exact ⟨via, mem_entries.2 (hdestination.symm ▸ hroute), hdestination⟩
  case least =>
    have hroute := mem_entries.1 hr
    exact ⟨away_of_route hroute, first_of_route hroute⟩
  case next =>
    rw [nextHop_eq]
    congr 1
    cases hfind : ((ofLinks links).entries source).find? (·.destination = node) with
    | none =>
      refine Option.eq_none_iff_forall_ne_some.2 fun via hroute => ?_
      have hdestination := (via_of_route hroute).destination
      have hmem : via ∈ (ofLinks links).entries source :=
        mem_entries.2 (hdestination.symm ▸ hroute)
      exact absurd (decide_eq_true hdestination) (List.find?_eq_none.1 hfind via hmem)
    | some r =>
      have hdestination : r.destination = node := by simpa using List.find?_some hfind
      rw [← hdestination]
      exact mem_entries.1 (List.mem_of_find?_eq_some hfind)

/-- A ring with a short cut, a node that hears itself, a neighbour listed twice, and one that is no node.
Two neighbours of node 0 are two links away from node 5. -/
def tangled : List (List Nat) := [[3, 1, 2, 1, 0, 9], [0, 4], [2, 4], [6], [5, 0], [1], []]

theorem shortest_ways_tangled : ⟨5, 1, 3⟩ ∈ (ofLinks tangled).entries 0 ∧ Away tangled 0 3 5 ∧
    Away tangled 1 2 5 ∧ ¬ Away tangled 3 2 5 ∧ (ofLinks tangled).nextHop 0 5 = some 1 := by
  obtain ⟨-, -, hleast, hnext⟩ := shortest_ways tangled 0
  have hmem : ⟨5, 1, 3⟩ ∈ (ofLinks tangled).entries 0 := by decide +kernel
  obtain ⟨haway, n, before, after, hn, hlinks, hfirst, hnone⟩ := hleast _ hmem
  obtain rfl : 2 = n := Nat.succ.inj hn
  refine ⟨hmem, haway, hfirst, ?_, (hnext 5).trans (by decide +kernel)⟩
  -- node 3 is listed before node 1
  cases before with
  | nil => cases hlinks
  | cons hop before =>
    obtain rfl : 3 = hop := (List.cons.inj hlinks).1
    exact hnone 3 (.head _)

end SlotNet.Routes
