import SlotNet.Proofs.Routing

/-!
# Routes are shortest ways

The search of a node finds the nodes to which links lead from it, each with the least number of links
(`via_of_route`, `exists_route_of_walk`). What carries this is that the frontier is sorted by distance, that
nothing found is more than one link behind its front, and that the links of all other nodes found have been
followed (`Search.Explores`).

The tables of all nodes then agree with each other: the next hop of a node is one hop nearer to the
destination, by its own table (`descends_ofLinks`).
-/

namespace SlotNet.Routes

/-! ## Walks and routes -/

/-- So many links lead from `source` to a node. -/
inductive Walk (links : List (List Nat)) (source : Nat) : Nat → Nat → Prop where
  | here : Walk links source 0 source
  | link {n x y : Nat} (hx : Walk links source n x) (hy : y ∈ links.getD x []) :
      Walk links source (n + 1) y

def route (r : Routes) (node destination : Nat) : Option Route :=
  (r.tables.getD node [])[destination]?.join

def hops (r : Routes) (node destination : Nat) : Option Nat :=
  if node = destination then some 0 else (r.route node destination).map (·.distance)

/-- Each hop leads one hop nearer to the destination. -/
def Descends (r : Routes) : Prop :=
  ∀ node destination hop, r.nextHop node destination = some hop →
    ∃ n, r.hops node destination = some (n + 1) ∧ r.hops hop destination = some n

variable {links : List (List Nat)} {source node n : Nat}

theorem Walk.cons {first : Nat} (hfirst : first ∈ links.getD source [])
    (h : Walk links first n node) : Walk links source (n + 1) node := by
  induction h with
  | here => exact .link .here hfirst
  | link _ hy ih => exact ih.link hy

theorem lt_of_mem_getD {y : Nat} (h : y ∈ links.getD node []) : node < links.length := by
  refine Nat.lt_of_not_le fun hle => ?_
  rw [List.getD_eq_getElem?_getD, List.getElem?_eq_none hle] at h
  cases h

/-- A route goes to its destination, first over a link of `source` and then over as many links as it
says. -/
structure Via (links : List (List Nat)) (source node : Nat) (via : Route) : Prop where
  destination : via.destination = node
  other : node ≠ source
  first : via.nextHop ∈ links.getD source []
  rest : ∃ n, via.distance = n + 1 ∧ Walk links via.nextHop n node

theorem Via.walk {via : Route} (h : Via links source node via) :
    Walk links source via.distance node := by
  obtain ⟨n, hn, hrest⟩ := h.rest
  rw [hn]
  exact hrest.cons h.first

namespace Search

def found (s : Search) (node : Nat) : Option Route := s.table[node]?.join

/-- The distance of a node; zero for `source`, which has no route. -/
def depth (s : Search) (node : Nat) : Nat := (s.found node).elim 0 (·.distance)

/-- How many nodes may still come to the front. -/
def pending (s : Search) : Nat := s.frontier.length + s.table.count none

variable {s s' s'' : Search} {nextHop : Nat → Nat} {distance : Nat}

theorem depth_eq {via : Route} (h : s.found node = some via) : s.depth node = via.distance := by
  rw [depth, h]
  rfl

theorem isNew_iff : s.isNew source node = true ↔
    node ≠ source ∧ node < s.table.length ∧ s.found node = none := by
  rw [isNew, Bool.and_eq_true, bne_iff_ne, beq_iff_eq, found]
  refine and_congr_right fun _ => ?_
  cases h : s.table[node]? with
  | none => simpa using List.getElem?_eq_none_iff.1 h
  | some entry =>
    have hlt := (List.getElem?_eq_some_iff.1 h).1
    cases entry <;> simp [hlt]

theorem found_reach (k : Nat) : (s.reach source nextHop distance node).found k =
    if s.isNew source node = true ∧ k = node then some ⟨node, nextHop node, distance⟩
    else s.found k := by
  unfold reach
  by_cases hnew : s.isNew source node = true
  · rw [if_pos hnew]
    by_cases hk : k = node
    · rw [if_pos ⟨hnew, hk⟩, hk, found, List.getElem?_set_self (isNew_iff.1 hnew).2.1]
      rfl
    · rw [if_neg fun h => hk h.2, found, List.getElem?_set_ne (Ne.symm hk), found]
  · rw [if_neg hnew, if_neg fun h => hnew h.1]

theorem pending_reach : (s.reach source nextHop distance node).pending = s.pending := by
  unfold reach
  split
  · rename_i hnew
    simp only [isNew, Bool.and_eq_true, beq_iff_eq] at hnew
    obtain ⟨hlt, hnone⟩ := List.getElem?_eq_some_iff.1 hnew.2
    have hmem : none ∈ s.table := hnone ▸ List.getElem_mem hlt
    have hpos := List.count_pos_iff.2 hmem
    simp only [pending, List.length_append, List.length_singleton, List.count_set hlt, hnone]
    simp
    omega
  · rfl

/-! ## Following links -/

/-- What following some links does: the nodes they lead to are found, with this distance if they are new,
and come to the end of the frontier. -/
structure Follows (source : Nat) (nextHop : Nat → Nat) (distance : Nat) (links : List Nat)
    (s s' : Search) : Prop where
  length : s'.table.length = s.table.length
  old : ∀ x via, s.found x = some via → s'.found x = some via
  fresh : ∀ x via, s'.found x = some via → s.found x = some via ∨
    (s.found x = none ∧ x ∈ links ∧ x ≠ source ∧ x ∈ s'.frontier ∧
      via = ⟨x, nextHop x, distance⟩)
  all : ∀ x ∈ links, x ≠ source → x < s.table.length → (s'.found x).isSome
  frontier : ∃ more, s'.frontier = s.frontier ++ more ∧
    ∀ x ∈ more, s.found x = none ∧ (s'.found x).isSome
  pending : s'.pending = s.pending

theorem follows_reach (s : Search) (node : Nat) :
    Follows source nextHop distance [node] s (s.reach source nextHop distance node) := by
  refine ⟨length_reach _ _ _, fun x via hx => ?old, fun x via hx => ?fresh, fun x hx hne hlt => ?all,
    ?frontier, pending_reach⟩
  case old =>
    rw [found_reach, if_neg, hx]
    rintro ⟨hnew, rfl⟩
    rw [(isNew_iff.1 hnew).2.2] at hx
    cases hx
  case fresh =>
    rw [found_reach] at hx
    split at hx
    · rename_i h
      obtain ⟨hnew, rfl⟩ := h
      obtain ⟨hne, -, hnone⟩ := isNew_iff.1 hnew
      refine .inr ⟨hnone, .head _, hne, ?_, (Option.some.inj hx).symm⟩
      rw [reach, if_pos hnew]
      exact List.mem_append_right _ (.head _)
    · exact .inl hx
  case all =>
    obtain rfl := List.mem_singleton.1 hx
    rw [found_reach]
    split
    · rfl
    · rename_i hold
      rw [Option.isSome_iff_ne_none]
      exact fun hnone => hold ⟨isNew_iff.2 ⟨hne, hlt, hnone⟩, rfl⟩
  case frontier =>
    by_cases hnew : s.isNew source node = true
    · refine ⟨[node], by rw [reach, if_pos hnew], fun x hx => ?_⟩
      obtain rfl := List.mem_singleton.1 hx
      rw [found_reach, if_pos ⟨hnew, rfl⟩]
      exact ⟨(isNew_iff.1 hnew).2.2, rfl⟩
    · exact ⟨[], by rw [reach, if_neg hnew, List.append_nil], nofun⟩

theorem Follows.isSome {l : List Nat} (h : Follows source nextHop distance l s s') {x : Nat}
    (hx : (s.found x).isSome) : (s'.found x).isSome := by
  obtain ⟨via, hvia⟩ := Option.isSome_iff_exists.1 hx
  rw [h.old x via hvia]
  rfl

theorem Follows.isSome_of_frontier {l : List Nat} (h : Follows source nextHop distance l s s')
    (hs : ∀ x ∈ s.frontier, (s.found x).isSome) : ∀ x ∈ s'.frontier, (s'.found x).isSome := by
  obtain ⟨more, hmore, hadded⟩ := h.frontier
  intro x hx
  rw [hmore] at hx
  rcases List.mem_append.1 hx with hx | hx
  · exact h.isSome (hs x hx)
  · exact (hadded x hx).2

theorem Follows.trans {l l' : List Nat} (h : Follows source nextHop distance l s s')
    (h' : Follows source nextHop distance l' s' s'') :
    Follows source nextHop distance (l ++ l') s s'' := by
  obtain ⟨more, hmore, hadded⟩ := h.frontier
  obtain ⟨more', hmore', hadded'⟩ := h'.frontier
  have hbefore : ∀ x, s'.found x = none → s.found x = none := by
    intro x hx
    refine Option.eq_none_iff_forall_ne_some.2 fun via hvia => ?_
    rw [h.old x via hvia] at hx
    cases hx
  refine ⟨h'.length.trans h.length, fun x via hx => h'.old x via (h.old x via hx),
    fun x via hx => ?fresh, fun x hx hne hlt => ?all, ⟨more ++ more', ?_, fun x hx => ?added⟩,
    h'.pending.trans h.pending⟩
  case fresh =>
    rcases h'.fresh x via hx with hx | ⟨hnone, hl, hne, hfrontier, hvia⟩
    · refine (h.fresh x via hx).imp_right fun ⟨hnone, hl, hne, hfrontier, hvia⟩ => ?_
      refine ⟨hnone, List.mem_append_left _ hl, hne, ?_, hvia⟩
      rw [hmore']
      exact List.mem_append_left _ hfrontier
    · exact .inr ⟨hbefore x hnone, List.mem_append_right _ hl, hne, hfrontier, hvia⟩
  case all =>
    rcases List.mem_append.1 hx with hx | hx
    · exact h'.isSome (h.all x hx hne hlt)
    · exact h'.all x hx hne (h.length ▸ hlt)
  · rw [hmore', hmore, List.append_assoc]
  case added =>
    rcases List.mem_append.1 hx with hx | hx
    · exact ⟨(hadded x hx).1, h'.isSome (hadded x hx).2⟩
    · exact ⟨hbefore x (hadded' x hx).1, (hadded' x hx).2⟩

theorem follows_foldl (l : List Nat) (s : Search) :
    Follows source nextHop distance l s (l.foldl (reach source nextHop distance) s) := by
  induction l generalizing s with
  | nil =>
    exact ⟨rfl, fun _ _ h => h, fun _ _ h => .inl h, nofun, ⟨[], (List.append_nil _).symm, nofun⟩, rfl⟩
  | cons node l ih => exact (follows_reach s node).trans (ih _)

/-! ## The invariant -/

/-- A search whose nodes `waiting` are still to be followed, the nearest one first. -/
structure Explores (links : List (List Nat)) (source : Nat) (waiting : List Nat) (s : Search) :
    Prop where
  length : s.table.length = links.length
  via : ∀ x via, s.found x = some via → Via links source x via
  known : ∀ x ∈ waiting, x = source ∨ (s.found x).isSome
  rising : waiting.Pairwise fun x y => s.depth x ≤ s.depth y
  near : ∀ x ∈ waiting, ∀ y via, s.found y = some via → via.distance ≤ s.depth x + 1
  settled : ∀ x, x = source ∨ (s.found x).isSome → x ∈ waiting ∨
    ∀ y ∈ links.getD x [], y ≠ source → y < links.length →
      ∃ via, s.found y = some via ∧ via.distance ≤ s.depth x + 1

theorem Explores.depth_source {waiting : List Nat} (h : s.Explores links source waiting) :
    s.depth source = 0 := by
  cases hf : s.found source with
  | none =>
    rw [depth, hf]
    rfl
  | some via => exact absurd rfl (h.via source via hf).other

theorem Explores.setFrontier {waiting : List Nat} (h : s.Explores links source waiting)
    (frontier : List Nat) : ({ s with frontier } : Search).Explores links source waiting :=
  ⟨h.length, h.via, h.known, h.rising, h.near, h.settled⟩

theorem Follows.depth_of_new {l : List Nat} (hs : Follows source nextHop distance l s s') {z : Nat}
    (hnone : s.found z = none) (hz : (s'.found z).isSome) : s'.depth z = distance := by
  obtain ⟨via, hf⟩ := Option.isSome_iff_exists.1 hz
  rcases hs.fresh z via hf with hold | ⟨-, -, -, -, rfl⟩
  · rw [hnone] at hold
    cases hold
  · exact depth_eq hf

theorem Explores.found_of_known {waiting l : List Nat} (h : s.Explores links source waiting)
    (hs : Follows source nextHop distance l s s') {z : Nat}
    (hz : z = source ∨ (s.found z).isSome) : s'.found z = s.found z := by
  rcases hz with rfl | hz
  · have hbefore : s.found z = none :=
      Option.eq_none_iff_forall_ne_some.2 fun via hf => (h.via z via hf).other rfl
    rw [hbefore]
    refine Option.eq_none_iff_forall_ne_some.2 fun via hf => ?_
    rcases hs.fresh z via hf with hf | ⟨-, -, hne, -⟩
    · exact (h.via z via hf).other rfl
    · exact hne rfl
  · obtain ⟨via, hf⟩ := Option.isSome_iff_exists.1 hz
    rw [hf, hs.old z via hf]

theorem Explores.depth_of_known {waiting l : List Nat} (h : s.Explores links source waiting)
    (hs : Follows source nextHop distance l s s') {z : Nat}
    (hz : z = source ∨ (s.found z).isSome) : s'.depth z = s.depth z := by
  rw [depth, depth, h.found_of_known hs hz]

theorem Explores.depth_le {x z : Nat} {rest : List Nat} (h : s.Explores links source (x :: rest))
    (hz : z ∈ rest) : s.depth z ≤ s.depth x + 1 := by
  rcases h.known z (.tail _ hz) with rfl | hsome
  · rw [h.depth_source]
    exact Nat.zero_le _
  · obtain ⟨via, hf⟩ := Option.isSome_iff_exists.1 hsome
    rw [depth_eq hf]
    exact h.near x (.head _) z via hf

theorem Explores.follow {x : Nat} (h : s.Explores links source (x :: s.frontier))
    (hx : s.depth x = distance)
    (hs : Follows source nextHop (distance + 1) (links.getD x []) s s')
    (hvia : ∀ y ∈ links.getD x [], y ≠ source →
      Via links source y ⟨y, nextHop y, distance + 1⟩) :
    s'.Explores links source s'.frontier := by
  subst hx
  obtain ⟨more, hmore, hadded⟩ := hs.frontier
  obtain ⟨hfirst, hrising⟩ := List.pairwise_cons.1 h.rising
  have hwaiting : ∀ z ∈ s.frontier, s'.depth z = s.depth z := fun z hz =>
    h.depth_of_known hs (h.known z (.tail _ hz))
  have hnew : ∀ z ∈ more, s'.depth z = s.depth x + 1 := fun z hz =>
    hs.depth_of_new (hadded z hz).1 (hadded z hz).2
  have hall : ∀ y via, s'.found y = some via → via.distance ≤ s.depth x + 1 := by
    intro y via hf
    rcases hs.fresh y via hf with hf | ⟨-, -, -, -, rfl⟩
    · exact h.near x (.head _) y via hf
    · exact Nat.le_refl _
  refine ⟨hs.length.trans h.length, fun y via hf => ?via, fun z hz => ?known, ?rising,
    fun z hz y via hf => ?near, fun z hz => ?settled⟩
  case via =>
    rcases hs.fresh y via hf with hf | ⟨-, hy, hne, -, rfl⟩
    · exact h.via y via hf
    · exact hvia y hy hne
  case known =>
    rw [hmore] at hz
    rcases List.mem_append.1 hz with hz | hz
    · exact (h.known z (.tail _ hz)).imp_right hs.isSome
    · exact .inr (hadded z hz).2
  case rising =>
    rw [hmore]
    refine List.pairwise_append.2 ⟨hrising.imp_of_mem fun ha hb hab => ?_,
      List.pairwise_of_forall_mem_list fun a ha b hb => Nat.le_of_eq ?_, fun a ha b hb => ?_⟩
    · rwa [hwaiting _ ha, hwaiting _ hb]
    · rw [hnew a ha, hnew b hb]
    · rw [hwaiting a ha, hnew b hb]
      exact h.depth_le ha
  case near =>
    refine Nat.le_trans (hall y via hf) (Nat.add_le_add_right ?_ 1)
    rw [hmore] at hz
    rcases List.mem_append.1 hz with hz | hz
    · rw [hwaiting z hz]
      exact hfirst z hz
    · rw [hnew z hz]
      exact Nat.le_succ _
  case settled =>
    by_cases hknown : z = source ∨ (s.found z).isSome
    · rw [h.depth_of_known hs hknown]
      rcases h.settled z hknown with hz | hclosed
      · rcases List.mem_cons.1 hz with rfl | hz
        · refine .inr fun y hy hne hlt => ?_
          obtain ⟨via, hf⟩ := Option.isSome_iff_exists.1 (hs.all y hy hne (h.length ▸ hlt))
          exact ⟨via, hf, hall y via hf⟩
        · rw [hmore]
          exact .inl (List.mem_append_left _ hz)
      · refine .inr fun y hy hne hlt => ?_
        obtain ⟨via, hf, hd⟩ := hclosed y hy hne hlt
        exact ⟨via, hs.old y via hf, hd⟩
    · obtain ⟨hne, hnone⟩ := not_or.1 hknown
      obtain ⟨via, hf⟩ := Option.isSome_iff_exists.1 (hz.resolve_left hne)
      rcases hs.fresh z via hf with hold | ⟨-, -, -, hfrontier, -⟩
      · rw [hold] at hnone
        exact absurd rfl hnone
      · exact .inl hfrontier

/-- The search goes on until the frontier is empty, and what each round keeps holds at the end. -/
theorem run_induction {P : Search → Prop}
    (hstep : ∀ s node rest via, P s → s.frontier = node :: rest → s.found node = some via →
      P ((links.getD node []).foldl (reach source (fun _ => via.nextHop) (via.distance + 1))
        { s with frontier := rest }))
    {fuel : Nat} (h : P s) (hknown : ∀ x ∈ s.frontier, (s.found x).isSome) (hf : s.pending ≤ fuel) :
    ∃ t : Search, P t ∧ t.frontier = [] ∧ t.table = s.run source links fuel := by
  induction fuel generalizing s with
  | zero =>
    rw [pending] at hf
    exact ⟨s, h, List.length_eq_zero_iff.1 (by omega), rfl⟩
  | succ fuel ih =>
    rw [Search.run]
    split
    · rename_i hnil
      exact ⟨s, h, hnil, rfl⟩
    · rename_i node rest hfrontier
      split
      · rename_i hnone
        have hsome := hknown node (hfrontier ▸ .head _)
        rw [found, hnone] at hsome
        cases hsome
      · rename_i via hfound
        have hfollows : Follows source (fun _ => via.nextHop) (via.distance + 1)
            (links.getD node []) { s with frontier := rest } _ := follows_foldl _ _
        refine ih (hstep s node rest via h hfrontier hfound)
          (hfollows.isSome_of_frontier fun x hx => hknown x (hfrontier ▸ .tail _ hx)) ?_
        rw [hfollows.pending]
        rw [pending, hfrontier, List.length_cons] at hf
        show rest.length + s.table.count none ≤ fuel
        omega

theorem Explores.round {node : Nat} {rest : List Nat} {via : Route}
    (h : s.Explores links source s.frontier) (hfrontier : s.frontier = node :: rest)
    (hfound : s.found node = some via)
    (hfollows : Follows source (fun _ => via.nextHop) (via.distance + 1) (links.getD node [])
      { s with frontier := rest } s') : s'.Explores links source s'.frontier := by
  rw [hfrontier] at h
  have hvia := h.via node via hfound
  refine (h.setFrontier rest).follow (s := { s with frontier := rest }) (depth_eq hfound) hfollows
    fun y hy hne => ?_
  obtain ⟨n, hn, hwalk⟩ := hvia.rest
  exact ⟨rfl, hne, hvia.first, via.distance, rfl, hn ▸ hwalk.link hy⟩

theorem Explores.run {fuel : Nat} (h : s.Explores links source s.frontier)
    (hknown : ∀ x ∈ s.frontier, (s.found x).isSome) (hf : s.pending ≤ fuel) :
    (⟨s.run source links fuel, []⟩ : Search).Explores links source [] := by
  obtain ⟨t, ht, hnil, htable⟩ := run_induction
    (P := fun s => s.Explores links source s.frontier)
    (fun s node rest via h hfrontier hfound => h.round hfrontier hfound (follows_foldl _ _)) h hknown hf
  rw [hnil] at ht
  rw [← htable]
  exact ht.setFrontier []

end Search

/-! ## The tables -/

namespace Search

theorem found_replicate (n x : Nat) : (⟨List.replicate n none, []⟩ : Search).found x = none := by
  rw [found, List.getElem?_replicate]
  split <;> rfl

/-- The search when only the links of `source` have been followed. -/
def near (links : List (List Nat)) (source : Nat) : Search :=
  (links.getD source []).foldl (reach source id 1) ⟨List.replicate links.length none, []⟩

theorem follows_near (links : List (List Nat)) (source : Nat) :
    Follows source id 1 (links.getD source []) ⟨List.replicate links.length none, []⟩
      (near links source) := follows_foldl _ _

theorem isSome_near {x : Nat} (h : x ∈ (near links source).frontier) :
    ((near links source).found x).isSome :=
  (follows_near links source).isSome_of_frontier nofun x h

theorem pending_near (links : List (List Nat)) (source : Nat) :
    (near links source).pending ≤ links.length := by
  rw [(follows_near links source).pending, pending, List.count_replicate_self]
  exact Nat.le_of_eq (Nat.zero_add _)

theorem explores_near (links : List (List Nat)) (source : Nat) :
    (near links source).Explores links source (near links source).frontier := by
  have hfound : ∀ {P : Prop} x via,
      (⟨List.replicate links.length none, []⟩ : Search).found x = some via → P := by
    intro P x via hx
    rw [found_replicate] at hx
    cases hx
  have hstart : (⟨List.replicate links.length none, []⟩ : Search).Explores links source [source] :=
    ⟨List.length_replicate, fun x via => hfound x via, fun x hx => .inl (List.mem_singleton.1 hx),
      List.pairwise_singleton .., fun _ _ y via => hfound y via, fun x hx => .inl <| by
        rw [found_replicate] at hx
        exact List.mem_singleton.2 (hx.resolve_right nofun)⟩
  exact hstart.follow hstart.depth_source (follows_near links source) fun y hy hne =>
    ⟨rfl, hne, hy, 0, rfl, .here⟩

end Search

theorem explores_tableOf (links : List (List Nat)) (source : Nat) :
    (⟨tableOf links source, []⟩ : Search).Explores links source [] :=
  (Search.explores_near links source).run (fun _ => Search.isSome_near)
    (Search.pending_near links source)

/-- A node to which links lead has a route, and it is no longer, if nothing nearer waits to be followed. -/
theorem Search.Explores.exists_of_walk {s : Search} {waiting : List Nat}
    (h : s.Explores links source waiting) (hfar : ∀ x ∈ waiting, n ≤ s.depth x)
    (hwalk : Walk links source n node) (hne : node ≠ source) (hlt : node < links.length) :
    ∃ via, s.found node = some via ∧ via.distance ≤ n := by
  induction hwalk with
  | here => exact absurd rfl hne
  | @link n x y hx hy ih =>
    by_cases hsource : x = source
    · subst hsource
      have hwaits : x ∉ waiting := by
        intro hmem
        have hle := hfar x hmem
        rw [h.depth_source] at hle
        omega
      obtain ⟨via, hf, hd⟩ := ((h.settled x (.inl rfl)).resolve_left hwaits) y hy hne hlt
      rw [h.depth_source] at hd
      exact ⟨via, hf, by omega⟩
    · obtain ⟨via, hf, hd⟩ :=
        ih (fun z hz => Nat.le_of_succ_le (hfar z hz)) hsource (lt_of_mem_getD hy)
      have hdepth := Search.depth_eq hf
      have hwaits : x ∉ waiting := by
        intro hmem
        have hle := hfar x hmem
        omega
      have hsettled := h.settled x (.inr (by rw [hf]; rfl))
      obtain ⟨via', hf', hd'⟩ := (hsettled.resolve_left hwaits) y hy hne hlt
      exact ⟨via', hf', by omega⟩

theorem route_eq_found (hsource : source < links.length) (node : Nat) :
    (ofLinks links).route source node = (⟨tableOf links source, []⟩ : Search).found node := by
  rw [route, ofLinks, List.getD_eq_getElem?_getD, List.getElem?_map, List.getElem?_range hsource]
  rfl

theorem lt_of_route {via : Route} (h : (ofLinks links).route source node = some via) :
    source < links.length ∧ node < links.length := by
  have hsource : source < links.length := by
    refine Nat.lt_of_not_le fun hle => ?_
    have hnone : (List.range links.length)[source]? = none := List.getElem?_eq_none (by simpa using hle)
    rw [route, ofLinks, List.getD_eq_getElem?_getD, List.getElem?_map, hnone] at h
    cases h
  refine ⟨hsource, ?_⟩
  rw [route_eq_found hsource] at h
  rw [← (explores_tableOf links source).length]
  exact (List.getElem?_eq_some_iff.1 (Option.join_eq_some_iff.1 h)).1

theorem via_of_route {via : Route} (h : (ofLinks links).route source node = some via) :
    Via links source node via := by
  rw [route_eq_found (lt_of_route h).1] at h
  exact (explores_tableOf links source).via node via h

theorem exists_route_of_walk (h : Walk links source n node) (hne : node ≠ source)
    (hsource : source < links.length) (hlt : node < links.length) :
    ∃ via, (ofLinks links).route source node = some via ∧ via.distance ≤ n := by
  rw [route_eq_found hsource]
  exact (explores_tableOf links source).exists_of_walk nofun h hne hlt

theorem nextHop_eq (r : Routes) (node destination : Nat) :
    r.nextHop node destination = (r.route node destination).map (·.nextHop) := rfl

theorem mem_of_nextHop {hop destination : Nat}
    (h : (ofLinks links).nextHop node destination = some hop) : hop ∈ links.getD node [] := by
  obtain ⟨via, hroute, rfl⟩ := Option.map_eq_some_iff.1 ((nextHop_eq ..).symm.trans h)
  exact (via_of_route hroute).first

/-- The tables of all nodes agree: by its own table, the next hop is one hop nearer. -/
theorem descends_ofLinks (links : List (List Nat)) : (ofLinks links).Descends := by
  intro node destination hop h
  obtain ⟨via, hroute, rfl⟩ := Option.map_eq_some_iff.1 ((nextHop_eq ..).symm.trans h)
  have hvia := via_of_route hroute
  obtain ⟨hnode, hdestination⟩ := lt_of_route hroute
  obtain ⟨n, hn, hrest⟩ := hvia.rest
  refine ⟨n, by rw [hops, if_neg hvia.other.symm, hroute, Option.map_some, hn], ?_⟩
  rw [hops]
  split
  · rename_i he
    -- the destination is a neighbour, so the route to it has one hop
    obtain ⟨via', hroute', hle⟩ :=
      exists_route_of_walk (.link .here (he ▸ hvia.first)) hvia.other hnode hdestination
    obtain rfl := Option.some.inj (hroute.symm.trans hroute')
    rw [hn] at hle
    exact congrArg some (Nat.le_zero.1 (Nat.le_of_succ_le_succ hle)).symm
  · rename_i hne
    have hhop := (nextHop_ofLinks h).2
    obtain ⟨via', hroute', hle⟩ := exists_route_of_walk hrest (Ne.symm hne) hhop hdestination
    -- a shorter way from the neighbour would be a shorter one from the node
    have hwalk := (via_of_route hroute').walk.cons hvia.first
    obtain ⟨via'', hroute'', hle'⟩ := exists_route_of_walk hwalk hvia.other hnode hdestination
    obtain rfl := Option.some.inj (hroute.symm.trans hroute'')
    rw [hn] at hle'
    rw [hroute', Option.map_some, Nat.le_antisymm hle (Nat.le_of_succ_le_succ hle')]

end SlotNet.Routes
