import Mathlib.Algebra.Order.BigOperators.Group.List
import Mathlib.Algebra.Order.Group.Nat
import Mathlib.Data.List.ReduceOption
import SlotNet.Proofs.InOrder
import SlotNet.Proofs.ShortestRoutes
import SlotNet.Proofs.Stranding

/-!
# Packets go the shortest way

The trip of a packet is the nodes to which it comes, beginning with the one that makes it (`Diary.trip`).
Each node of a trip is the next hop of the one before, by the table of that one; since all tables together
descend (`Routes.Descends`), a trip comes to no node twice and has no more hops than the route from its
source (`Routes.Descends.trip`). A packet never waits where it has no way to go, so none is dropped for want
of one (`packets_descend`).

What carries this is that a packet that waits at a node or flies from it has come to that node last
(`Diary.Guided`); for this a packet must be in one place at a time (`Relay.Sound.alone`).
-/

namespace SlotNet

variable {σ : Type}

/-! ## Routes -/

namespace Routes

/-- Routes as searches make them: each hop leads nearer to the destination, and entries stand where they
belong. -/
structure Guides (r : Routes) : Prop where
  descends : r.Descends
  entries : ∀ node, ∀ via ∈ r.entries node, r.route node via.destination = some via

variable {r : Routes} {node destination n : Nat}

theorem guides_ofLinks (links : List (List Nat)) : (ofLinks links).Guides := by
  refine ⟨descends_ofLinks links, fun node via hvia => ?_⟩
  rw [entries, List.reduceOption_mem_iff] at hvia
  obtain ⟨i, hi⟩ := List.mem_iff_getElem?.1 hvia
  have hroute : (ofLinks links).route node i = some via := by
    rw [route, hi]
    rfl
  rw [(via_of_route hroute).destination, hroute]

theorem hops_self (r : Routes) (node : Nat) : r.hops node node = some 0 := if_pos rfl

theorem Descends.ends (h : r.Descends) : r.Ends := by
  intro node
  refine Option.eq_none_iff_forall_ne_some.2 fun hop hhop => ?_
  obtain ⟨n, hn, -⟩ := h node node hop hhop
  rw [hops_self] at hn
  cases hn

theorem isSome_nextHop (h : r.hops node destination = some n) (hne : node ≠ destination) :
    (r.nextHop node destination).isSome := by
  rw [hops, if_neg hne] at h
  obtain ⟨via, hvia, -⟩ := Option.map_eq_some_iff.1 h
  rw [nextHop_eq, hvia]
  rfl

theorem Descends.exists_way (h : r.Descends) (hn : r.hops node destination = some n) :
    ∃ l, r.Way destination node l := by
  induction n generalizing node with
  | zero =>
    by_cases he : node = destination
    · exact ⟨[], he ▸ .arrived⟩
    · obtain ⟨hop, hhop⟩ := Option.isSome_iff_exists.1 (isSome_nextHop hn he)
      obtain ⟨m, hm, -⟩ := h node destination hop hhop
      rw [hn] at hm
      cases hm
  | succ n ih =>
    have hne : node ≠ destination := by
      rintro rfl
      rw [hops_self] at hn
      cases hn
    obtain ⟨hop, hhop⟩ := Option.isSome_iff_exists.1 (isSome_nextHop hn hne)
    obtain ⟨m, hm, hrest⟩ := h node destination hop hhop
    rw [hn] at hm
    cases hm
    obtain ⟨l, hl⟩ := ih hrest
    exact ⟨(node, hop) :: l, .hop hhop hl⟩

/-- Nodes that are each the next hop of the one before are at ever fewer hops from the destination. So none
comes twice, and there are no more of them than hops. -/
theorem Descends.trip (h : r.Descends) {rest : List Nat} (hn : r.hops node destination = some n)
    (hchain : (node :: rest).IsChain fun x y => r.nextHop x destination = some y) :
    (node :: rest).Nodup ∧ rest.length ≤ n ∧
      ∀ x ∈ rest, ∃ k < n, r.hops x destination = some k := by
  induction rest generalizing node n with
  | nil => exact ⟨List.nodup_singleton _, Nat.zero_le _, nofun⟩
  | cons next rest ih =>
    obtain ⟨hnext, hchain⟩ := List.isChain_cons_cons.1 hchain
    obtain ⟨m, hm, hfewer⟩ := h node destination next hnext
    obtain rfl : n = m + 1 := Option.some.inj (hn.symm.trans hm)
    obtain ⟨hnodup, hlength, hall⟩ := ih hfewer hchain
    have hfew : ∀ x ∈ next :: rest, ∃ k < m + 1, r.hops x destination = some k := by
      intro x hx
      rcases List.mem_cons.1 hx with rfl | hx
      · exact ⟨m, Nat.lt_succ_self m, hfewer⟩
      · obtain ⟨k, hk, hx⟩ := hall x hx
        exact ⟨k, hk.trans (Nat.lt_succ_self m), hx⟩
    refine ⟨List.nodup_cons.2 ⟨fun hmem => ?_, hnodup⟩, Nat.succ_le_succ hlength, hfew⟩
    obtain ⟨k, hk, hx⟩ := hfew node hmem
    obtain rfl := Option.some.inj (hn.symm.trans hx)
    exact absurd hk (Nat.lt_irrefl _)

theorem Way.mem_of_leads (hr : r.Ends) {source x y : Nat} {l : List (Nat × Nat)}
    (h : r.Way destination source l) (hx : r.Leads destination source x)
    (hnext : r.nextHop x destination = some y) : (x, y) ∈ l := by
  obtain ⟨before, rest, rfl, hrest⟩ := h.split hr hx
  cases hrest with
  | arrived =>
    rw [hr] at hnext
    cases hnext
  | hop hnext' _ =>
    obtain rfl := Option.some.inj (hnext.symm.trans hnext')
    exact List.mem_append_right _ (.head _)

end Routes

/-! ## One place at a time -/

namespace Relay

variable {r : Routes} {b : Relay} {p : Packet} {l : List (Nat × Nat)} {x y : Nat}

theorem count_contents (b : Relay) (p : Packet) (l : List (Nat × Nat)) : (b.contents l).count p =
    (l.map fun hop => (b.flying hop).count p + (b.waiting hop.1).count p).sum := by
  induction l with
  | nil => rfl
  | cons hop l ih =>
    rw [contents, List.count_append, List.count_append, ih, List.map_cons, List.sum_cons,
      Nat.add_comm]

theorem Sound.count_le_one (hb : b.Sound r) (hl : r.Way p.destination p.source l) :
    (b.contents l).count p ≤ 1 := by
  have hmade : b.made.Nodup := hb.rising.imp fun hlt he => by
    rw [he] at hlt
    exact absurd hlt.1 (Nat.lt_irrefl _)
  have horder := (List.sublist_append_right _ _).trans
    (Packet.between_append ▸ hb.order _ _ l hl)
  have hle := horder.count_le p
  rw [Packet.between, List.count_filter (by simp)] at hle
  exact hle.trans (List.nodup_iff_count_le_one.1 (hmade.filter _) p)

/-- A packet that flies is in no other place where it could go on. -/
theorem Sound.alone (hr : r.Ends) (hb : b.Sound r) (hl : r.Way p.destination p.source l)
    (hp : p ∈ b.flying (x, y)) : (b.flying (x, y)).count p = 1 ∧
      (∀ hop, hop ≠ (x, y) → p ∉ b.flying hop) ∧
      ∀ k, (r.nextHop k p.destination).isSome → p ∉ b.waiting k := by
  obtain ⟨hx, hnext⟩ := hb.flying x y p hp
  have hmem := hl.mem_of_leads hr hx hnext
  have hsum := hb.count_le_one hl
  rw [count_contents, ((List.perm_cons_erase hmem).map _).sum_eq, List.map_cons,
    List.sum_cons] at hsum
  have hone := List.count_pos_iff.2 hp
  -- nothing is left for the other hops of the way
  have hothers : ∀ hop ∈ l, hop ≠ (x, y) →
      (b.flying hop).count p + (b.waiting hop.1).count p = 0 := by
    intro hop hhop hne
    have hle := List.single_le_sum (fun _ _ => Nat.zero_le _) _
      (List.mem_map_of_mem (f := fun hop => (b.flying hop).count p + (b.waiting hop.1).count p)
        ((List.mem_erase_of_ne hne).2 hhop))
    omega
  refine ⟨by omega, fun hop hne hother => ?_, fun k hk hother => ?_⟩
  · obtain ⟨hx', hnext'⟩ := hb.flying hop.1 hop.2 p hother
    have hzero := hothers hop (hl.mem_of_leads hr hx' hnext') hne
    have hpos := List.count_pos_iff.2 hother
    omega
  · obtain ⟨k', hk'⟩ := Option.isSome_iff_exists.1 hk
    have hpos := List.count_pos_iff.2 hother
    by_cases he : (k, k') = (x, y)
    · obtain rfl : k = x := congrArg Prod.fst he
      dsimp only at hsum
      omega
    · have hzero := hothers (k, k') (hl.mem_of_leads hr (hb.waiting k p hother) hk') he
      dsimp only at hzero
      omega

end Relay

/-! ## What an event does with packets -/

namespace Network

open Relay (Loses Gives Gets)

/-- The packets that a station takes, and its node. -/
def taken : Event → Handled → List (Nat × Packet)
  | .deliver receiver frame, .received what => if what.isTaken then [(receiver, frame.packet)] else []
  | _, _ => []

/-- The packets that come to a node with an event, made there or taken. -/
def visits (n : Network) (event : Event) (handled : Handled) : List (Nat × Packet) :=
  (n.made event handled).map (fun p => (p.source, p)) ++ taken event handled

/-- With an event, packets come to wait where they are made or taken, on ways that go on; and they set off
from where they waited. -/
structure Moves (n : Network) (event : Event) (handled : Handled) (n' : Network) : Prop where
  waiting : ∀ k, ∀ p ∈ n'.waiting k, p ∈ n.waiting k ∨ (k, p) ∈ n.visits event handled
  flying : ∀ x y, ∀ p ∈ n'.medium.flying (x, y), p ∈ n.medium.flying (x, y) ∨ p ∈ n.waiting x
  made : ∀ p ∈ n.made event handled, (n.medium.routes.nextHop p.source p.destination).isSome
  taken : ∀ q ∈ taken event handled, ∃ x, event.cargo (x, q.1) = some q.2
  goesOn : ∀ k, ∀ p ∈ n'.waiting k, p ∈ n.waiting k ∨ k ≠ p.destination

variable {nodes node : Nat} {n n' : Network} {event : Event} {handled : Handled}

theorem Carries.moves (h : Carries nodes n n') (hmade : n.made event handled = [])
    (htaken : taken event handled = []) : n.Moves event handled n' where
  waiting k p hp := .inl (h.departs.waiting k p hp)
  flying := h.departs.flying
  made := by
    rw [hmade]
    exact nofun
  taken := by
    rw [htaken]
    exact nofun
  goesOn k p hp := .inl (h.departs.waiting k p hp)

theorem receive_moves (hn : n.Ready nodes) {s s' : Station} {m : Medium} {frame : Frame}
    (hs : n.stations[node]? = some s) (hf : frame.Sane) {what : Received}
    (h : s.receive n.medium frame = .ok (s', m, what)) :
    n.Moves (.deliver node frame) (.received what) { n with
      stations := n.stations.set node s'
      medium := m } := by
  have hfit := hn.manned node s hs
  have hnode := hn.lt hs
  have hfew := hn.few
  obtain ⟨⟨stats, rfl⟩, hcases⟩ := Station.receive_cases hfit hf h
  have htaken : ∀ q ∈ taken (.deliver node frame) (.received what),
      what.isTaken = true ∧ q = (node, frame.packet) := by
    intro q hq
    rw [taken] at hq
    split at hq
    · exact ⟨‹_›, List.mem_singleton.1 hq⟩
    · cases hq
  have hmember : what.isTaken = true →
      (node, frame.packet) ∈ n.visits (.deliver node frame) (.received what) := by
    intro hwhat
    rw [visits, taken, if_pos hwhat]
    exact List.mem_append_right _ (.head _)
  have hwaiting : ∀ k, ∀ p ∈ Network.waiting { n with
      stations := n.stations.set node s'
      medium := { n.medium with stats } } k, p ∈ n.waiting k ∨
        (what.isTaken = true ∧ k = node ∧ p = frame.packet ∧ frame.destination ≠ node) := by
    intro k p hp
    rcases hcases with ⟨-, hsame⟩ | ⟨hwhat, -, -, ⟨-, -, hsame⟩ | ⟨-, hdestination, hlast⟩⟩
    · exact .inl ((loses_set hs rfl (hsame ▸ .refl _) k).subset hp)
    · exact .inl ((loses_set hs rfl (hsame ▸ .refl _) k).subset hp)
    · exact ((gets_set hs rfl hlast).mem hp).imp_right fun ⟨hk, hp⟩ => ⟨hwhat, hk, hp, hdestination⟩
  refine ⟨fun k p hp => ?_, fun x y p hp => .inl hp, nofun, fun q hq => ?_, fun k p hp => ?_⟩
  · refine (hwaiting k p hp).imp_right ?_
    rintro ⟨hwhat, rfl, rfl, -⟩
    exact hmember hwhat
  · obtain ⟨hwhat, rfl⟩ := htaken q hq
    rcases hcases with ⟨hleft, -⟩ | ⟨-, hdata, hreceiver, -⟩
    · rw [hleft] at hwhat
      cases hwhat
    · have hmine : frame.receiver.node = node := by
        rw [hreceiver, Address.node_ofNode (by omega)]
      exact ⟨frame.transmitter.node, Event.cargo_eq_some.2 ⟨frame, rfl, hdata, hmine, rfl, rfl⟩⟩
  · refine (hwaiting k p hp).imp_right ?_
    rintro ⟨-, rfl, rfl, hne⟩
    exact hne.symm

theorem deliver_moves (hn : n.Ready nodes) {frame : Frame} (hf : frame.Sane)
    (h : n.deliver node frame = .ok (n', handled)) : n.Moves (.deliver node frame) handled n' := by
  rcases deliver_cases h with ⟨rfl, rfl, -⟩ | ⟨s, s', m, what, hs, ha, hwhat⟩
  · exact Carries.moves (.refl hn) rfl rfl
  have hreceived := receive_moves hn hs hf ha
  rcases hwhat with ⟨content, result, rfl, rfl, hmerge⟩ | ⟨rfl, rfl⟩
  · -- what the controller knows is no matter of packets
    obtain ⟨-, stats, -, rfl⟩ := merge_cases hmerge
    exact ⟨hreceived.waiting, hreceived.flying, nofun, nofun, hreceived.goesOn⟩
  · exact hreceived

theorem arrive_moves (hn : n.Ready nodes) (hr : n.medium.routes.Guides)
    (h : n.arrive node = .ok (n', handled)) : n.Moves (.arrival node) handled n' := by
  rcases arrive_cases h with ⟨rfl, rfl⟩ | ⟨s, s', m, t, destination, hs, ha, rfl, rfl⟩
  · exact Carries.moves (.refl hn) rfl rfl
  have hfit := hn.manned node s hs
  obtain ⟨m₁, h3, h4⟩ := Traffic.arrive_cases ha
  have hfirst : (∀ hop, m₁.flying hop = n.medium.flying hop) ∧ m₁.nextUid = n.medium.nextUid ∧
      m₁.now = n.now := by
    rcases h3 with rfl | ⟨gap, -, h3⟩
    · exact ⟨fun _ => rfl, rfl, rfl⟩
    · refine ⟨(hn.prompt.schedule rfl h3).2, ?_⟩
      rw [Medium.schedule_ok h3]
      exact ⟨rfl, rfl⟩
  obtain ⟨hflying, huid, hnow⟩ := hfirst
  rcases h4 with ⟨rfl, rfl, rfl⟩ | ⟨d, stats, result, rfl, -, hsend⟩
  · refine ⟨fun k p hp => .inl ?_, fun x y p hp => .inl ?_, nofun, nofun, fun k p hp => .inl ?_⟩
    · exact (loses_set hs rfl (.refl _) k).subset hp
    · exact hflying (x, y) ▸ hp
    · exact (loses_set hs rfl (.refl _) k).subset hp
  · obtain ⟨hlast, stats', rfl⟩ := Station.send_waiting hsend
    have hmade : n.made (.arrival node) (.arrived (some d)) =
        [s.made { m₁ with stats } d n.traffic.packetSize] := by
      show _ = [(⟨m₁.nextUid, s.node, d, m₁.now, n.traffic.packetSize⟩ : Packet)]
      rw [huid, hnow, hfit.node_eq]
      rfl
    have hway : (n.medium.routes.nextHop node d).isSome := by
      obtain ⟨route, hroute, rfl⟩ := Traffic.arrive_destination ha
      rw [Routes.nextHop_eq, hr.entries node route hroute]
      rfl
    have hne : node ≠ d := by
      rintro rfl
      rw [hr.descends.ends] at hway
      cases hway
    have hgets : Gets node (s.made { m₁ with stats } d n.traffic.packetSize) n.waiting
        (Network.waiting { n with
          stations := n.stations.set node s'
          medium := { ({ m₁ with stats } : Medium).takeUid.2 with stats := stats' }
          traffic := t }) := gets_set hs rfl hlast
    refine ⟨fun k p hp => ?_, fun x y p hp => .inl (hflying (x, y) ▸ hp), fun p hp => ?_, nofun,
      fun k p hp => ?_⟩
    · refine (hgets.mem hp).imp_right ?_
      rintro ⟨rfl, rfl⟩
      rw [visits, hmade]
      exact List.mem_append_left _ (List.mem_map.2 ⟨_, .head _, by rw [Station.made, hfit.node_eq]⟩)
    · rw [hmade, List.mem_singleton] at hp
      rw [hp]
      show (n.medium.routes.nextHop s.node d).isSome
      rw [hfit.node_eq]
      exact hway
    · refine (hgets.mem hp).imp_right ?_
      rintro ⟨rfl, rfl⟩
      exact hne

theorem handle_moves (hn : n.Ready nodes) (hr : n.medium.routes.Guides) (he : event.Sane)
    (h : n.handle event = .ok (n', handled)) : n.Moves event handled n' := by
  cases event with
  | startFrame =>
    obtain ⟨⟨n₁, grants⟩, h1, h⟩ := Fault.map_eq_ok.1 h
    cases h
    exact (runFrame_carries hn h1).moves rfl rfl
  | runSlot slot =>
    obtain ⟨⟨n₁, grants⟩, h1, h⟩ := Fault.map_eq_ok.1 h
    cases h
    exact (runSlot_carries hn h1).moves rfl rfl
  | continueSlot node slotEnd control => exact (continueSlot_carries hn h).moves rfl rfl
  | deliver receiver frame => exact deliver_moves hn he h
  | envStep =>
    cases h
    exact Carries.moves (.refl hn) rfl rfl
  | arrival node => exact arrive_moves hn hr h

theorem visits_subsingleton (n : Network) (event : Event) (handled : Handled) :
    n.visits event handled = [] ∨ ∃ q, n.visits event handled = [q] := by
  cases event with
  | deliver receiver frame =>
    cases handled with
    | received what =>
      rw [visits, taken]
      split
      · exact .inr ⟨_, rfl⟩
      · exact .inl rfl
    | _ => exact .inl rfl
  | arrival node =>
    cases handled with
    | arrived destination =>
      cases destination with
      | none => exact .inl rfl
      | some d => exact .inr ⟨_, rfl⟩
    | _ => exact .inl rfl
  | _ => exact .inl rfl

theorem guides_ofConfig {c : Config} {stations : Nat} (h : ofConfig c stations = .ok n) :
    n.medium.routes.Guides := by
  obtain ⟨positions, -, h⟩ := Fault.bind_eq_ok.1 h
  obtain ⟨controller, -, h⟩ := Fault.bind_eq_ok.1 h
  cases h
  exact Routes.guides_ofLinks _

end Network

/-! ## Trips -/

namespace Diary

open Network (Carries Moves)

/-- Which packet came to which node, made there or taken, in order. -/
def visits (d : Diary σ) : List (Nat × Packet) :=
  d.deeds.flatMap fun x => x.before.visits x.event x.handled

/-- The nodes to which a packet came, in order. -/
def trip (d : Diary σ) (p : Packet) : List Nat := (d.visits.filter (·.2 = p)).map Prod.fst

/-- Packets wait where they have a way to go, each goes from next hop to next hop, and where it waits or flies
from it has come last. -/
structure Guided (c : Config) (d : Diary σ) : Prop where
  kept : d.Kept c
  routes : d.watch.medium.routes.Guides
  guided : d.watch.network.Guided
  known : ∀ p ∈ d.made, (d.watch.medium.routes.nextHop p.source p.destination).isSome
  made : ∀ q ∈ d.visits, q.2 ∈ d.made
  first : ∀ p ∈ d.made, (d.trip p).head? = some p.source
  chain : ∀ p ∈ d.made,
    (d.trip p).IsChain fun x y => d.watch.medium.routes.nextHop x p.destination = some y
  waiting : ∀ x, ∀ p ∈ d.watch.network.waiting x, (d.trip p).getLast? = some x
  flying : ∀ x y, ∀ p ∈ d.watch.medium.flying (x, y), (d.trip p).getLast? = some x
  noRoute : d.watch.medium.stats.noRouteDrops = 0

variable {c : Config} {d d' : Diary σ} {e : Entry Event} {s : Simulation σ} {x : Deed} {p : Packet}

theorem Handles.visits_eq (h : d.Handles e s x d') :
    d'.visits = d.visits ++ s.network.visits e.event x.handled := by
  rw [visits, h.deeds, List.flatMap_append, List.flatMap_singleton, h.before, h.event, visits]

theorem Handles.waiting_eq (h : d.Handles e s x d') (k : Nat) :
    s.network.waiting k = d.watch.network.waiting k := by
  rw [Network.waiting, h.watch.stations, Network.waiting]

theorem Handles.routes_eq (h : d.Handles e s x d') :
    s.network.medium.routes = d.watch.medium.routes := by
  rw [h.watch.medium]

theorem Kept.not_made (hd : d.Kept c) (h : d.Handles e s x d')
    (hp : p ∈ s.network.made e.event x.handled) : p ∉ d.made := by
  intro hold
  have hle := (Network.uid_made s.network e.event x.handled).2 p hp
  rw [show s.network.medium.nextUid = d.watch.medium.nextUid by rw [h.watch.medium]] at hle
  exact absurd (hd.past p hold).1 (Nat.not_lt_of_le hle)

theorem Handles.trip_of_not_mem (h : d.Handles e s x d')
    (hp : ∀ q ∈ s.network.visits e.event x.handled, q.2 ≠ p) : d'.trip p = d.trip p := by
  have hnone : (s.network.visits e.event x.handled).filter (·.2 = p) = [] :=
    List.filter_eq_nil_iff.2 fun q hq he => hp q hq (of_decide_eq_true he)
  rw [trip, h.visits_eq, List.filter_append, hnone, List.append_nil, trip]

theorem Handles.trip_of_mem (h : d.Handles e s x d') {k : Nat}
    (hp : (k, p) ∈ s.network.visits e.event x.handled) : d'.trip p = d.trip p ++ [k] := by
  rcases s.network.visits_subsingleton e.event x.handled with hnone | ⟨q, hq⟩
  · rw [hnone] at hp
    cases hp
  · rw [hq, List.mem_singleton] at hp
    rw [trip, h.visits_eq, hq, ← hp, List.filter_append, List.map_append, trip]
    simp

theorem Guided.mem_made (hd : d.Guided c) {k : Nat} (h : (d.trip p).getLast? = some k) :
    p ∈ d.made := by
  obtain ⟨q, hq, -⟩ := List.mem_map.1 (List.mem_of_getLast? h)
  obtain ⟨hq, he⟩ := List.mem_filter.1 hq
  exact of_decide_eq_true he ▸ hd.made q hq

theorem Guided.exists_way (hd : d.Guided c) (hp : p ∈ d.made) :
    ∃ l, d.watch.medium.routes.Way p.destination p.source l := by
  obtain ⟨hop, hhop⟩ := Option.isSome_iff_exists.1 (hd.known p hp)
  obtain ⟨n, hn, -⟩ := hd.routes.descends _ _ _ hhop
  exact hd.routes.descends.exists_way hn

theorem Guided.before (hd : d.Guided c) (h : d.Handles e s x d') : s.network.Guided := by
  intro k p hp
  rw [h.routes_eq]
  exact hd.guided k p (h.waiting_eq k ▸ hp)

theorem Handles.mem_flying (h : d.Handles e s x d') {hop : Nat × Nat}
    (hp : p ∈ s.network.medium.flying hop) : p ∈ d.watch.medium.flying hop := by
  rw [h.flying]
  exact List.mem_append_right _ hp

theorem Handles.mem_flying_of_cargo (h : d.Handles e s x d') {hop : Nat × Nat}
    (hp : e.event.cargo hop = some p) : p ∈ d.watch.medium.flying hop := by
  rw [h.flying, hp]
  exact List.mem_append_left _ (.head _)

theorem Guided.fresh (hd : d.Guided c) (h : d.Handles e s x d')
    (hmoves : Moves s.network e.event x.handled x.after) {k : Nat}
    (hp : (k, p) ∈ s.network.visits e.event x.handled) :
    (∀ j, p ∉ d.watch.network.waiting j) ∧ ∀ hop, p ∉ s.network.medium.flying hop := by
  rcases List.mem_append.1 hp with hp | hp
  · obtain ⟨q, hq, he⟩ := List.mem_map.1 hp
    obtain rfl : q = p := congrArg Prod.snd he
    have hother := hd.kept.not_made h hq
    exact ⟨fun j hj => hother (hd.mem_made (hd.waiting j q hj)),
      fun hop hf => hother (hd.mem_made (hd.flying hop.1 hop.2 q (h.mem_flying hf)))⟩
  · obtain ⟨u, hcargo⟩ := hmoves.taken (k, p) hp
    have hflies := h.mem_flying_of_cargo hcargo
    obtain ⟨l, hl⟩ := hd.exists_way (hd.mem_made (hd.flying u k p hflies))
    obtain ⟨hone, hothers, hwaiting⟩ := hd.kept.sound.alone hd.kept.ends hl hflies
    refine ⟨fun j hj => hwaiting j (hd.guided j p hj) hj, fun hop hf => ?_⟩
    by_cases hhop : hop = (u, k)
    · subst hhop
      have hcount : (d.watch.medium.flying (u, k)).count p = 1 := hone
      rw [h.flying, hcargo, Option.toList_some, List.singleton_append, List.count_cons_self] at hcount
      have hpos := List.count_pos_iff.2 hf
      omega
    · exact hothers hop hhop (h.mem_flying hf)

theorem Guided.nextHop_of_taken (hd : d.Guided c) (h : d.Handles e s x d') {u k : Nat}
    (hcargo : e.event.cargo (u, k) = some p) : p ∈ d.made ∧ (d.trip p).getLast? = some u ∧
      d.watch.medium.routes.nextHop u p.destination = some k := by
  have hflies := h.mem_flying_of_cargo hcargo
  have hlast := hd.flying u k p hflies
  exact ⟨hd.mem_made hlast, hlast, (hd.kept.sound.flying u k p hflies).2⟩

theorem Guided.last_of_waiting (hd : d.Guided c) (h : d.Handles e s x d')
    (hmoves : Moves s.network e.event x.handled x.after) {k : Nat} (hp : p ∈ x.after.waiting k) :
    (d'.trip p).getLast? = some k := by
  rcases hmoves.waiting k p hp with hold | hnew
  · rw [h.waiting_eq] at hold
    rw [h.trip_of_not_mem fun q hq he => (hd.fresh h hmoves hq).1 k (he ▸ hold)]
    exact hd.waiting k p hold
  · rw [h.trip_of_mem hnew]
    exact List.getLast?_concat ..

theorem Guided.last_of_flying (hd : d.Guided c) (h : d.Handles e s x d')
    (hmoves : Moves s.network e.event x.handled x.after) {u v : Nat}
    (hp : p ∈ x.after.medium.flying (u, v)) : (d'.trip p).getLast? = some u := by
  rcases hmoves.flying u v p hp with hold | hold
  · rw [h.trip_of_not_mem fun q hq he => (hd.fresh h hmoves hq).2 (u, v) (he ▸ hold)]
    exact hd.flying u v p (h.mem_flying hold)
  · rw [h.waiting_eq] at hold
    rw [h.trip_of_not_mem fun q hq he => (hd.fresh h hmoves hq).1 u (he ▸ hold)]
    exact hd.waiting u p hold

theorem Guided.isSome_of_waiting (hd : d.Guided c) (h : d.Handles e s x d')
    (hmoves : Moves s.network e.event x.handled x.after) {k : Nat} (hp : p ∈ x.after.waiting k) :
    (d.watch.medium.routes.nextHop k p.destination).isSome := by
  rcases hmoves.waiting k p hp with hold | hnew
  · exact hd.guided k p (h.waiting_eq k ▸ hold)
  rcases List.mem_append.1 hnew with hnew | hnew
  · obtain ⟨q, hq, he⟩ := List.mem_map.1 hnew
    cases he
    have hway := hmoves.made p hq
    rwa [h.routes_eq] at hway
  · rcases hmoves.goesOn k p hp with hold | hne
    · exact hd.guided k p (h.waiting_eq k ▸ hold)
    · -- the node is the next hop of the one before, so it is nearer and knows the number of hops
      obtain ⟨u, hcargo⟩ := hmoves.taken (k, p) hnew
      obtain ⟨-, -, hnext⟩ := hd.nextHop_of_taken h hcargo
      obtain ⟨n, -, hn⟩ := hd.routes.descends _ _ _ hnext
      exact Routes.isSome_nextHop hn hne

/-- A packet that was made has come to the next node of its trip, or it is new, or nothing has happened to
it. -/
theorem Guided.trip_cases (hd : d.Guided c) (h : d.Handles e s x d')
    (hmoves : Moves s.network e.event x.handled x.after) (hp : p ∈ d'.made) :
    (p ∈ d.made ∧ d'.trip p = d.trip p) ∨
      (∃ u k, p ∈ d.made ∧ (d.trip p).getLast? = some u ∧
        d.watch.medium.routes.nextHop u p.destination = some k ∧ d'.trip p = d.trip p ++ [k]) ∨
      d'.trip p = [p.source] := by
  rw [h.made_eq] at hp
  rcases List.mem_append.1 hp with hold | hnew
  · by_cases hq : ∃ q ∈ s.network.visits e.event x.handled, q.2 = p
    · obtain ⟨⟨k, q⟩, hq, rfl⟩ := hq
      refine .inr (.inl ?_)
      rcases List.mem_append.1 hq with hmade | htaken
      · obtain ⟨q', hq', he⟩ := List.mem_map.1 hmade
        cases he
        exact absurd hold (hd.kept.not_made h hq')
      · obtain ⟨u, hcargo⟩ := hmoves.taken (k, q) htaken
        obtain ⟨hmade, hlast, hnext⟩ := hd.nextHop_of_taken h hcargo
        exact ⟨u, k, hmade, hlast, hnext, h.trip_of_mem hq⟩
    · exact .inl ⟨hold, h.trip_of_not_mem fun q hm he => hq ⟨q, hm, he⟩⟩
  · have hvisit : (p.source, p) ∈ s.network.visits e.event x.handled :=
      List.mem_append_left _ (List.mem_map.2 ⟨p, hnew, rfl⟩)
    have hnil : d.trip p = [] := by
      refine List.map_eq_nil_iff.2 (List.filter_eq_nil_iff.2 fun q hq he => ?_)
      exact hd.kept.not_made h hnew (of_decide_eq_true he ▸ hd.made q hq)
    exact .inr (.inr (by rw [h.trip_of_mem hvisit, hnil, List.nil_append]))

/-! ## Runs -/

theorem Guided.handles (hc : c.Accepted) (hd : d.Guided c) (h : d.Handles e s x d') : d'.Guided c := by
  have hready := hd.kept.ready_of_handles h
  have hsane := hd.kept.regular.onTime.traced.sane e h.watch.mem
  have hguides : s.network.medium.routes.Guides := h.routes_eq ▸ hd.routes
  have hrelays := Network.handle_relays hready hsane h.handle
  have hmoves := Network.handle_moves hready hguides hsane h.handle
  obtain ⟨hcarries, -⟩ := hd.kept.carries hc h hrelays.ready
  have hroutes : d'.watch.medium.routes = d.watch.medium.routes :=
    (hcarries.routes.trans hrelays.routes).trans h.routes_eq
  refine ⟨hd.kept.handles hc h, hroutes ▸ hd.routes, fun k p hp => ?guided, fun p hp => ?known,
    fun q hq => ?made, fun p hp => ?first, fun p hp => ?chain, fun k p hp => ?waiting,
    fun u v p hp => ?flying, ?noRoute⟩
  case guided =>
    show (d'.watch.medium.routes.nextHop k p.destination).isSome
    rw [hroutes]
    exact hd.isSome_of_waiting h hmoves (hcarries.departs.waiting k p hp)
  case known =>
    rw [hroutes]
    rw [h.made_eq] at hp
    rcases List.mem_append.1 hp with hp | hp
    · exact hd.known p hp
    · exact h.routes_eq ▸ hmoves.made p hp
  case made =>
    rw [h.visits_eq] at hq
    rw [h.made_eq]
    rcases List.mem_append.1 hq with hq | hq
    · exact List.mem_append_left _ (hd.made q hq)
    rcases List.mem_append.1 hq with hq | hq
    · obtain ⟨p, hp, rfl⟩ := List.mem_map.1 hq
      exact List.mem_append_right _ hp
    · obtain ⟨u, hcargo⟩ := hmoves.taken q hq
      exact List.mem_append_left _ (hd.nextHop_of_taken h hcargo).1
  case first =>
    rcases hd.trip_cases h hmoves hp with ⟨hold, hsame⟩ | ⟨u, k, hold, -, -, hmore⟩ | hnew
    · rw [hsame]
      exact hd.first p hold
    · rw [hmore, List.head?_append, hd.first p hold]
      rfl
    · rw [hnew]
      rfl
  case chain =>
    rw [hroutes]
    rcases hd.trip_cases h hmoves hp with ⟨hold, hsame⟩ | ⟨u, k, hold, hlast, hnext, hmore⟩ | hnew
    · rw [hsame]
      exact hd.chain p hold
    · rw [hmore]
      refine List.isChain_append.2 ⟨hd.chain p hold, List.isChain_singleton _, fun a ha b hb => ?_⟩
      rw [hlast] at ha
      cases ha
      cases hb
      exact hnext
    · rw [hnew]
      exact List.isChain_singleton _
  case waiting => exact hd.last_of_waiting h hmoves (hcarries.departs.waiting k p hp)
  case flying =>
    rcases hcarries.departs.flying u v p hp with hp | hp
    · exact hd.last_of_flying h hmoves hp
    · exact hd.last_of_waiting h hmoves hp
  case noRoute =>
    have hguided := hd.before h
    have hstats : s.network.medium.stats = d.watch.medium.stats := by rw [h.watch.medium]
    have hhandle := Network.handle_noRouteDrops hready hguided h.handle
    have hdispatch := Simulation.dispatch_noRouteDrops h.watch.dispatch h.handle
    exact (hdispatch.trans hhandle).trans (hstats ▸ hd.noRoute)

theorem Guided.idles (hd : d.Guided c) (h : d.watch.Idles d'.watch) (hdeeds : d'.deeds = d.deeds) :
    d'.Guided c := by
  have hcarries := hd.kept.carries_of_idles h
  have hroutes : d'.watch.medium.routes = d.watch.medium.routes := hcarries.routes
  have hmade := made_of_idles hdeeds
  have hvisits : d'.visits = d.visits := by rw [visits, hdeeds, visits]
  have htrip : ∀ p, d'.trip p = d.trip p := fun p => by rw [trip, hvisits, trip]
  refine ⟨hd.kept.idles h hdeeds, hroutes ▸ hd.routes, hd.guided.departs hcarries.departs hroutes,
    ?_, ?_, fun p hp => ?_, fun p hp => ?_, fun k p hp => ?_, fun u v p hp => ?_, ?_⟩
  · rw [hmade, hroutes]
    exact hd.known
  · rw [hmade, hvisits]
    exact hd.made
  · rw [htrip]
    exact hd.first p (hmade ▸ hp)
  · rw [htrip, hroutes]
    exact hd.chain p (hmade ▸ hp)
  · rw [htrip]
    exact hd.waiting k p (hcarries.departs.waiting k p hp)
  · rw [htrip]
    rcases hcarries.departs.flying u v p hp with hp | hp
    · exact hd.flying u v p hp
    · exact hd.waiting u p hp
  · rw [h.medium]
    exact hd.noRoute

theorem Guided.step (hc : c.Accepted) (hd : d.Guided c) {a : Watch.Act} (h : d.step a = some d') :
    d'.Guided c := by
  rcases step_cases hd.kept.ready.prompt.ordered h with ⟨e, s, x, hh⟩ | ⟨hidle, hdeeds⟩
  · exact hd.handles hc hh
  · exact hd.idles hidle hdeeds

theorem Guided.start (hc : c.Accepted) {agent : Agent σ} {agentState : σ} {s' : Simulation σ}
    (hnew : Simulation.new c agent agentState = .ok s) (h : s.begin = .ok s') :
    (start s').Guided c := by
  obtain ⟨-, -, hvacant, hnone⟩ := vacant_of_new hc hnew
  have hcarries := carries_of_begin hc hnew h
  have hroutes : s'.network.medium.routes.Guides := by
    rw [hcarries.routes]
    obtain ⟨network, hn, rfl⟩ := Fault.map_eq_ok.1 hnew
    exact Network.guides_ofConfig hn
  have hwaiting : ∀ k p, p ∉ s'.network.waiting k := by
    intro k p hp
    have hp := hcarries.departs.waiting k p hp
    rw [hvacant] at hp
    cases hp
  have hflying : ∀ u v p, p ∉ s'.network.medium.flying (u, v) := by
    intro u v p hp
    rcases hcarries.departs.flying u v p hp with hp | hp
    · rw [hnone] at hp
      cases hp
    · rw [hvacant] at hp
      cases hp
  refine ⟨.start hc hnew h, hroutes, fun k p hp => absurd hp (hwaiting k p), nofun, nofun, nofun, nofun,
    fun k p hp => absurd hp (hwaiting k p), fun u v p hp => absurd hp (hflying u v p), ?_⟩
  have hstats := (Simulation.still_of_new hnew).stats
  refine (Simulation.begin_noRouteDrops h).trans ?_
  rw [hstats]

/-- In every state of a run, whatever the agent answers and whenever packets arrive: each hop leads one hop
nearer to the destination by the tables of both its nodes; a packet that waits at a node has a next hop
there, and has come to that node last; the trip of a packet begins where it was made and goes from next hop
to next hop, comes to no node twice, and has no more hops than the route from its source; and no packet
was dropped for want of a route. -/
theorem packets_descend (hc : c.Accepted) {agent : Agent σ} {agentState : σ} {s' : Simulation σ}
    (hnew : Simulation.new c agent agentState = .ok s) (hbegin : s.begin = .ok s')
    {acts : List Watch.Act} (hrun : run acts (start s') = some d) :
    d.watch.medium.routes.Descends ∧
      (∀ node, ∀ p ∈ d.watch.network.waiting node,
        (d.watch.medium.routes.nextHop node p.destination).isSome ∧
          (d.trip p).getLast? = some node) ∧
      (∀ p ∈ d.made, (d.trip p).head? = some p.source ∧
        ((d.trip p).IsChain fun x y => d.watch.medium.routes.nextHop x p.destination = some y) ∧
        (d.trip p).Nodup ∧ ∃ n, d.watch.medium.routes.hops p.source p.destination = some n ∧
          (d.trip p).length ≤ n + 1) ∧
      d.watch.medium.stats.noRouteDrops = 0 := by
  have hd : d.Guided c :=
    Acts.run_induction (fun _ _ _ _ hd hstep => hd.step hc hstep) (.start hc hnew hbegin) hrun
  refine ⟨hd.routes.descends, fun node p hp => ⟨hd.guided node p hp, hd.waiting node p hp⟩,
    fun p hp => ⟨hd.first p hp, hd.chain p hp, ?_⟩, hd.noRoute⟩
  obtain ⟨hop, hhop⟩ := Option.isSome_iff_exists.1 (hd.known p hp)
  obtain ⟨n, hn, -⟩ := hd.routes.descends _ _ _ hhop
  obtain ⟨rest, hrest⟩ := List.head?_eq_some_iff.1 (hd.first p hp)
  have hchain := hd.chain p hp
  rw [hrest] at hchain ⊢
  obtain ⟨hnodup, hlength, -⟩ := hd.routes.descends.trip hn hchain
  exact ⟨hnodup, n + 1, hn, Nat.succ_le_succ hlength⟩

theorem run_trips : ∃ s s',
    Simulation.new chain (.forNodes [some [0], some [1], some []]) Script.silence = .ok s ∧
    s.begin = .ok s' ∧
    (run fourPackets (start s')).map (fun d => (d.made.map fun p => (p.uid, p.destination),
        d.made.map d.trip, d.watch.medium.routes.hops 0 2))
      = some ([(0, 2), (1, 1), (2, 2), (3, 1)], [[0, 1, 2], [0, 1], [0, 1, 2], [0]], some 2) :=
  ⟨_, _, rfl, rfl, by decide +kernel⟩

/-- Two packets go over the middle node to the last one, which is two hops away; the one that is lost for
want of room has come nowhere but to its source. -/
theorem packets_descend_chain : ∃ s s' d,
    Simulation.new chain (.forNodes [some [0], some [1], some []]) Script.silence = .ok s ∧
    s.begin = .ok s' ∧ run fourPackets (start s') = some d ∧
    d.made.map (fun p => (p.uid, p.destination)) = [(0, 2), (1, 1), (2, 2), (3, 1)] ∧
    d.made.map d.trip = [[0, 1, 2], [0, 1], [0, 1, 2], [0]] ∧
    d.watch.medium.routes.hops 0 2 = some 2 ∧
    d.watch.medium.routes.Descends ∧
    (∀ node, ∀ p ∈ d.watch.network.waiting node,
      (d.watch.medium.routes.nextHop node p.destination).isSome ∧
        (d.trip p).getLast? = some node) ∧
    (∀ p ∈ d.made, (d.trip p).head? = some p.source ∧
      ((d.trip p).IsChain fun x y => d.watch.medium.routes.nextHop x p.destination = some y) ∧
      (d.trip p).Nodup ∧ ∃ n, d.watch.medium.routes.hops p.source p.destination = some n ∧
        (d.trip p).length ≤ n + 1) ∧
    d.watch.medium.stats.noRouteDrops = 0 := by
  obtain ⟨s, s', hnew, hbegin, hrun⟩ := run_trips
  obtain ⟨d, hd, hv⟩ := Option.map_eq_some_iff.1 hrun
  simp only [Prod.mk.injEq] at hv
  obtain ⟨hmade, htrips, hhops⟩ := hv
  exact ⟨s, s', d, hnew, hbegin, hd, hmade, htrips, hhops,
    packets_descend accepted_chain hnew hbegin hd⟩

end Diary

end SlotNet
