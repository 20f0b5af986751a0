import SlotNet.Proofs.Config
import SlotNet.Proofs.Routing
import SlotNet.Proofs.Simulation

/-!
# Before the first event

The network of an accepted configuration is fit, as long as every next hop is in hearing, and nothing
waits or is under way when a run begins.
-/

namespace SlotNet

/-- Is every next hop within range of the channel? -/
def Medium.HopsInRange (m : Medium) : Prop :=
  ∀ node destination hop here there, m.routes.nextHop node destination = some hop →
    m.positions[node]? = some here → m.positions[hop]? = some there →
    ¬ m.channel.maxRange < Point.distance here there

namespace Placement

open SlotNet.Random (Stream)

theorem length_scatter {area : PlacementArea} {n : Nat} {stream : Stream}
    {drawn : List Point × Stream} (h : scatter area n stream = .ok drawn) :
    drawn.1.length = n := by
  induction n generalizing stream drawn with
  | zero => cases h; rfl
  | succ n ih =>
    obtain ⟨⟨x, s₁⟩, -, h⟩ := Fault.bind_eq_ok.1 h
    obtain ⟨⟨y, s₂⟩, -, h⟩ := Fault.bind_eq_ok.1 h
    obtain ⟨rest, hr, h⟩ := Fault.bind_eq_ok.1 h
    cases h
    exact congrArg (· + 1) (ih hr)

theorem length_ofConfig {c : Config} {points : List Point} (h : ofConfig c = .ok points) :
    points.length = c.nodeCount := by
  unfold ofConfig positions at h
  unfold Config.nodeCount
  split at h
  · rename_i he
    rw [if_pos he]
    obtain ⟨drawn, hd, rfl⟩ := Fault.map_eq_ok.1 h
    exact length_scatter hd
  · rename_i he
    rw [if_neg he]
    cases h
    rfl

end Placement

namespace Network

theorem foldl_register (nodes : List Nat) (c : Channel) :
    nodes.foldl (fun c node => c.register node (Address.ofNode node)) c = { c with
      endpoints := c.endpoints ++ nodes.map fun node => ⟨node, Address.ofNode node⟩ } := by
  induction nodes generalizing c with
  | nil => simp
  | cons node nodes ih =>
    rw [List.foldl_cons, ih, Channel.register, List.map_cons, List.append_assoc]
    rfl

theorem listeners_eq (range : Float) (nodes : Nat) : listeners range nodes
    = ⟨range, (List.range nodes).map fun node => ⟨node, Address.ofNode node⟩, []⟩ :=
  foldl_register _ _

/-- Before the first event nothing is under way, and everything is fit. -/
theorem fit_ofConfig {c : Config} (hc : c.Accepted) {n : Network}
    (h : ofConfig c c.nodeCount = .ok n) (hr : n.medium.HopsInRange) :
    n.Fit c.nodeCount ∧ n.held = 0 ∧ n.medium.events = .empty ∧ n.medium.stats = {} := by
  obtain ⟨positions, hp, h⟩ := Fault.bind_eq_ok.1 h
  obtain ⟨controller, -, h⟩ := Fault.bind_eq_ok.1 h
  cases h
  have hlen := Placement.length_ofConfig hp
  have hlinks : (Routes.linksOf c.maxRangeM positions).length = c.nodeCount := by
    rw [Routes.linksOf, List.length_map, List.length_zipIdx, hlen]
  have hmost : c.nodeCount + 2 < Address.limit :=
    Nat.lt_of_le_of_lt (Nat.add_le_add_right hc.nodeCount.2 2) (by decide)
  refine ⟨⟨?_, fun node s hs => ?_, ⟨hmost, EventQueue.ordered_empty, ?_, ?_, nofun⟩⟩, ?_, rfl, rfl⟩
  · rw [List.length_map, List.length_range]
  · obtain ⟨i, hi, rfl⟩ := Option.map_eq_some_iff.1 ((List.getElem?_map ..).symm.trans hs)
    obtain ⟨hlt, rfl⟩ := List.getElem?_eq_some_iff.1 hi
    rw [List.getElem_range]
    exact ⟨rfl, rfl, rfl, nofun⟩
  · exact congrArg Channel.endpoints (listeners_eq _ _)
  · intro node hn destination hop hhop
    obtain ⟨hne, hlt⟩ := Routes.nextHop_ofLinks hhop
    rw [hlinks] at hlt
    have hhere := List.getElem?_eq_getElem (hlen.symm ▸ hn)
    have hthere := List.getElem?_eq_getElem (hlen.symm ▸ hlt)
    refine ⟨hlt, positions[node], hhere, ?_⟩
    have hnear := hr node destination hop _ _ hhop hhere hthere
    exact Option.isSome_of_eq_some (Channel.hearingDistance_eq hne hthere hnear)
  · refine List.sum_eq_zero fun held hh => ?_
    obtain ⟨s, hs, rfl⟩ := List.mem_map.1 hh
    obtain ⟨node, -, rfl⟩ := List.mem_map.1 hs
    rfl

theorem Goes.scheduleAt {nodes : Nat} {n : Network} (hn : n.Fit nodes) (time : Time) (event : Event)
    (hp : event.packets = 0) (hf : event.Fit nodes) :
    Goes nodes n (n.setEvents (n.medium.events.scheduleAt time event).2) 0 0 0 :=
  .ofMedium hn (.scheduleAt hn.medium hp hf time)

theorem start_goes {nodes : Nat} {n n' : Network} (hn : n.Fit nodes) {started : Bool}
    (h : n.start = .ok (n', started)) : Goes nodes n n' 0 0 0 := by
  obtain ⟨⟨started', controller, events⟩, h1, h⟩ := Fault.bind_eq_ok.1 h
  cases h
  unfold Controller.start at h1
  split at h1
  · cases h1
    exact .ofParts hn _ _
  · obtain ⟨⟨id, events'⟩, h2, h1⟩ := Fault.map_eq_ok.1 h1
    cases h1
    obtain ⟨-, rfl⟩ := EventQueue.schedule_ok h2
    have hgo := Goes.scheduleAt hn (n.medium.events.now + Controller.firstFrameDelay) .startFrame
      rfl trivial
    exact hgo.step (.ofParts hgo.1 _ _)

theorem scheduleFirst_goes {nodes count node : Nat} {n : Network} (hn : n.Fit nodes)
    {t t' : Traffic} {events : EventQueue Event}
    (h : Traffic.scheduleFirst count node t n.medium.events = .ok (t', events)) :
    Goes nodes n (n.setEvents events) 0 0 0 := by
  induction count generalizing node n t with
  | zero =>
    cases h
    exact .refl hn
  | succ count ih =>
    unfold Traffic.scheduleFirst at h
    generalize t.nextGap = gap at h
    rcases gap with ⟨_ | gap, t₁⟩
    · exact ih hn h
    · obtain ⟨time, -, h⟩ := Fault.bind_eq_ok.1 h
      have hgo := Goes.scheduleAt hn time (.arrival node) rfl trivial
      exact hgo.step (ih hgo.1 h)

theorem startTraffic_goes {nodes count : Nat} {n n' : Network} (hn : n.Fit nodes)
    (h : n.startTraffic count = .ok n') : Goes nodes n n' 0 0 0 := by
  obtain ⟨⟨traffic, events⟩, h1, h⟩ := Fault.bind_eq_ok.1 h
  cases h
  have hgo := scheduleFirst_goes hn h1
  exact hgo.step (.ofParts hgo.1 _ _)

end Network

theorem Simulation.begin_goes {σ : Type} {nodes : Nat} {s s' : Simulation σ}
    (hs : s.network.Fit nodes) (h : s.begin = .ok s') :
    Network.Goes nodes s.network s'.network 0 0 0 := by
  obtain ⟨⟨agentState, answer⟩, -, h⟩ := Fault.bind_eq_ok.1 h
  obtain ⟨t, h1, h⟩ := Fault.bind_eq_ok.1 h
  obtain ⟨⟨n, started⟩, h2, h⟩ := Fault.bind_eq_ok.1 h
  obtain ⟨n', h3, h⟩ := Fault.bind_eq_ok.1 h
  cases h
  have hgo₁ := noteError_goes (s := { s with agentState }) hs h1
  have hgo₂ := hgo₁.step (Network.start_goes hgo₁.1 h2)
  exact hgo₂.step (Network.startTraffic_goes hgo₂.1 h3)

end SlotNet
