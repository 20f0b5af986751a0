import SlotNet.Proofs.Conveyance
import SlotNet.Proofs.Diary

/-!
# Packets are delivered in order

A run of the network is a run of a relay whose ways end (`Kept`): the routes stay, what the network does
about events are steps of the relay, and the environment only broadcasts messages, which may destroy
packets. So the packets from one node to another one that are delivered are delivered in the order in which
they were made (`delivered_in_order`).
-/

namespace SlotNet

variable {σ : Type}

namespace Medium

variable {nodes node : Nat} {message : List UInt8} {m m' : Medium}

theorem Prompt.announces (h : m.Prompt nodes) (ha : m.Announces node message m') :
    m'.Prompt nodes ∧ ∀ hop, (m'.flying hop).Sublist (m.flying hop) := by
  obtain ⟨stats, frame, o, hkind, -, -, -, -, -, -, hsend⟩ := ha
  have hcontrol : frame.kind ≠ .data := by
    rw [hkind]
    exact nofun
  have hbefore := (h.takeUid).setStats stats
  obtain ⟨hprompt, hflying⟩ := hbefore.transmit (fun hdata => absurd hdata hcontrol) hsend
  refine ⟨hprompt, fun hop => ?_⟩
  have hlast := hflying hop
  rwa [Event.cargo_of_control hcontrol, Option.toList_none, List.append_nil] at hlast

end Medium

namespace Network

theorem vacant_ofConfig {c : Config} {n : Network} (h : ofConfig c c.nodeCount = .ok n) :
    n.medium.routes.Ends ∧ (∀ node destination hop,
      n.medium.routes.nextHop node destination = some hop → hop < c.nodeCount) ∧
      ∀ node, n.waiting node = [] := by
  obtain ⟨positions, hp, h⟩ := Fault.bind_eq_ok.1 h
  obtain ⟨controller, -, h⟩ := Fault.bind_eq_ok.1 h
  cases h
  refine ⟨Routes.nextHop_self_ofLinks _, fun node destination hop hhop => ?_, fun node => ?_⟩
  · have hlt := (Routes.nextHop_ofLinks hhop).2
    rwa [Routes.linksOf, List.length_map, List.length_zipIdx, Placement.length_ofConfig hp] at hlt
  · rw [waiting, List.getElem?_map]
    cases (List.range c.nodeCount)[node]? <;> rfl

end Network

namespace Diary

open Network (Carries)

/-- The relay that a run has been so far. -/
def relay (d : Diary σ) : Relay := d.watch.network.relay d.made (d.delivered.map Prod.snd)

def madeBetween (d : Diary σ) (source destination : Nat) : List Packet :=
  Packet.between source destination d.made

def deliveredBetween (d : Diary σ) (source destination : Nat) : List Packet :=
  Packet.between source destination (d.delivered.map Prod.snd)

structure Kept (c : Config) (d : Diary σ) : Prop where
  regular : d.watch.Regular c
  ready : d.watch.network.Ready c.nodeCount
  ends : d.watch.medium.routes.Ends
  sound : d.relay.Sound d.watch.medium.routes
  past : ∀ p ∈ d.made, p.uid < d.watch.medium.nextUid ∧ p.createdAt ≤ d.watch.medium.now
  destination : ∀ q ∈ d.delivered, q.1 = q.2.destination

variable {c : Config} {d d' : Diary σ} {e : Entry Event} {s : Simulation σ} {x : Deed}

/-! ## Handing out an event -/

theorem Handles.flying (h : d.Handles e s x d') (hop : Nat × Nat) :
    d.watch.medium.flying hop = (e.event.cargo hop).toList ++ s.network.medium.flying hop := by
  have hskipped : d.watch.network.skipped.filterMap (Entry.cargo hop) = [] :=
    List.filterMap_eq_nil_iff.2 fun y hy => if_pos (Network.cancelled_of_mem_skipped hy)
  have hcargo : e.cargo hop = e.event.cargo hop := if_neg (ne_true_of_eq_false h.watch.pending)
  have hentries : d.watch.medium.events.entries =
      d.watch.network.skipped ++ e :: s.network.medium.events.entries := h.entries
  rw [Medium.flying, EventQueue.flying, hentries, List.filterMap_append, hskipped, List.nil_append,
    filterMap_cons_toList, hcargo]
  rfl

theorem Kept.ready_of_handles (hd : d.Kept c) (h : d.Handles e s x d') :
    s.network.Ready c.nodeCount := by
  have hready := hd.ready
  have hnow : d.watch.medium.now ≤ s.network.medium.events.now := by
    rw [h.watch.now]
    exact hready.prompt.ordered.now_le e h.watch.mem
  have hprompt := hready.prompt.setEvents h.watch.ordered hnow fun y hy => ((h.watch.rest y).1 hy).1
  have hmedium : s.network.medium =
      { d.watch.network.medium with events := s.network.medium.events } := h.watch.medium
  replace hprompt : s.network.medium.Prompt c.nodeCount := by
    rw [hmedium]
    exact hprompt
  refine ⟨hready.few, ?_, ?_, ?_, hprompt⟩
  · rw [h.watch.stations]
    exact hready.length
  · intro node t ht
    rw [h.watch.stations] at ht
    exact hready.manned node t ht
  · rw [hmedium]
    exact hready.hops

/-- What the run does after the network has handled an event makes packets go on. -/
theorem Kept.carries (hc : c.Accepted) (hd : d.Kept c) (h : d.Handles e s x d')
    (hx : x.after.Ready c.nodeCount) : Carries c.nodeCount x.after d'.watch.network ∧
      x.after.medium.nextUid ≤ d'.watch.medium.nextUid := by
  have hidle : e.event = .envStep → x.after = s.network := by
    intro he
    have hhandle := h.handle
    rw [he] at hhandle
    exact (Prod.mk.inj (Except.ok.inj hhandle)).1.symm
  -- no step of the environment, a step that comes after the end, or the turn of a node
  rcases hd.regular.cases hc h.watch with
    ⟨-, network, handled, hserves⟩ | ⟨he, -, hlate⟩ | ⟨he, -, hturn⟩
  · obtain ⟨rfl, -⟩ := Prod.mk.inj (Except.ok.inj (h.handle.symm.trans hserves.handle))
    obtain ⟨counted, -, hsent⟩ := hserves.counted
    refine ⟨?_, hsent.nextUid⟩
    obtain ⟨stats, -, hm⟩ := hserves.medium
    have hcount : Carries c.nodeCount x.after
        { x.after with medium := { x.after.medium with stats } } :=
      .ofSame hx rfl (hx.prompt.setStats stats) rfl fun _ => .refl _
    have hrest : Carries c.nodeCount { x.after with medium := { x.after.medium with stats } }
        { x.after with medium := d'.watch.simulation.network.medium } := by
      split at hm
      · exact .schedule hcount.ready rfl hm
      · rw [hm]
        exact .refl hcount.ready
    have hall := hcount.trans hrest
    rw [Watch.network, hserves.same]
    exact hall
  · have hsame : d'.watch.network.stations = s.network.stations ∧
        d'.watch.network.medium = s.network.medium := by
      rw [Watch.network, hlate]
      exact ⟨rfl, rfl⟩
    rw [hidle he] at hx ⊢
    refine ⟨.ofSame hx hsame.1 (hsame.2 ▸ hx.prompt) (by rw [hsame.2]) fun hop => ?_, ?_⟩
    · rw [hsame.2]
    · rw [Watch.medium, hsame.2]
  · obtain ⟨c', message, -, hsays⟩ := hturn.says (h.watch.staffed hd.regular.onTime.staffed)
    obtain ⟨-, -, hroutes, -, huid⟩ := hsays.counts
    obtain ⟨stats, m, -, -, hannounces, -, hmedium⟩ := hsays.air
    rw [hidle he] at hx ⊢
    obtain ⟨hprompt, hflying⟩ := (hx.prompt.setStats stats).announces hannounces
    refine ⟨.ofSame hx hturn.stations ?_ hroutes fun hop => ?_, huid⟩
    · rw [Watch.network, hmedium]
      exact hprompt.setStats _
    · rw [Watch.network, hmedium]
      exact hflying hop

/-- First the network handles the event, and then the run goes on: both are runs of the relay. -/
theorem Kept.handles (hc : c.Accepted) (hd : d.Kept c) (h : d.Handles e s x d') : d'.Kept c := by
  have hready := hd.ready_of_handles h
  have hmedium := h.watch.medium
  have hroutes : s.network.medium.routes = d.watch.medium.routes := by rw [hmedium]
  have huid : s.network.medium.nextUid = d.watch.medium.nextUid := by rw [hmedium]
  have hle : d.watch.medium.now ≤ e.time := hd.ready.prompt.ordered.now_le e h.watch.mem
  have hnow : s.network.now = e.time := h.watch.now
  have hnow' := hd.regular.now_of_handles hc h.watch
  have hpast : ∀ q ∈ d.made, q.uid < s.network.medium.nextUid ∧ q.createdAt ≤ s.network.now := by
    intro q hq
    obtain ⟨hlt, hbefore⟩ := hd.past q hq
    rw [huid, hnow]
    exact ⟨hlt, hbefore.trans hle⟩
  have hrelays := Network.handle_relays hready (hd.regular.onTime.traced.sane e h.watch.mem) h.handle
  obtain ⟨hcarries, hmore⟩ := hd.carries hc h hrelays.ready
  have hroutes' : d'.watch.medium.routes = d.watch.medium.routes :=
    (hcarries.routes.trans hrelays.routes).trans hroutes
  refine ⟨hd.regular.handles hc h.watch, hcarries.ready, hroutes' ▸ hd.ends, ?sound, fun p hp => ?past,
    fun q hq => ?destination⟩
  case sound =>
    have hwaiting : d.relay.waiting = s.network.waiting := by
      funext node
      rw [Network.waiting, h.watch.stations]
      rfl
    have hfirst := hrelays.run d.relay hwaiting h.flying hpast
    have hrest := hcarries.run (d.made ++ s.network.made e.event x.handled)
      (d.delivered.map Prod.snd ++ (Network.delivered e.event x.handled).map Prod.snd)
    rw [hrelays.routes] at hrest
    have hrun := hfirst.trans hrest
    rw [hroutes, ← h.made_eq, ← List.map_append, ← h.delivered_eq] at hrun
    rw [hroutes']
    exact hd.sound.run hd.ends hrun
  case past =>
    rw [h.made_eq] at hp
    rw [hnow', ← hnow]
    rcases List.mem_append.1 hp with hp | hp
    · obtain ⟨hlt, hbefore⟩ := hpast p hp
      exact ⟨hlt.trans_le ((Network.handle_sent h.handle).nextUid.trans hmore), hbefore⟩
    · obtain ⟨hlt, hmade⟩ := hrelays.made p hp
      exact ⟨hlt.trans_le hmore, hmade.le⟩
  case destination =>
    rw [h.delivered_eq] at hq
    rcases List.mem_append.1 hq with hq | hq
    · exact hd.destination q hq
    · exact hrelays.destination q hq

theorem Kept.carries_of_idles (hd : d.Kept c) (h : d.watch.Idles d'.watch) :
    Carries c.nodeCount d.watch.network d'.watch.network := by
  have hready := hd.ready
  obtain ⟨hprompt, hflying⟩ := hready.prompt.does (fun _ _ => False.elim)
    (fun t y hy => by
      obtain ⟨node, rfl⟩ := hy
      rfl) h.does
  have hmedium := h.medium
  have hroutes : d'.watch.medium.routes = d.watch.medium.routes := by rw [hmedium]
  exact .ofSame hready h.stations hprompt hroutes hflying

theorem made_of_idles (hdeeds : d'.deeds = d.deeds) : d'.made = d.made := by
  rw [made, hdeeds, made]

theorem delivered_of_idles (hdeeds : d'.deeds = d.deeds) : d'.delivered = d.delivered := by
  rw [delivered, hdeeds, delivered]

theorem Kept.idles (hd : d.Kept c) (h : d.watch.Idles d'.watch) (hdeeds : d'.deeds = d.deeds) :
    d'.Kept c := by
  have hnow : d'.watch.medium.now = d.watch.medium.now :=
    (Medium.Does.clock hd.ready.prompt.ordered h.does).2
  have hmedium := h.medium
  have hcarries := hd.carries_of_idles h
  have hroutes : d'.watch.medium.routes = d.watch.medium.routes := hcarries.routes
  have hmade := made_of_idles hdeeds
  have hdelivered := delivered_of_idles hdeeds
  refine ⟨hd.regular.idles h, hcarries.ready, hroutes ▸ hd.ends, ?_, fun p hp => ?_, fun q hq => ?_⟩
  · have hrun := hcarries.run d.made (d.delivered.map Prod.snd)
    rw [relay, hmade, hdelivered, hroutes]
    exact hd.sound.run hd.ends hrun
  · rw [hmade] at hp
    rw [hnow, hmedium]
    exact hd.past p hp
  · rw [hdelivered] at hq
    exact hd.destination q hq

theorem Kept.step (hc : c.Accepted) (hd : d.Kept c) {a : Watch.Act} (h : d.step a = some d') :
    d'.Kept c := by
  rcases step_cases hd.ready.prompt.ordered h with ⟨e, s, x, hh⟩ | ⟨hidle, hdeeds⟩
  · exact hd.handles hc hh
  · exact hd.idles hidle hdeeds

theorem vacant_of_new (hc : c.Accepted) {agent : Agent σ} {agentState : σ}
    (hnew : Simulation.new c agent agentState = .ok s) : s.network.Ready c.nodeCount ∧
      s.network.medium.routes.Ends ∧ (∀ node, s.network.waiting node = []) ∧
      ∀ hop, s.network.medium.flying hop = [] := by
  have hn := Simulation.still_of_new hnew
  have hnetwork : Network.ofConfig c c.nodeCount = .ok s.network := by
    obtain ⟨network, hnetwork, rfl⟩ := Fault.map_eq_ok.1 hnew
    exact hnetwork
  obtain ⟨hends, hhops, hvacant⟩ := Network.vacant_ofConfig hnetwork
  have hfew : c.nodeCount + 1 < Address.limit :=
    Nat.lt_of_le_of_lt (Nat.add_le_add_right hc.nodeCount.2 1) (by decide)
  have hlistens : s.network.medium.Listens c.nodeCount := by
    rw [Medium.Listens, hn.channel]
  have hprompt : s.network.medium.Prompt c.nodeCount := by
    refine ⟨hn.traced.ordered, hlistens, fun e he => ?_⟩
    rw [hn.events] at he
    cases he
  refine ⟨⟨hfew, hn.length, hn.manned, hhops, hprompt⟩, hends, hvacant, fun hop => ?_⟩
  rw [Medium.flying, EventQueue.flying, hn.events]
  rfl

theorem carries_of_begin (hc : c.Accepted) {agent : Agent σ} {agentState : σ} {s' : Simulation σ}
    (hnew : Simulation.new c agent agentState = .ok s) (h : s.begin = .ok s') :
    Carries c.nodeCount s.network s'.network := by
  have hn := Simulation.still_of_new hnew
  obtain ⟨hready, -⟩ := vacant_of_new hc hnew
  obtain ⟨-, -, -, -, -, hstations, -⟩ := Simulation.begin_does hn.started h
  obtain ⟨hprompt, hflying⟩ := hready.prompt.does (fun _ _ => False.elim)
    (fun t y hy => by rcases hy with rfl | ⟨node, rfl⟩ <;> rfl) (Simulation.begin_schedules hn.started h)
  exact .ofSame hready hstations hprompt (Simulation.begin_sent h).routes hflying

theorem Kept.start (hc : c.Accepted) {agent : Agent σ} {agentState : σ} {s' : Simulation σ}
    (hnew : Simulation.new c agent agentState = .ok s) (h : s.begin = .ok s') : (start s').Kept c := by
  obtain ⟨hready, hends, hvacant, hnone⟩ := vacant_of_new hc hnew
  have hcarries := carries_of_begin hc hnew h
  have hroutes := hcarries.routes
  have hsound : (s.network.relay [] []).Sound s.network.medium.routes :=
    .start hvacant hnone rfl rfl
  refine ⟨.start hnew h, hcarries.ready, ?_, ?_, nofun, nofun⟩
  · show s'.network.medium.routes.Ends
    rw [hroutes]
    exact hends
  · show (s'.network.relay [] []).Sound s'.network.medium.routes
    rw [hroutes]
    exact hsound.run hends (hcarries.run [] [])

/-- In every state of a run, whatever the agent answers, whenever packets arrive and whatever is lost on
the way: packets are delivered at their destination only, and those from one node to another one are
delivered in the order in which they were made, which is that of their numbers and of their times. -/
theorem delivered_in_order (hc : c.Accepted) {agent : Agent σ} {agentState : σ} {s' : Simulation σ}
    (hnew : Simulation.new c agent agentState = .ok s) (hbegin : s.begin = .ok s')
    {acts : List Watch.Act} (hrun : run acts (start s') = some d) :
    (∀ q ∈ d.delivered, q.1 = q.2.destination) ∧ ∀ source destination,
      (d.deliveredBetween source destination).Sublist (d.madeBetween source destination) ∧
      (d.madeBetween source destination).Pairwise
        (fun p q => p.uid < q.uid ∧ p.createdAt ≤ q.createdAt) ∧
      (d.deliveredBetween source destination).Pairwise fun p q => p.uid < q.uid := by
  have hd : d.Kept c :=
    Acts.run_induction (fun _ _ _ _ hd hstep => hd.step hc hstep) (.start hc hnew hbegin) hrun
  refine ⟨hd.destination, fun source destination => ?_⟩
  have hsublist := hd.sound.delivered_sublist source destination
  have hrising := hd.sound.rising.filter
    (fun p => decide (p.source = source ∧ p.destination = destination))
  exact ⟨hsublist, hrising, (hrising.sublist hsublist).imp fun h => h.1⟩

/-- Three nodes in a row, each of which hears its neighbours only, with room for three packets. -/
def chain : Config := { Config.pair with
  seed := 7
  nodes := [⟨0.0, 0.0⟩, ⟨200.0, 0.0⟩, ⟨400.0, 0.0⟩]
  frame := { dataSlots := 2, dataRate := 40000000 }
  queue := { maxPackets := 3 } }

theorem accepted_chain : chain.Accepted := rfl

/-- Four packets are made at the first node, and there is room for three. -/
def fourPackets : List Watch.Act :=
  List.replicate 4 (.arrival 0 0) ++ List.replicate 39 (.next (Time.ofMillis 10))

theorem run_chain : ∃ s s',
    Simulation.new chain (.forNodes [some [0], some [1], some []]) Script.silence = .ok s ∧
    s.begin = .ok s' ∧
    (run fourPackets (start s')).map (fun d => (d.made.map fun p => (p.uid, p.destination),
        d.delivered.map fun q => (q.1, q.2.uid), (d.deliveredBetween 0 2).map (·.uid)))
      = some ([(0, 2), (1, 1), (2, 2), (3, 1)], [(1, 1), (2, 0), (2, 2)], [0, 2]) :=
  ⟨_, _, rfl, rfl, by decide +kernel⟩

/-- The second packet, for the next node, is delivered before the first one; but the two packets that
are relayed to the last node are delivered in order. The fourth one is lost. -/
theorem delivered_in_order_chain : ∃ s s' d,
    Simulation.new chain (.forNodes [some [0], some [1], some []]) Script.silence = .ok s ∧
    s.begin = .ok s' ∧ run fourPackets (start s') = some d ∧
    d.made.map (fun p => (p.uid, p.destination)) = [(0, 2), (1, 1), (2, 2), (3, 1)] ∧
    d.delivered.map (fun q => (q.1, q.2.uid)) = [(1, 1), (2, 0), (2, 2)] ∧
    (d.deliveredBetween 0 2).map (·.uid) = [0, 2] ∧
    (∀ q ∈ d.delivered, q.1 = q.2.destination) ∧ ∀ source destination,
      (d.deliveredBetween source destination).Sublist (d.madeBetween source destination) ∧
      (d.madeBetween source destination).Pairwise
        (fun p q => p.uid < q.uid ∧ p.createdAt ≤ q.createdAt) ∧
      (d.deliveredBetween source destination).Pairwise fun p q => p.uid < q.uid := by
  obtain ⟨s, s', hnew, hbegin, hrun⟩ := run_chain
  obtain ⟨d, hd, hv⟩ := Option.map_eq_some_iff.1 hrun
  simp only [Prod.mk.injEq] at hv
  obtain ⟨hmade, hdelivered, hpair⟩ := hv
  exact ⟨s, s', d, hnew, hbegin, hd, hmade, hdelivered, hpair,
    delivered_in_order accepted_chain hnew hbegin hd⟩

end Diary

end SlotNet
