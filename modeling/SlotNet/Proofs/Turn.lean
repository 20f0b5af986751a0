import SlotNet.Proofs.AnyOrder
import SlotNet.Proofs.Cadence
import SlotNet.Proofs.Sending

/-!
# The turn of a node

A step of the environment, as long as the run is not over, is the turn of one node (`Turn`): the agent
is asked, one reservation of that node carries out the answer, and the next node is up. A reservation of
a known node puts its message on the air (`Announces`).

Any other event is handled by the network (`Serves`); at the beginning of a control slot a step of the
environment is scheduled at once. `Regular` is what holds between the events of a run, and
`Regular.cases` says what handling an event is.
-/

namespace SlotNet

/-! ## Announcing -/

/-- A node puts a message on the air for all to hear. It counts as one frame and as one reservation. -/
def Medium.Announces (node : Nat) (message : List UInt8) (m m' : Medium) : Prop :=
  ∃ (stats : Stats) (frame : Frame) (o : TransmitOutcome),
    frame.kind = .reservation ∧ frame.transmitter = Address.ofNode node ∧
    frame.receiver = .broadcast ∧ frame.payload = .bytes message ∧
    stats.airing =
      (m.stats.collisions, m.stats.cancelledDeliveries, m.stats.reservationMessages + 1) ∧
    stats.framesSent = m.stats.framesSent + 1 ∧
    stats.duties =
      (m.stats.reservationMessages + 1, m.stats.malformedReservations, m.stats.envSteps) ∧
    Medium.transmit { m with nextUid := m.nextUid + 1, stats } node frame = .ok (m', o)

namespace Controller

theorem reserve_announces {c c' : Controller} {m m' : Medium} {node : Nat} {o : TransmitOutcome}
    {message : List UInt8} (hs : c.status node = some message)
    (h : c.reserve m node = .ok (c', m', o)) : m.Announces node message m' := by
  unfold reserve at h
  unfold status at hs
  dsimp only at h
  split at h
  · rename_i previous current hp hq
    simp only [hp, hq, Option.some.injEq] at hs
    obtain ⟨stats, h1, h⟩ := Fault.bind_eq_ok.1 h
    obtain ⟨stats', h2, h⟩ := Fault.bind_eq_ok.1 h
    obtain ⟨⟨m₁, o'⟩, h3, h⟩ := Fault.bind_eq_ok.1 h
    cases h
    have hair : stats.airing = m.stats.airing := Stats.airing_recordTransmission h1
    have hsent : m.stats.Sent 1 stats := Stats.sent_recordTransmission h1
    obtain ⟨count, hc, rfl⟩ := Fault.map_eq_ok.1 h2
    obtain ⟨rfl, -⟩ := Count.add_eq_ok hc
    have hduties := hsent.duties
    simp only [Stats.airing, Stats.duties, Prod.mk.injEq] at hair hduties
    refine ⟨{ stats with reservationMessages := stats.reservationMessages + 1 },
      statusFrame node m.nextUid m.now previous current, o', rfl, rfl, rfl,
      congrArg Payload.bytes hs, ?_, hsent.framesSent, ?_, h3⟩
    · simp only [Stats.airing, hair]
    · simp only [Stats.duties, hduties]
  · rename_i hnone
    split at hs
    · rename_i previous current hp hq
      exact (hnone previous current hp hq).elim
    · cases hs

end Controller

namespace Medium

variable {node : Nat} {message : List UInt8} {m m' : Medium}

theorem Announces.broadcasts (h : m.Announces node message m') : m.Broadcasts node m' := by
  obtain ⟨stats, frame, o, hkind, hfrom, -, -, hair, -, -, hsend⟩ := h
  exact ⟨stats, m'.stats, frame, m', o, hkind, hfrom, hair, hsend, rfl, rfl⟩

theorem Announces.counts (h : m.Announces node message m') :
    m'.stats.framesSent = m.stats.framesSent + 1 ∧
      m'.stats.duties =
        (m.stats.reservationMessages + 1, m.stats.malformedReservations, m.stats.envSteps) ∧
      m'.routes = m.routes ∧ m'.dataRate = m.dataRate ∧ m.nextUid ≤ m'.nextUid := by
  obtain ⟨stats, frame, o, -, -, -, -, -, hframes, hduties, hsend⟩ := h
  have hsent := sent_transmit hsend
  exact ⟨hsent.counted.framesSent.trans hframes, hsent.counted.duties.trans hduties, hsent.routes,
    hsent.dataRate, Nat.le_of_succ_le hsent.nextUid⟩

end Medium

/-! ## The controller -/

namespace Network

open Controller (Reachable)

variable {config : Config} {n n' : Network}

theorem handle_reachable {event : Event} {handled : Handled} (hn : Reachable config n.controller)
    (h : n.handle event = .ok (n', handled)) : Reachable config n'.controller := by
  cases event with
  | startFrame =>
    obtain ⟨⟨n₁, grants⟩, h1, h⟩ := Fault.map_eq_ok.1 h
    cases h
    exact .runFrame hn h1
  | runSlot slot =>
    obtain ⟨⟨n₁, grants⟩, h1, h⟩ := Fault.map_eq_ok.1 h
    cases h
    exact .runSlot hn h1
  | continueSlot node slotEnd control =>
    rcases continueSlot_cases h with ⟨rfl, -⟩ | ⟨s, s', m, sent, -, -, -, rfl⟩ <;> exact hn
  | deliver receiver frame =>
    rcases deliver_cases h with ⟨rfl, -, -⟩ | ⟨s, s', m, what, -, -, hwhat⟩
    · exact hn
    rcases hwhat with ⟨content, result, -, -, hmerge⟩ | ⟨-, rfl⟩
    · obtain ⟨-, stats, -, rfl⟩ := merge_cases hmerge
      exact hn.merge content receiver
    · exact hn
  | envStep =>
    cases h
    exact hn
  | arrival node =>
    rcases arrive_cases h with ⟨rfl, -⟩ | ⟨s, s', m, traffic, destination, -, -, -, rfl⟩ <;> exact hn

end Network

namespace Simulation

variable {σ : Type} {s s' : Simulation σ} {event : Event} {config : Config}

/-! ## Steps of the environment -/

/-- The turn of a node: the agent is asked about what the node sees, one reservation of the node carries
out the answer, or the empty one if there is none, and the next node is up. -/
structure Turn (s : Simulation σ) (node : Nat) (s' : Simulation σ) : Prop where
  current : s.environment.currentNode = node
  environment : s'.environment = s.environment.advance
  stations : s'.network.stations = s.network.stations
  reserves : ∃ station agentState answer action stats m o,
    s.network.stations[node]? = some station ∧
    s.agent.act (s.observe node station false).1 s.agentState = .ok (agentState, answer) ∧
    action = answer.toOption.getD s.environment.idle ∧
    s.network.medium.stats.Sent 0 stats ∧ stats.airing = s.network.medium.stats.airing ∧
    ((action.filterMap s.environment.slotOf).foldl Controller.choose
      (s.network.controller.takeReward node).2).reserve { s.network.medium with stats } node
      = .ok (s'.network.controller, m, o) ∧
    m.stats.recordEnvStep = .ok s'.network.medium.stats ∧
    s'.network.medium = { m with stats := s'.network.medium.stats }

theorem ask_spec {step : Step} {action : Action} (h : s.ask step = .ok (s', action)) :
    ∃ agentState answer stats, s.agent.act step s.agentState = .ok (agentState, answer) ∧
      action = answer.toOption.getD s.environment.idle ∧
      s.network.medium.stats.Sent 0 stats ∧ stats.airing = s.network.medium.stats.airing ∧
      s' = ({ s with agentState }).setStats stats := by
  obtain ⟨⟨agentState, answer⟩, h1, h⟩ := Fault.bind_eq_ok.1 h
  cases answer with
  | ok action =>
    cases h
    exact ⟨agentState, .ok action, s.network.medium.stats, h1, rfl, .refl _, rfl, rfl⟩
  | error e =>
    obtain ⟨t, h2, h⟩ := Fault.bind_eq_ok.1 h
    cases h
    obtain ⟨stats, h3, rfl⟩ := Fault.map_eq_ok.1 h2
    exact ⟨agentState, .error e, stats, h1, rfl, Stats.sent_of_map h3 fun _ => ⟨rfl, rfl⟩,
      Stats.airing_of_map h3 fun _ => rfl, rfl⟩

/-- A step of the environment is the turn of the current node, unless the run is over: then only its
rewards are taken. -/
theorem envStep_turn {station : Station}
    (hstation : s.network.stations[s.environment.currentNode]? = some station)
    (h : s.envStep = .ok s') :
    (s.environment.horizon < s.now ∧ s' = { s with network := { s.network with
        controller := (s.network.controller.takeReward s.environment.currentNode).2 } }) ∨
      (s.now ≤ s.environment.horizon ∧ s.Turn s.environment.currentNode s') := by
  unfold envStep at h
  simp only [hstation] at h
  split at h
  · rename_i hdone
    cases h
    exact .inl ⟨of_decide_eq_true hdone, rfl⟩
  · rename_i hdone
    rw [Bool.not_eq_true] at hdone
    obtain ⟨⟨t, action⟩, h1, h⟩ := Fault.bind_eq_ok.1 h
    obtain ⟨agentState, answer, stats, hask, haction, hsent, hair, rfl⟩ := ask_spec h1
    obtain ⟨⟨controller, medium, outcome⟩, h2, h⟩ := Fault.bind_eq_ok.1 h
    obtain ⟨stats', h3, h⟩ := Fault.bind_eq_ok.1 h
    cases h
    rw [hdone] at hask
    exact .inr ⟨Nat.le_of_not_lt (of_decide_eq_false hdone), rfl, rfl, rfl, station, agentState,
      answer, action, stats, medium, outcome, hstation, hask, haction, hsent, hair, h2, h3, rfl⟩

theorem Turn.reachable {node : Nat} (h : s.Turn node s')
    (hc : Controller.Reachable config s.network.controller) :
    Controller.Reachable config s'.network.controller := by
  obtain ⟨station, agentState, answer, action, stats, m, o, -, -, -, -, -, hreserve, -, -⟩ := h.reserves
  exact .reserve ((hc.takeReward node).chooseAll _) hreserve

/-- In its turn a node announces what it holds. Nothing else is put on the air. -/
structure Turn.Says (s : Simulation σ) (node : Nat) (c : Controller) (message : List UInt8)
    (s' : Simulation σ) : Prop where
  status : c.status node = some message
  shaped : c.Shaped
  controller : s'.network.controller = c.reserved node
  layout : c.layout = s.network.controller.layout
  air : ∃ stats m, s.network.medium.stats.Sent 0 stats ∧
    stats.airing = s.network.medium.stats.airing ∧
    Medium.Announces node message { s.network.medium with stats } m ∧
    m.stats.recordEnvStep = .ok s'.network.medium.stats ∧
    s'.network.medium = { m with stats := s'.network.medium.stats }

theorem Turn.says {node : Nat} (hs : s.Staffed) (h : s.Turn node s') :
    ∃ c message, (∀ config, Controller.Reachable config s.network.controller →
        Controller.Reachable config c) ∧ Turn.Says s node c message s' := by
  obtain ⟨station, agentState, answer, action, stats, m, o, hstation, -, -, hsent, hair, hreserve,
    hstep, hmedium⟩ := h.reserves
  obtain ⟨hrewards, hclaims⟩ := Controller.sameFrame_takeReward s.network.controller node
  obtain ⟨hchoices, hclaims'⟩ := Controller.sameFrame_chooseAll
    (s.network.controller.takeReward node).2 (action.filterMap s.environment.slotOf)
  have hsame := hrewards.trans hchoices
  have hshaped := hsame.shaped hs.shaped (hclaims' ▸ hclaims ▸ hs.shaped.claims)
  have hnode := (List.getElem?_eq_some_iff.1 hstation).1
  rw [hs.length, ← hsame.nodeCount] at hnode
  obtain ⟨message, hstatus⟩ := Controller.status_isSome hshaped hnode
  exact ⟨_, message, fun config hc => (hc.takeReward node).chooseAll _, hstatus, hshaped,
    (Controller.reserve_ok hreserve).1, hsame.layout, stats, m, hsent, hair,
    Controller.reserve_announces hstatus hreserve, hstep, hmedium⟩

theorem Turn.Says.counts {node : Nat} {c : Controller} {message : List UInt8}
    (h : Turn.Says s node c message s') :
    s'.network.medium.stats.framesSent = s.network.medium.stats.framesSent + 1 ∧
      s'.network.medium.stats.duties = (s.network.medium.stats.reservationMessages + 1,
        s.network.medium.stats.malformedReservations, s.network.medium.stats.envSteps + 1) ∧
      s'.network.medium.routes = s.network.medium.routes ∧
      s'.network.medium.dataRate = s.network.medium.dataRate ∧
      s.network.medium.nextUid ≤ s'.network.medium.nextUid := by
  obtain ⟨stats, m, hsent, -, hannounces, hstep, hmedium⟩ := h.air
  obtain ⟨hframes, hduties, hroutes, hrate, huid⟩ := hannounces.counts
  obtain ⟨count, hc, hstats⟩ := Fault.map_eq_ok.1 hstep
  obtain ⟨rfl, -⟩ := Count.add_eq_ok hc
  have hbefore := hsent.duties
  simp only [Stats.duties, Prod.mk.injEq] at hduties hbefore ⊢
  rw [hmedium, ← hstats]
  refine ⟨hframes.trans (congrArg (· + 1) hsent.framesSent), ⟨?_, ?_, ?_⟩, hroutes, hrate, huid⟩
  · exact hduties.1.trans (congrArg (· + 1) hbefore.1)
  · exact hduties.2.1.trans hbefore.2.1
  · exact congrArg (· + 1) (hduties.2.2.trans hbefore.2.2)

theorem dispatch_turn (hs : s.Staffed)
    (hnode : s.environment.currentNode < s.network.controller.nodeCount)
    (h : s.dispatch .envStep = .ok s') :
    (s.environment.horizon < s.now ∧ s' = { s with network := { s.network with
        controller := (s.network.controller.takeReward s.environment.currentNode).2 } }) ∨
      (s.now ≤ s.environment.horizon ∧ s.Turn s.environment.currentNode s') := by
  obtain ⟨network, handled, stats, t, h1, rfl, hcount, hrest⟩ := dispatch_cases h
  cases h1
  obtain rfl := Handled.eq_of_count hcount nofun
  rcases hrest with ⟨hopens, -⟩ | ⟨-, -, henv⟩ | ⟨-, hne, -⟩
  · cases hopens
  · have hlt : s.environment.currentNode < s.network.stations.length := hs.length ▸ hnode
    exact envStep_turn (List.getElem?_eq_getElem hlt) henv
  · exact absurd rfl hne

/-! ## Other events -/

/-- The network handles an event that is no step of the environment. At the beginning of a control slot
such a step is scheduled at once. -/
structure Serves (s : Simulation σ) (event : Event) (network : Network) (handled : Handled)
    (s' : Simulation σ) : Prop where
  handle : s.network.handle event = .ok (network, handled)
  same : s' = { s with network := { network with medium := s'.network.medium } }
  medium : ∃ stats, handled.count network.medium.stats = .ok stats ∧
    if ({ s with network }).opensControlSlot event then
      Medium.schedule { network.medium with stats } 0 .envStep = .ok s'.network.medium
    else s'.network.medium = { network.medium with stats }

theorem dispatch_serves (h : s.dispatch event = .ok s') (hne : event ≠ .envStep) :
    ∃ network handled, s.Serves event network handled s' := by
  obtain ⟨network, handled, stats, t, h1, rfl, hcount, hrest⟩ := dispatch_cases h
  refine ⟨network, handled, h1, ?_, stats, hcount, ?_⟩
  · rcases hrest with ⟨-, medium, -, rfl⟩ | ⟨-, rfl, -⟩ | ⟨-, -, rfl⟩
    · rfl
    · exact absurd rfl hne
    · rfl
  · rcases hrest with ⟨hopens, medium, hm, rfl⟩ | ⟨-, rfl, -⟩ | ⟨hopens, -, rfl⟩
    · exact (if_pos hopens).mpr hm
    · exact absurd rfl hne
    · exact (if_neg (Bool.eq_false_iff.1 hopens)).mpr rfl

variable {network : Network} {handled : Handled}

theorem Serves.environment (h : s.Serves event network handled s') :
    s'.environment = s.environment := by rw [h.same]

theorem Serves.controller (h : s.Serves event network handled s') :
    s'.network.controller = network.controller := by rw [h.same]

theorem Serves.stations (h : s.Serves event network handled s') :
    s'.network.stations = network.stations := by rw [h.same]

theorem Serves.counted (h : s.Serves event network handled s') :
    ∃ stats, handled.count network.medium.stats = .ok stats ∧
      Medium.Sent 0 { network.medium with stats } s'.network.medium := by
  obtain ⟨stats, hcount, hm⟩ := h.medium
  refine ⟨stats, hcount, ?_⟩
  split at hm
  · exact Medium.sent_schedule hm
  · rw [hm]
    exact .refl _

theorem Serves.counts (h : s.Serves event network handled s') :
    s'.network.medium.stats.framesSent =
        s.network.medium.stats.framesSent + handled.sent.length ∧
      s'.network.medium.stats.reservationMessages = s.network.medium.stats.reservationMessages ∧
      s'.network.medium.stats.envSteps = s.network.medium.stats.envSteps ∧
      s'.network.medium.routes = s.network.medium.routes ∧
      s'.network.medium.dataRate = s.network.medium.dataRate ∧
      s.network.medium.nextUid ≤ s'.network.medium.nextUid := by
  obtain ⟨stats, hcount, hrest⟩ := h.counted
  have hsent := Network.handle_sent h.handle
  obtain ⟨hframes, hreservations, hsteps⟩ := Handled.count_fields hcount
  have hduties := hrest.counted.duties.trans (show stats.duties = (_, _, _) from rfl)
  have hbefore := hsent.counted.duties
  simp only [Stats.duties, Prod.mk.injEq] at hduties hbefore
  exact ⟨hrest.counted.framesSent.trans (hframes.trans hsent.counted.framesSent),
    hduties.1.trans (hreservations.trans hbefore.1),
    hduties.2.2.trans (hsteps.trans hbefore.2.2), hrest.routes.trans hsent.routes,
    hrest.dataRate.trans hsent.dataRate, hsent.nextUid.trans hrest.nextUid⟩

theorem Serves.malformed (h : s.Serves event network handled s')
    (hread : ∀ e, handled ≠ .merged (.error e)) :
    s'.network.medium.stats.malformedReservations = s.network.medium.stats.malformedReservations := by
  obtain ⟨stats, hcount, hrest⟩ := h.counted
  obtain rfl := Handled.eq_of_count hcount hread
  exact congrArg (fun d => d.2.1)
    (hrest.counted.duties.trans (Network.handle_sent h.handle).counted.duties)

theorem Serves.reachable (h : s.Serves event network handled s')
    (hc : Controller.Reachable config s.network.controller) :
    Controller.Reachable config s'.network.controller := by
  rw [h.controller]
  exact Network.handle_reachable hc h.handle

/-! ## Before the first event -/

theorem begin_environment (h : s.begin = .ok s') : s'.environment = s.environment := by
  obtain ⟨⟨agentState, answer⟩, -, h⟩ := Fault.bind_eq_ok.1 h
  obtain ⟨t, h1, h⟩ := Fault.bind_eq_ok.1 h
  obtain ⟨⟨n, started⟩, -, h⟩ := Fault.bind_eq_ok.1 h
  obtain ⟨n', -, h⟩ := Fault.bind_eq_ok.1 h
  cases h
  exact (noteError_quiet (s := { s with agentState }) h1).2.2.1

theorem begin_sent (h : s.begin = .ok s') : s.network.medium.Sent 0 s'.network.medium := by
  obtain ⟨⟨agentState, answer⟩, -, h⟩ := Fault.bind_eq_ok.1 h
  obtain ⟨t, h1, h⟩ := Fault.bind_eq_ok.1 h
  obtain ⟨⟨n, started⟩, h2, h⟩ := Fault.bind_eq_ok.1 h
  obtain ⟨n', h3, h⟩ := Fault.bind_eq_ok.1 h
  cases h
  obtain ⟨⟨started', controller, events⟩, -, h2⟩ := Fault.bind_eq_ok.1 h2
  cases h2
  obtain ⟨⟨traffic, events'⟩, -, h3⟩ := Fault.bind_eq_ok.1 h3
  cases h3
  unfold noteError at h1
  split at h1
  · obtain ⟨stats, h4, rfl⟩ := Fault.map_eq_ok.1 h1
    have hsent : s.network.medium.stats.Sent 0 stats := Stats.sent_of_map h4 fun _ => ⟨rfl, rfl⟩
    exact ⟨hsent, rfl, rfl, Nat.le_refl _⟩
  · cases h1
    exact ⟨.refl _, rfl, rfl, Nat.le_refl _⟩

theorem reachable_of_begin {agent : Agent σ} {agentState : σ}
    (hnew : new config agent agentState = .ok s) (h : s.begin = .ok s') :
    Controller.Reachable config s'.network.controller := by
  have hn := still_of_new hnew
  obtain ⟨network, hn', rfl⟩ := Fault.map_eq_ok.1 hnew
  obtain ⟨positions, -, hn'⟩ := Fault.bind_eq_ok.1 hn'
  obtain ⟨controller, hc, hn'⟩ := Fault.bind_eq_ok.1 hn'
  cases hn'
  obtain ⟨m, m₁, -, -, -, -, hcontroller⟩ := begin_does hn.started h
  rw [hcontroller]
  exact (Controller.Reachable.new hc).started hn.started

end Simulation

theorem Environment.currentNode_lt {e : Environment} (h : 0 < e.nodeCount) :
    e.currentNode < e.nodeCount := by
  unfold currentNode
  rw [if_neg (Nat.ne_of_gt h)]
  exact Nat.mod_lt _ h

/-! ## Between the events of a run -/

namespace Watch

variable {σ : Type} {c : Config} {w w' : Watch σ} {e : Entry Event} {s : Simulation σ}

/-- What holds between two events: slots begin on time, the controller has come about by its operations,
and the environment is that of the configuration. -/
structure Regular (c : Config) (w : Watch σ) : Prop where
  onTime : w.OnTime c
  reachable : Controller.Reachable c w.network.controller
  nodeCount : w.simulation.environment.nodeCount = c.nodeCount
  horizon : w.simulation.environment.horizon = c.duration

/-- What handling an event is: the network handles it, or the environment takes its step, which after
the end of the run is no turn. -/
theorem Regular.cases (hc : c.Accepted) (hw : w.Regular c) (h : w.Handles e s w') :
    (e.event ≠ .envStep ∧ ∃ network handled, s.Serves e.event network handled w'.simulation) ∨
      (e.event = .envStep ∧ c.duration < e.time ∧ w'.simulation = { s with network :=
        { s.network with controller :=
          (s.network.controller.takeReward s.environment.currentNode).2 } }) ∨
      (e.event = .envStep ∧ e.time ≤ c.duration ∧
        s.Turn s.environment.currentNode w'.simulation) := by
  by_cases henv : e.event = .envStep
  · have hdispatch := h.dispatch
    rw [henv] at hdispatch
    have hnodes : s.environment.nodeCount = c.nodeCount :=
      (congrArg Environment.nodeCount h.environment).trans hw.nodeCount
    have hhorizon : s.environment.horizon = c.duration :=
      (congrArg Environment.horizon h.environment).trans hw.horizon
    have hlt := Environment.currentNode_lt (e := s.environment) (hnodes ▸ hc.nodeCount.1)
    rw [hnodes, ← h.nodeCount hw.onTime] at hlt
    have hcases := Simulation.dispatch_turn (h.staffed hw.onTime.staffed) hlt hdispatch
    rw [hhorizon, show s.now = e.time from h.now] at hcases
    rcases hcases with ⟨hlate, hsame⟩ | ⟨hle, hturn⟩
    · exact .inr (.inl ⟨henv, hlate, hsame⟩)
    · exact .inr (.inr ⟨henv, hle, hturn⟩)
  · exact .inl ⟨henv, Simulation.dispatch_serves h.dispatch henv⟩

theorem Regular.does (hc : c.Accepted) (hw : w.Regular c) (h : w.Handles e s w')
    (hne : e.event ≠ .envStep) :
    Medium.Does (fun a f => f.Plain ∧ f.transmitter = Address.ofNode a)
      (fun _ x => x.isDelivery = false) s.network.medium w'.medium := by
  have hstaffed := h.staffed hw.onTime.staffed
  have hdispatch := h.dispatch
  cases hevent : e.event with
  | startFrame =>
    have hopens := (hw.onTime.opens hc h (by rw [hevent]; rfl)).2.2.2.2
    refine hopens.sends.mono ?_ fun _ _ => id
    rintro a f ⟨-, node, -, rfl, hplain, hfrom⟩
    exact ⟨hplain, hfrom⟩
  | runSlot slot =>
    have hopens := (hw.onTime.opens hc h (by rw [hevent]; rfl)).2.2.2.2
    refine hopens.sends.mono ?_ fun _ _ => id
    rintro a f ⟨-, node, -, rfl, hplain, hfrom⟩
    exact ⟨hplain, hfrom⟩
  | continueSlot node slotEnd control =>
    rw [hevent] at hdispatch
    refine (Simulation.dispatch_continueSlot hstaffed h.ordered hdispatch).1.does.mono ?_ ?_
    · rintro a f ⟨-, -, rfl, hplain, hfrom⟩
      exact ⟨hplain, hfrom⟩
    · rintro t x ⟨-, -, -, rfl⟩
      rfl
  | deliver receiver frame =>
    have hsane := hw.onTime.traced.sane e h.mem
    rw [hevent] at hdispatch hsane
    exact (Simulation.dispatch_deliver hstaffed hsane hdispatch).1.does.mono
      (fun _ _ => False.elim) fun _ _ => False.elim
  | envStep => exact absurd hevent hne
  | arrival node =>
    rw [hevent] at hdispatch
    refine (Simulation.dispatch_arrival hstaffed hdispatch).1.does.mono (fun _ _ => False.elim) ?_
    rintro t x rfl
    rfl

/-- Handling an event marks deliveries that are under way and touches nothing else that waits. -/
theorem Regular.leads (hc : c.Accepted) (hw : w.Regular c) (h : w.Handles e s w') :
    Medium.Leads (fun _ x => x.isDelivery = false) s.network.medium w'.medium := by
  have htraced := h.traced hw.onTime.traced
  by_cases henv : e.event = .envStep
  · obtain ⟨-, -, hleads⟩ := Simulation.dispatch_passes (h.staffed hw.onTime.staffed) htraced
      (hw.onTime.traced.sane e h.mem) (by rw [henv]; rfl) h.dispatch
    refine hleads.mono fun t x hplan => ?_
    cases x <;> first | rfl | cases hplan
  · exact (hw.does hc h henv).leads htraced (fun _ _ hsend _ => hsend.1) fun _ _ => id

theorem Regular.now_of_handles (hc : c.Accepted) (hw : w.Regular c) (h : w.Handles e s w') :
    w'.medium.now = e.time := (hw.leads hc h).now.trans h.now

theorem Regular.handles (hc : c.Accepted) (hw : w.Regular c) (h : w.Handles e s w') :
    w'.Regular c := by
  have hreachable : Controller.Reachable c s.network.controller := by
    rw [h.controller]
    exact hw.reachable
  have hnodes : s.environment.nodeCount = c.nodeCount :=
    (congrArg Environment.nodeCount h.environment).trans hw.nodeCount
  have hhorizon : s.environment.horizon = c.duration :=
    (congrArg Environment.horizon h.environment).trans hw.horizon
  have hontime := hw.onTime.handles hc h
  rcases hw.cases hc h with ⟨-, network, handled, hserves⟩ | ⟨-, -, hdone⟩ | ⟨-, -, hturn⟩
  · exact ⟨hontime, hserves.reachable hreachable,
      (congrArg Environment.nodeCount hserves.environment).trans hnodes,
      (congrArg Environment.horizon hserves.environment).trans hhorizon⟩
  · refine ⟨hontime, ?_, ?_, ?_⟩
    · rw [network, hdone]
      exact hreachable.takeReward _
    · rw [hdone]
      exact hnodes
    · rw [hdone]
      exact hhorizon
  · exact ⟨hontime, hturn.reachable hreachable,
      (congrArg Environment.nodeCount hturn.environment).trans hnodes,
      (congrArg Environment.horizon hturn.environment).trans hhorizon⟩

theorem Regular.idles (hw : w.Regular c) (h : w.Idles w') : w'.Regular c :=
  ⟨hw.onTime.idles h, h.controller ▸ hw.reachable,
    (congrArg Environment.nodeCount h.environment).trans hw.nodeCount,
    (congrArg Environment.horizon h.environment).trans hw.horizon⟩

theorem Regular.start {agent : Agent σ} {agentState : σ} {s' : Simulation σ}
    (hnew : Simulation.new c agent agentState = .ok s) (h : s.begin = .ok s') :
    (start s').Regular c := by
  have henvironment : s'.environment = Environment.ofConfig c := by
    rw [Simulation.begin_environment h]
    obtain ⟨network, -, rfl⟩ := Fault.map_eq_ok.1 hnew
    rfl
  exact ⟨OnTime.start (Simulation.still_of_new hnew) h, Simulation.reachable_of_begin hnew h,
    congrArg Environment.nodeCount henvironment, congrArg Environment.horizon henvironment⟩

end Watch

end SlotNet
