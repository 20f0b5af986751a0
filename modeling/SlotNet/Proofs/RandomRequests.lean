import Mathlib.Data.List.Sort
import SlotNet.Proofs.Observation
import SlotNet.Proofs.Rewards
import SlotNet.Proofs.Sampling
import SlotNet.Run

/-!
# What the random agent asks for

The random agent is shown which slots nobody claims and asks for some of these, each once and in ascending
order (`choose_requests`), so its choices are the slots that the node reserves, and none of them costs it
anything (`Visit.Asks`). `Frugal` is what holds between two events: the agent takes up to as many slots as
an action holds, and nothing is due to any node.
-/

namespace SlotNet

variable {c : Config}

/-- An action asks for some slots in ascending order and is filled up. -/
structure Requests (most : Nat) (slots : List Nat) (action : Action) : Prop where
  ascending : slots.Pairwise (· < ·)
  length_le : slots.length ≤ most
  eq_append : action = slots.map Int.ofNat ++ List.replicate (most - slots.length) noSlot

theorem Requests.length_eq {most : Nat} {slots : List Nat} {action : Action}
    (h : Requests most slots action) : action.length = most := by
  rw [h.eq_append, List.length_append, List.length_map, List.length_replicate,
    Nat.add_sub_cancel' h.length_le]

/-! ## The answer -/

theorem Observation.mem_freeSlots {o : Observation} {slot : Nat} :
    slot ∈ o.freeSlots ↔ o.usage[slot]? = some 0 := by
  simp only [freeSlots, List.mem_map, List.mem_filter, Prod.exists, List.mem_zipIdx_iff_getElem?,
    beq_iff_eq]
  constructor
  · rintro ⟨code, place, ⟨hcode, rfl⟩, rfl⟩
    exact hcode
  · intro h
    exact ⟨0, slot, ⟨h, rfl⟩, rfl⟩

theorem Observation.nodup_freeSlots (o : Observation) : o.freeSlots.Nodup := by
  refine List.Nodup.sublist (List.filter_sublist.map _) ?_
  rw [List.zipIdx_map_snd]
  exact List.nodup_range'

namespace RandomAgent

variable {a a' : RandomAgent}

theorem slotCode_eq {slot : Nat} (h : slot < 2 ^ 31) : slotCode slot = slot :=
  Int.bmod_eq_of_le (by omega) (by omega)

theorem slotsWanted_le {queuedBytes free count : Nat} (h : a.slotsWanted queuedBytes free = .ok count) :
    count ≤ free ∧ count ≤ a.maxSlots := by
  unfold slotsWanted at h
  split at h
  · cases h
    exact ⟨Nat.zero_le _, Nat.zero_le _⟩
  · obtain ⟨n, -, rfl⟩ := Fault.map_eq_ok.1 h
    exact ⟨(Nat.min_le_left _ _).trans (Nat.min_le_right _ _), Nat.min_le_right _ _⟩

theorem mergeSort_slotCode {slots : List Nat} (h : ∀ slot ∈ slots, slot < 2 ^ 31) :
    (slots.map slotCode).mergeSort = slots.mergeSort.map Int.ofNat := by
  have hcodes : slots.map slotCode = slots.map Int.ofNat :=
    List.map_congr_left fun slot hslot => slotCode_eq (h slot hslot)
  rw [hcodes]
  exact (List.map_mergeSort fun x _ y _ => decide_eq_decide.2 Int.ofNat_le.symm).symm

theorem resize_eq_append {length : Nat} {action : Action} (h : action.length ≤ length) :
    resize length action = action ++ List.replicate (length - action.length) noSlot := by
  rw [resize, List.take_of_length_le h]

theorem maxSlots_of_act {step : Step} {answer : Except AgentError Action}
    (h : agent.act step a = .ok (a', answer)) : a'.maxSlots = a.maxSlots := by
  obtain ⟨⟨a₁, action⟩, hchoose, hanswer⟩ := Fault.map_eq_ok.1 h
  cases hanswer
  obtain ⟨count, -, hchoose⟩ := Fault.bind_eq_ok.1 hchoose
  generalize a.stream.choose step.observation.freeSlots count = drawn at hchoose
  cases hchoose
  rfl

theorem choose_requests {step : Step} {action : Action}
    (hsmall : ∀ slot ∈ step.observation.freeSlots, slot < 2 ^ 31) (h : choose step a = .ok (a', action)) :
    ∃ slots, Requests a.maxSlots slots action ∧ ∀ slot ∈ slots, slot ∈ step.observation.freeSlots := by
  obtain ⟨count, hcount, h⟩ := Fault.bind_eq_ok.1 h
  obtain ⟨hfew, hmost⟩ := slotsWanted_le hcount
  obtain ⟨hfree, hlength⟩ := Random.choose_subperm step.observation.freeSlots count a.stream
  rw [Nat.min_eq_left hfew] at hlength
  generalize a.stream.choose step.observation.freeSlots count = drawn at hfree hlength h
  obtain ⟨picked, stream⟩ := drawn
  obtain ⟨rfl, rfl⟩ := Prod.mk.inj (Except.ok.inj h)
  have hsorted : picked.mergeSort.Perm picked := List.mergeSort_perm picked _
  have hle : (picked.mergeSort.map Int.ofNat).length ≤ a.maxSlots := by
    rw [List.length_map, hsorted.length_eq, hlength]
    exact hmost
  refine ⟨picked.mergeSort, ⟨?_, ?_, ?_⟩, fun slot hslot => hfree.subset (hsorted.subset hslot)⟩
  · obtain ⟨picked', hperm, hsub⟩ := hfree
    have hnodup : picked'.Nodup := step.observation.nodup_freeSlots.sublist hsub
    have hascends := List.pairwise_mergeSort' (· ≤ ·) picked
    exact hascends.imp₂ (fun _ _ => Nat.lt_of_le_of_ne)
      (hsorted.nodup_iff.2 (hperm.nodup_iff.1 hnodup))
  · rwa [List.length_map] at hle
  · rw [mergeSort_slotCode fun slot hslot => hsmall slot (hfree.subset hslot), resize_eq_append hle,
      List.length_map]

end RandomAgent

/-! ## What is seen -/

namespace Environment

theorem mem_freeSlots_observe {e : Environment} {node slot : Nat} {controller : Controller}
    {q : TransmitQueue} {routes : Routes} :
    slot ∈ (e.observe node controller q routes).freeSlots ↔
      ∃ x, controller.claims.get .current node slot = some x ∧ x.isClaimed = false := by
  rw [Observation.mem_freeSlots]
  simp only [observe, observeVia, Controller.usage, List.getElem?_map, Option.map_eq_some_iff,
    usageCode_eq_zero_iff]
  refine exists_congr fun x => and_congr_left fun _ => ?_
  unfold ClaimTable.get
  cases controller.claims.row .current node with
  | none => simp
  | some row => simp

theorem filterMap_slotOf {e : Environment} {most : Nat} {slots : List Nat} {action : Action}
    (h : Requests most slots action) (hslots : ∀ slot ∈ slots, slot < e.dataSlots) :
    action.filterMap e.slotOf = slots := by
  have hnone : (List.replicate (most - slots.length) noSlot).filterMap e.slotOf = [] := by
    rw [List.filterMap_eq_nil_iff]
    intro entry hentry
    rw [List.eq_of_mem_replicate hentry]
    rfl
  have hslot : ∀ slot ∈ slots, (e.slotOf ∘ Int.ofNat) slot = some slot := fun slot hs =>
    if_pos (hslots slot hs)
  rw [h.eq_append, List.filterMap_append, hnone, List.append_nil, List.filterMap_map,
    List.filterMap_congr hslot, List.filterMap_some]

end Environment

/-! ## One visit -/

/-- The node asks for slots that it sees unclaimed. They become its own claims, and it pays nothing for
them. -/
structure Visit.Asks (c : Config) (v : Visit) (slots : List Nat) : Prop where
  requests : Requests c.reservation.maxSlotsPerAction slots v.action
  free : ∀ slot ∈ slots, slot < c.frame.dataSlots ∧
    ∃ x, v.before.claims.get .current v.node slot = some x ∧ x.isClaimed = false
  choices : v.before.choices = slots
  taken : ∀ slot ∈ slots,
    (v.before.reserved v.node).claims.get .current v.node slot = some (.own v.node)
  costless : (v.before.reserved v.node).rewards = v.before.rewards
  shown : v.step.rewards = List.replicate c.reservation.maxSlotsPerAction 0.0

section visit

variable {σ : Type} {s s' : Simulation σ} {v : Visit}

theorem Simulation.step_of_visit (h : s.visit = some v) :
    ∃ station, v.step = (s.observe v.node station false).1 := by
  obtain ⟨station, -, h⟩ := Option.bind_eq_some_iff.1 h
  obtain ⟨⟨agentState, answer⟩, -, h⟩ := Option.bind_eq_some_iff.1 h
  cases h
  exact ⟨station, rfl⟩

theorem Visit.Of.claims (hv : Visit.Of s v s') : v.before.claims = s.network.controller.claims := by
  rw [hv.before, Controller.readied, (Controller.sameFrame_chooseAll _ _).2,
    (Controller.sameFrame_takeReward _ _).2]

/-- A node that nothing is due to reserves from the controller as it is, with its choices added. -/
theorem Visit.Of.before_of_unpaid (hv : Visit.Of s v s') {most : Nat}
    (hrow : s.network.controller.rewards[v.node]? = some (List.replicate most 0.0)) :
    v.before = (v.action.filterMap s.environment.slotOf).foldl Controller.choose s.network.controller := by
  rw [hv.before, Controller.readied, Controller.takeReward_eq_self hrow]

theorem Visit.Of.choices (hv : Visit.Of s v s') (hlawful : s.network.controller.Lawful c)
    (hdata : s.environment.dataSlots = c.frame.dataSlots) (hchosen : s.network.controller.chosen = [])
    {most : Nat} (hrow : s.network.controller.rewards[v.node]? = some (List.replicate most 0.0))
    {slots : List Nat} (hrequests : Requests c.reservation.maxSlotsPerAction slots v.action)
    (hlt : ∀ slot ∈ slots, slot < c.frame.dataSlots) : v.before.choices = slots := by
  have hselected : v.action.filterMap s.environment.slotOf = slots :=
    Environment.filterMap_slotOf hrequests fun slot h => hdata ▸ hlt slot h
  have hbefore := hv.before_of_unpaid hrow
  rw [hselected] at hbefore
  obtain ⟨hframe, -⟩ := Controller.sameFrame_chooseAll s.network.controller slots
  have hpending := (Controller.chosen_chooseAll (c := s.network.controller) slots).1
  rw [hchosen, List.nil_append] at hpending
  rw [hbefore, Controller.choices, hpending, hframe.layout, hframe.rules, hlawful.layout, hlawful.rules]
  exact Controller.effective_eq_self hrequests.ascending hlt hrequests.length_le

end visit

section turn

variable {s s' : Simulation RandomAgent} {v : Visit}

theorem Visit.Of.requests (hv : Visit.Of s v s') (hslots : c.frame.dataSlots < 2 ^ 31)
    (hlawful : s.network.controller.Lawful c) (hagent : s.agent = RandomAgent.agent) :
    ∃ slots, Requests s.agentState.maxSlots slots v.action ∧ ∀ slot ∈ slots,
      slot < c.frame.dataSlots ∧
        ∃ x, v.before.claims.get .current v.node slot = some x ∧ x.isClaimed = false := by
  obtain ⟨agentState, answer, hact, haction⟩ := hv.asked
  rw [hagent] at hact
  obtain ⟨⟨a, action⟩, hchoose, hanswer⟩ := Fault.map_eq_ok.1 hact
  cases hanswer
  obtain ⟨station, hstep⟩ := Simulation.step_of_visit hv.visit
  have hfree : ∀ slot ∈ v.step.observation.freeSlots, slot < c.frame.dataSlots ∧
      ∃ x, v.before.claims.get .current v.node slot = some x ∧ x.isClaimed = false := by
    intro slot hslot
    rw [hstep] at hslot
    obtain ⟨x, hx, hunclaimed⟩ := Environment.mem_freeSlots_observe.1 hslot
    rw [hv.claims]
    refine ⟨?_, x, hx, hunclaimed⟩
    rw [← hlawful.layout]
    exact (hlawful.shaped.claims.lt_of_get hx).2
  obtain ⟨slots, hrequests, hsub⟩ :=
    RandomAgent.choose_requests (fun slot h => Nat.lt_trans (hfree slot h).1 hslots) hchoose
  exact ⟨slots, haction ▸ hrequests, fun slot h => hfree slot (hsub slot h)⟩

theorem Visit.Of.asks (hv : Visit.Of s v s') (hslots : c.frame.dataSlots < 2 ^ 31)
    (hlawful : s.network.controller.Lawful c) (hdata : s.environment.dataSlots = c.frame.dataSlots)
    (hagent : s.agent = RandomAgent.agent)
    (hmax : s.agentState.maxSlots = c.reservation.maxSlotsPerAction)
    (hchosen : s.network.controller.chosen = [])
    (hrow : s.network.controller.rewards[v.node]? =
      some (List.replicate c.reservation.maxSlotsPerAction 0.0)) : ∃ slots, v.Asks c slots := by
  obtain ⟨slots, hrequests, hfree⟩ := hv.requests hslots hlawful hagent
  rw [hmax] at hrequests
  have hchoices : v.before.choices = slots :=
    hv.choices hlawful hdata hchosen hrow hrequests fun slot h => (hfree slot h).1
  refine ⟨slots, hrequests, hfree, hchoices, fun slot h => ?_, ?_, ?_⟩
  · obtain ⟨-, x, hx, -⟩ := hfree slot h
    rw [Controller.get_reserved, if_pos ⟨rfl, rfl, hchoices.symm ▸ h⟩, hx]
    rfl
  · refine Controller.rewards_reserved_of_unseen fun slot h => ?_
    obtain ⟨-, x, hx, hunclaimed⟩ := hfree slot (hchoices ▸ h)
    rw [Controller.sees, hx]
    exact hunclaimed
  · rw [hv.shown.2, Controller.takeReward_eq_self hrow]

end turn

/-! ## The agent in the course of a run -/

namespace Simulation

variable {σ : Type} {s s' : Simulation σ}

theorem dispatch_agent {event : Event} (h : s.dispatch event = .ok s') : s'.agent = s.agent ∧
    (s'.agentState = s.agentState ∨
      ∃ step answer, s.agent.act step s.agentState = .ok (s'.agentState, answer)) := by
  obtain ⟨network, handled, stats, t, -, rfl, -, hrest⟩ := dispatch_cases h
  rcases hrest with ⟨-, medium, -, rfl⟩ | ⟨-, -, henv⟩ | ⟨-, -, rfl⟩
  · exact ⟨rfl, .inl rfl⟩
  · unfold envStep at henv
    dsimp only at henv
    split at henv
    · cases henv
      exact ⟨rfl, .inl rfl⟩
    · split at henv
      · cases henv
        exact ⟨rfl, .inl rfl⟩
      · obtain ⟨⟨t, action⟩, hask, henv⟩ := Fault.bind_eq_ok.1 henv
        obtain ⟨agentState, answer, stats', hact, -, -, -, rfl⟩ := ask_spec hask
        obtain ⟨⟨controller, medium, outcome⟩, -, henv⟩ := Fault.bind_eq_ok.1 henv
        obtain ⟨stats'', -, henv⟩ := Fault.bind_eq_ok.1 henv
        cases henv
        exact ⟨rfl, .inr ⟨_, answer, hact⟩⟩
  · exact ⟨rfl, .inl rfl⟩

theorem begin_agent (h : s.begin = .ok s') : s'.agent = s.agent ∧
    ∃ answer, s.agent.begin s.environment.spaces s.agentState = .ok (s'.agentState, answer) := by
  obtain ⟨⟨agentState, answer⟩, hbegin, h⟩ := Fault.bind_eq_ok.1 h
  obtain ⟨t, hnote, h⟩ := Fault.bind_eq_ok.1 h
  obtain ⟨⟨n, started⟩, -, h⟩ := Fault.bind_eq_ok.1 h
  obtain ⟨n', -, h⟩ := Fault.bind_eq_ok.1 h
  cases h
  unfold noteError at hnote
  split at hnote
  · obtain ⟨stats, -, rfl⟩ := Fault.map_eq_ok.1 hnote
    exact ⟨rfl, answer, hbegin⟩
  · cases hnote
    exact ⟨rfl, answer, hbegin⟩

end Simulation

/-! ## The whole run -/

namespace Watch

variable {w w' : Watch RandomAgent} {e : Entry Event} {s : Simulation RandomAgent} {visits : List Visit}

/-- The agent asked for free slots each time, and nothing is due to any node. -/
structure Frugal (c : Config) (w : Watch RandomAgent) (visits : List Visit) : Prop where
  fair : w.Fair c visits
  agent : w.simulation.agent = RandomAgent.agent
  maxSlots : w.simulation.agentState.maxSlots = c.reservation.maxSlotsPerAction
  unpaid : w.network.controller.rewards =
    List.replicate c.nodeCount (List.replicate c.reservation.maxSlotsPerAction 0.0)
  asks : ∀ v ∈ visits, ∃ slots, v.Asks c slots

theorem Frugal.agent_of_handles (hw : w.Frugal c visits) (h : w.Handles e s w') :
    (s.agent = RandomAgent.agent ∧ s.agentState.maxSlots = c.reservation.maxSlotsPerAction) ∧
      w'.simulation.agent = RandomAgent.agent ∧
      w'.simulation.agentState.maxSlots = c.reservation.maxSlotsPerAction := by
  have hagent : s.agent = RandomAgent.agent := by
    rw [h.simulation]
    exact hw.agent
  have hmax : s.agentState.maxSlots = c.reservation.maxSlotsPerAction := by
    rw [h.simulation]
    exact hw.maxSlots
  obtain ⟨hsame, hstate⟩ := Simulation.dispatch_agent h.dispatch
  refine ⟨⟨hagent, hmax⟩, hsame.trans hagent, ?_⟩
  rcases hstate with heq | ⟨step, answer, hact⟩
  · rw [heq, hmax]
  · rw [hagent] at hact
    rw [RandomAgent.maxSlots_of_act hact, hmax]

/-- At a visit the agent asks for free slots, and the node is left with what it had. -/
theorem Frugal.visit (hc : c.Accepted) (hslots : c.frame.dataSlots < 2 ^ 31) (hw : w.Frugal c visits)
    (h : w.Handles e s w') (hle : e.time ≤ c.duration) {v : Visit} (hv : Visit.Of s v w'.simulation) :
    (∃ slots, v.Asks c slots) ∧ w'.network.controller.rewards = s.network.controller.rewards := by
  obtain ⟨hdata, -, hnode, -⟩ := hw.fair.environment hc h
  obtain ⟨⟨hagent, hmax⟩, -⟩ := hw.agent_of_handles h
  have hcontroller : s.network.controller = w.network.controller := h.controller
  have hpast : w.medium.now ≤ e.time := hw.fair.regular.onTime.traced.ordered.now_le e h.mem
  have hrow : s.network.controller.rewards[v.node]? =
      some (List.replicate c.reservation.maxSlotsPerAction 0.0) := by
    rw [hcontroller, hw.unpaid, List.getElem?_replicate, if_pos (hv.node ▸ hnode)]
  have hasks := hv.asks hslots (hcontroller ▸ hw.fair.regular.reachable.lawful hc) hdata hagent hmax
    (hcontroller ▸ (hw.fair.credited (hpast.trans hle)).chosen) hrow
  obtain ⟨slots, hslots⟩ := hasks
  obtain ⟨m, m', o, hreserve⟩ := hv.reserves
  have hreserved : w'.network.controller = v.before.reserved v.node :=
    (Controller.reserve_ok hreserve).1
  refine ⟨⟨slots, hslots⟩, ?_⟩
  rw [hreserved, hslots.costless, hv.before_of_unpaid hrow, (Controller.chosen_chooseAll _).2]

theorem Frugal.handles (hc : c.Accepted) (hslots : c.frame.dataSlots < 2 ^ 31) (hw : w.Frugal c visits)
    (h : w.Handles e s w') : w'.Frugal c (visits ++ w.visit.toList) := by
  obtain ⟨-, -, hnode, -⟩ := hw.fair.environment hc h
  obtain ⟨-, hagent, hmax⟩ := hw.agent_of_handles h
  have hcontroller : s.network.controller = w.network.controller := h.controller
  have hunpaid := hw.unpaid
  rw [← hcontroller] at hunpaid
  have hfair := hw.fair.handles hc h
  rcases hw.fair.cases hc h with ⟨hvisit, -, hsame⟩ | ⟨hvisit, -, hdone⟩ | ⟨v, hvisit, hle, hv, -⟩
  · rw [hvisit, Option.toList_none, List.append_nil] at hfair ⊢
    exact ⟨hfair, hagent, hmax, hsame.rewards.trans hunpaid, hw.asks⟩
  · rw [hvisit, Option.toList_none, List.append_nil] at hfair ⊢
    have hrow : s.network.controller.rewards[s.environment.currentNode]? =
        some (List.replicate c.reservation.maxSlotsPerAction 0.0) := by
      rw [hunpaid, List.getElem?_replicate, if_pos hnode]
    refine ⟨hfair, hagent, hmax, ?_, hw.asks⟩
    show w'.simulation.network.controller.rewards = _
    rw [hdone, Controller.takeReward_eq_self hrow]
    exact hunpaid
  · obtain ⟨hasks, hrewards⟩ := hw.visit hc hslots h hle hv
    rw [hvisit, Option.toList_some] at hfair ⊢
    refine ⟨hfair, hagent, hmax, hrewards.trans hunpaid, fun u hu => ?_⟩
    rcases List.mem_append.1 hu with hu | hu
    · exact hw.asks u hu
    · exact List.mem_singleton.1 hu ▸ hasks

theorem Frugal.step (hc : c.Accepted) (hslots : c.frame.dataSlots < 2 ^ 31) (hw : w.Frugal c visits)
    {a : Act} (h : w.step a = some w') : w'.Frugal c (visits ++ w.visits a) := by
  have hfair := hw.fair.step hc h
  cases a with
  | next limit =>
    obtain ⟨e, s, hh⟩ := handles_of_step hw.fair.regular.onTime.traced.ordered h
    exact hw.handles hc hslots hh
  | change traffic =>
    cases h
    exact ⟨hfair, hw.agent, hw.maxSlots, hw.unpaid, (List.append_nil visits).symm ▸ hw.asks⟩
  | arrival time node =>
    cases h
    exact ⟨hfair, hw.agent, hw.maxSlots, hw.unpaid, (List.append_nil visits).symm ▸ hw.asks⟩

theorem Frugal.start {a : RandomAgent} (ha : c.reservation.maxSlotsPerAction ≤ a.maxSlots)
    {s s' : Simulation RandomAgent} (hnew : Simulation.new c RandomAgent.agent a = .ok s)
    (h : s.begin = .ok s') : (start s').Frugal c [] := by
  have hfair := Fair.start hnew h
  obtain ⟨m, m₁, -, -, -, -, hcontroller⟩ :=
    Simulation.begin_does (Simulation.still_of_new hnew).started h
  obtain ⟨hagent, answer, hbegin⟩ := Simulation.begin_agent h
  obtain ⟨network, hnetwork, rfl⟩ := Fault.map_eq_ok.1 hnew
  obtain ⟨positions, -, hnetwork⟩ := Fault.bind_eq_ok.1 hnetwork
  obtain ⟨controller, hmade, hnetwork⟩ := Fault.bind_eq_ok.1 hnetwork
  cases hnetwork
  refine ⟨hfair, hagent, ?_, ?_, fun v hv => by cases hv⟩
  · have hmax : s'.agentState.maxSlots = min a.maxSlots c.reservation.maxSlotsPerAction :=
      congrArg (fun x => x.1.maxSlots) (Except.ok.inj hbegin).symm
    exact hmax.trans (Nat.min_eq_right ha)
  · show s'.network.controller.rewards = _
    rw [hcontroller]
    exact (Controller.credit_ofConfig hmade).2

theorem maxSlots_randomAgent {a : RandomAgent} (h : Run.randomAgent c = .ok a) :
    a.maxSlots = c.reservation.maxSlotsPerAction := by
  obtain ⟨capacity, -, rfl⟩ := Fault.map_eq_ok.1 h
  rfl

/-- In every run of an accepted configuration with a random agent that takes up to as many slots as an
action holds, as the one of the configuration does (`maxSlots_randomAgent`), whenever packets arrive:

Each action has as many entries as an action can have, first the slots that are asked for in ascending
order and then no slots. What is asked for was unclaimed before, as the node sees it, and is claimed by the
node afterwards; these choices count and no others, and the reservation leaves the rewards alone. Nothing is
ever due to any node. What is noted is what the step does, and it starts from the claims of this time. -/
theorem random_requests_free (hc : c.Accepted) (hslots : c.frame.dataSlots < 2 ^ 31) {a : RandomAgent}
    (ha : c.reservation.maxSlotsPerAction ≤ a.maxSlots) {s s' : Simulation RandomAgent}
    (hnew : Simulation.new c RandomAgent.agent a = .ok s) (hbegin : s.begin = .ok s') {acts : List Act}
    (hrun : run acts (Watch.start s') = some w) :
    (∀ v ∈ record Watch.visits acts (Watch.start s'),
      v.action.length = c.reservation.maxSlotsPerAction ∧ ∃ slots, v.Asks c slots) ∧
    w.network.controller.rewards =
      List.replicate c.nodeCount (List.replicate c.reservation.maxSlotsPerAction 0.0) ∧
    (∀ e t w', w.Handles e t w' → e.event = .envStep → e.time ≤ c.duration →
      ∃ v, w.visit = some v ∧ Visit.Of t v w'.simulation ∧
        v.before.claims = w.network.controller.claims ∧
        w'.network.controller = v.before.reserved v.node) := by
  have hw := record_induction (P := fun w visits => w.Frugal c visits)
    (fun _ _ _ _ hw hstep => hw.step hc hslots hstep) (Frugal.start ha hnew hbegin) hrun
  rw [List.nil_append] at hw
  refine ⟨fun v hv => ?_, hw.unpaid, fun e t w' h heq hle => ?_⟩
  · obtain ⟨slots, hasks⟩ := hw.asks v hv
    exact ⟨hasks.requests.length_eq, slots, hasks⟩
  · rcases hw.fair.regular.cases hc h with ⟨hne, -⟩ | ⟨-, hlate, -⟩ | ⟨-, -, hturn⟩
    · exact absurd heq hne
    · exact absurd hle (Nat.not_le_of_lt hlate)
    · obtain ⟨v, hvisit, hv⟩ := hw.fair.visit_of_turn hc h heq hle hturn
      obtain ⟨m, m', o, hreserve⟩ := hv.reserves
      refine ⟨v, hvisit, hv, ?_, (Controller.reserve_ok hreserve).1⟩
      rw [hv.claims, h.controller]

/-- A packet for node 1 is made at node 0, and both nodes have a step. -/
def firstSteps : List Act := .arrival 0 0 :: List.replicate 8 (.next (Time.ofMillis 10))

theorem run_firstSteps : ∃ s s',
    Simulation.new Config.pair RandomAgent.agent (RandomAgent.new 3 0 3) = .ok s ∧ s.begin = .ok s' ∧
      (run firstSteps (Watch.start s')).isSome ∧
      (record Watch.visits firstSteps (Watch.start s'))[0]?.map (fun v : Visit => v.node) = some 0 ∧
      (record Watch.visits firstSteps (Watch.start s'))[0]?.map (fun v : Visit => v.action) =
        some [0, -1, -1] :=
  ⟨_, _, rfl, rfl, by decide +kernel, by decide +kernel, by decide +kernel⟩

/-- Node 0 has a packet to send, and it asks for the only data slot and gets it. -/
theorem random_requests_free_pair : ∃ s s' w,
    Simulation.new Config.pair RandomAgent.agent (RandomAgent.new 3 0 3) = .ok s ∧ s.begin = .ok s' ∧
      run firstSteps (Watch.start s') = some w ∧
      w.network.controller.rewards = List.replicate 2 (List.replicate 3 0.0) ∧
      ∃ v, (record Watch.visits firstSteps (Watch.start s'))[0]? = some v ∧ v.Asks Config.pair [0] ∧
        (v.before.reserved 0).claims.get .current 0 0 = some (.own 0) := by
  obtain ⟨s, s', hnew, hbegin, hrun, hnode, haction⟩ := run_firstSteps
  obtain ⟨w, hw⟩ := Option.isSome_iff_exists.1 hrun
  obtain ⟨v, hv, hnode⟩ := Option.map_eq_some_iff.1 hnode
  rw [hv] at haction
  replace haction : v.action = [0, -1, -1] := Option.some.inj haction
  obtain ⟨hall, hrewards, -⟩ := random_requests_free Config.accepted_pair (by decide)
    (a := RandomAgent.new 3 0 3) (Nat.le_refl 3) hnew hbegin hw
  obtain ⟨-, slots, hasks⟩ := hall v (List.mem_of_getElem? hv)
  have hslots : slots = [0] := by
    have heq := hasks.requests.eq_append
    rw [haction] at heq
    rcases slots with _ | ⟨first, _ | ⟨second, slots⟩⟩
    · cases heq
    · simpa using (List.cons.inj heq).1.symm
    · cases (List.cons.inj (List.cons.inj heq).2).1
  subst hslots
  have htaken := hasks.taken 0 (.head _)
  rw [hnode] at htaken
  exact ⟨s, s', w, hnew, hbegin, hw, hrewards, v, hv, hasks, htaken⟩

end Watch

end SlotNet
