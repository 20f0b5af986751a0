import SlotNet.Proofs.Controller.Rewards
import SlotNet.Proofs.Diary

/-!
# Rewards reach the node that earned them

A reservation leaves what its choices earned with the controller, and the next step of the node takes it
away. Written down is every step that the agent was asked about (`Visit`), with the controller at its
reservation. `Credited` is what holds between two events: no choice is pending, and with the controller
is, for each node, what its last reservation earned.
-/

namespace SlotNet

variable {σ : Type}

/-- A step of the environment that the agent was asked about. -/
structure Visit where
  node : Nat
  /-- What the agent was shown. -/
  step : Step
  /-- What it chose, or the empty action if it gave no answer. -/
  action : Action
  /-- The controller when the node reserves. -/
  before : Controller

def Simulation.visit (s : Simulation σ) : Option Visit := do
  let node := s.environment.currentNode
  let station ← s.network.stations[node]?
  let (step, s) := s.observe node station false
  let (_, answer) ← (s.agent.act step s.agentState).toOption
  let action := answer.toOption.getD s.environment.idle
  return {
    node, step, action
    before := (action.filterMap s.environment.slotOf).foldl Controller.choose s.network.controller }

namespace Watch

/-- The run when the next event has been taken out of the queue. -/
def poppedRun (w : Watch σ) : Simulation σ := (w.setNetwork w.popped).simulation

def visit (w : Watch σ) : Option Visit :=
  if w.medium.events.settle.entries.head?.any (·.event = .envStep) ∧
      ¬ w.poppedRun.environment.isDone w.poppedRun.now then
    w.poppedRun.visit
  else none

def visits (w : Watch σ) : Act → List Visit
  | .next _ => w.visit.toList
  | _ => []

def record {α : Type} (note : Watch σ → Act → List α) : List Act → Watch σ → List α
  | [], _ => []
  | a :: rest, w => note w a ++ ((w.step a).map (record note rest)).getD []

variable {w w' : Watch σ}

theorem record_induction {α : Type} {note : Watch σ → Act → List α} {P : Watch σ → List α → Prop}
    (hstep : ∀ w noted a w', P w noted → w.step a = some w' → P w' (noted ++ note w a))
    {acts : List Act} {noted : List α} (h0 : P w noted) (h : run acts w = some w') :
    P w' (noted ++ record note acts w) := by
  induction acts generalizing w noted with
  | nil =>
    cases h
    rw [record, List.append_nil]
    exact h0
  | cons a acts ih =>
    obtain ⟨t, ht, h⟩ := Option.bind_eq_some_iff.1 h
    have hrest := ih (hstep w noted a t h0 ht) h
    rw [record, ht, Option.map_some, Option.getD_some]
    rwa [List.append_assoc] at hrest

end Watch

/-! ## What is due -/

/-- What the choice with a number earned the node: the penalty if the node saw the slot claimed. -/
def Visit.earned (c : Config) (v : Visit) (j : Nat) : Float32 :=
  if v.before.choices[j]?.any (v.before.sees v.node) then 0.0 + c.reservation.usedSlotPenalty
  else 0.0

/-- What the choice with a number earned a node at its last visit, if there was one. -/
def Config.due (c : Config) (visits : List Visit) (node j : Nat) : Float32 :=
  match (visits.filter (·.node = node)).getLast? with
  | some v => v.earned c j
  | none => 0.0

/-- All that is due to a node. -/
def Config.dues (c : Config) (visits : List Visit) (node : Nat) : List Float32 :=
  (List.range c.reservation.maxSlotsPerAction).map fun j => c.due visits node j

variable {c : Config}

theorem Config.dues_append_of_ne {visits : List Visit} {v : Visit} {node : Nat} (h : v.node ≠ node) :
    c.dues (visits ++ [v]) node = c.dues visits node := by
  have hfilter : (visits ++ [v]).filter (·.node = node) = visits.filter (·.node = node) := by
    simp [h]
  simp only [dues, due, hfilter]

theorem Config.dues_append_self {visits : List Visit} {v : Visit}
    (hrules : v.before.rules = c.reservation) :
    c.dues (visits ++ [v]) v.node = v.before.earnings v.node := by
  have hfilter : (visits ++ [v]).filter (·.node = v.node) =
      visits.filter (·.node = v.node) ++ [v] := by
    simp
  simp only [dues, due, hfilter, List.getLast?_concat, Visit.earned, Controller.earnings, hrules]

theorem Config.dues_nil (node : Nat) :
    c.dues [] node = List.replicate c.reservation.maxSlotsPerAction 0.0 := by
  simp only [dues, due, List.filter_nil, List.getLast?_nil, List.map_const', List.length_range]

theorem Config.length_dues (visits : List Visit) (node : Nat) :
    (c.dues visits node).length = c.reservation.maxSlotsPerAction := by
  rw [dues, List.length_map, List.length_range]

/-! ## Events -/

theorem Network.handle_sameCredit {n n' : Network} {event : Event} {handled : Handled}
    (h : n.handle event = .ok (n', handled)) : n.controller.SameCredit n'.controller := by
  have hslot : ∀ {n n' : Network} {slot : Nat} {grants : List Grant},
      n.runSlot slot = .ok (n', grants) → n.controller.SameCredit n'.controller := by
    intro n n' slot grants h
    rcases controller_runSlot_cases h with hopened | ⟨-, hpast⟩
    · rw [hopened]
      exact Controller.sameCredit_openSlot _ _
    · rw [hpast]
      exact .refl _
  cases event with
  | startFrame =>
    obtain ⟨⟨n₁, grants⟩, h1, h⟩ := Fault.map_eq_ok.1 h
    cases h
    exact (Controller.sameCredit_beginFrame n.controller).trans
      (hslot (n := { n with controller := n.controller.beginFrame, medium := _ }) h1)
  | runSlot slot =>
    obtain ⟨⟨n₁, grants⟩, h1, h⟩ := Fault.map_eq_ok.1 h
    cases h
    exact hslot h1
  | continueSlot node slotEnd control =>
    rcases continueSlot_cases h with ⟨rfl, -⟩ | ⟨s, s', m, sent, -, -, -, rfl⟩ <;> exact .refl _
  | deliver receiver frame =>
    rcases deliver_cases h with ⟨rfl, -, -⟩ | ⟨s, s', m, what, -, -, hwhat⟩
    · exact .refl _
    rcases hwhat with ⟨content, result, -, -, hmerge⟩ | ⟨-, rfl⟩
    · obtain ⟨-, stats, -, rfl⟩ := merge_cases hmerge
      exact Controller.sameCredit_merge _ _ _
    · exact .refl _
  | envStep =>
    cases h
    exact .refl _
  | arrival node =>
    rcases arrive_cases h with ⟨rfl, -⟩ | ⟨s, s', m, traffic, destination, -, -, -, rfl⟩ <;>
      exact .refl _

/-- The controller at the reservation of a node: its rewards were taken, and slots were chosen. -/
def Controller.readied (c : Controller) (node : Nat) (slots : List Nat) : Controller :=
  slots.foldl choose (c.takeReward node).2

theorem Controller.readied_spec {c : Controller} {node : Nat} {row : List Float32}
    (hchosen : c.chosen = []) (hrow : c.rewards[node]? = some row)
    (hlength : row.length = c.rules.maxSlotsPerAction) (slots : List Nat) :
    (c.readied node slots).chosen = slots ∧ (c.readied node slots).rules = c.rules ∧
      ∀ n, ((c.readied node slots).reserved node).rewards[n]? =
        if n = node then some ((c.readied node slots).earnings node) else c.rewards[n]? := by
  have hrules : (c.readied node slots).rules = c.rules :=
    (sameFrame_chooseAll _ slots).1.rules.trans (sameFrame_takeReward c node).1.rules
  obtain ⟨hchoices, hrewards⟩ := chosen_chooseAll (c := (c.takeReward node).2) slots
  rw [takeReward_of_some hrow, hlength] at hchoices hrewards
  have hlt : node < c.rewards.length := (List.getElem?_eq_some_iff.1 hrow).1
  have htaken : (c.readied node slots).rewards =
      c.rewards.set node (List.replicate c.rules.maxSlotsPerAction 0.0) := by
    rw [readied, takeReward_of_some hrow, hlength]
    exact hrewards
  refine ⟨?_, hrules, fun n => ?_⟩
  · rw [readied, takeReward_of_some hrow, hlength, hchoices]
    exact congrArg (· ++ slots) hchosen
  · split
    · rename_i heq
      rw [heq]
      refine rewards_reserved_self ?_
      rw [htaken, unpaid, hrules]
      exact List.getElem?_set_self hlt
    · rename_i hne
      rw [rewards_reserved_of_ne hne, htaken, List.getElem?_set_ne (Ne.symm hne)]

/-- The visit of a turn: the agent is asked about the step that is noted, and the reservation of the
node starts from the controller that is noted. -/
structure Visit.Of (s : Simulation σ) (v : Visit) (s' : Simulation σ) : Prop where
  visit : s.visit = some v
  node : v.node = s.environment.currentNode
  shown : v.step.node = v.node ∧ v.step.rewards = (s.network.controller.takeReward v.node).1
  before : v.before = s.network.controller.readied v.node (v.action.filterMap s.environment.slotOf)
  asked : ∃ agentState answer, s.agent.act v.step s.agentState = .ok (agentState, answer) ∧
    v.action = answer.toOption.getD s.environment.idle
  reserves : ∃ m m' o, v.before.reserve m v.node = .ok (s'.network.controller, m', o)

theorem Simulation.Turn.visit {s s' : Simulation σ} (h : s.Turn s.environment.currentNode s') :
    ∃ v, Visit.Of s v s' := by
  obtain ⟨station, agentState, answer, action, stats, m, o, hstation, hact, rfl, -, -, hreserve, -, -⟩ :=
    h.reserves
  refine ⟨⟨s.environment.currentNode, (s.observe s.environment.currentNode station false).1, _, _⟩,
    ?_, rfl, ⟨rfl, rfl⟩, rfl, ⟨agentState, answer, hact, rfl⟩, ⟨_, _, _, hreserve⟩⟩
  have hact' : (s.observe s.environment.currentNode station false).2.agent.act
      (s.observe s.environment.currentNode station false).1
      (s.observe s.environment.currentNode station false).2.agentState = .ok (agentState, answer) :=
    hact
  unfold Simulation.visit
  dsimp only
  rw [hstation, Option.bind_eq_bind, Option.bind_some, hact']
  rfl

namespace Watch

variable {w w' : Watch σ} {e : Entry Event} {s : Simulation σ} {visits : List Visit}

theorem visit_of_handles (h : w.Handles e s w') : w.visit =
    if e.event = .envStep ∧ ¬ s.environment.isDone s.now then s.visit else none := by
  have hrun : w.poppedRun = s := by
    rw [poppedRun, popped, h.popped]
    exact h.simulation.symm
  simp only [visit, h.head, hrun, Option.any_some, decide_eq_true_iff]

/-- What holds between two events up to the end of the run: no choice is pending, and what is due to each
node is with the controller. -/
structure Credited (c : Config) (w : Watch σ) (visits : List Visit) : Prop where
  chosen : w.network.controller.chosen = []
  rewards : ∀ node < c.nodeCount, w.network.controller.rewards[node]? = some (c.dues visits node)

theorem Credited.ofSame (h : w.Credited c visits)
    (hsame : w.network.controller.SameCredit w'.network.controller) : w'.Credited c visits :=
  ⟨hsame.chosen.trans h.chosen, fun node hnode => by rw [hsame.rewards, h.rewards node hnode]⟩

/-- The agent is shown what is due to the node, and after the turn the node is due what the choices of
this turn earn. -/
theorem Credited.turn (hc : c.Accepted) (hw : w.Regular c) (hcredit : w.Credited c visits)
    (h : w.Handles e s w') {v : Visit} (hv : Visit.Of s v w'.simulation)
    (hnode : v.node < c.nodeCount) :
    v.step.rewards = c.dues visits v.node ∧
      v.before.chosen = v.action.filterMap s.environment.slotOf ∧
      w'.Credited c (visits ++ [v]) := by
  have hcontroller : s.network.controller = w.network.controller := h.controller
  have hrow := hcredit.rewards v.node hnode
  have hrules : w.network.controller.rules = c.reservation := (hw.reachable.lawful hc).rules
  have hlength : (c.dues visits v.node).length = w.network.controller.rules.maxSlotsPerAction := by
    rw [Config.length_dues, hrules]
  obtain ⟨hchosen, hsame, hrewards⟩ := Controller.readied_spec hcredit.chosen hrow hlength
    (v.action.filterMap s.environment.slotOf)
  rw [← hcontroller, ← hv.before] at hchosen hsame hrewards
  obtain ⟨m, m', o, hreserve⟩ := hv.reserves
  have hreserved : w'.network.controller = v.before.reserved v.node :=
    (Controller.reserve_ok hreserve).1
  refine ⟨?_, hchosen, ?_, fun node hn => ?_⟩
  · rw [hv.shown.2, hcontroller, Controller.takeReward_of_some hrow]
  · rw [hreserved, Controller.chosen_reserved]
  · rw [hreserved, hrewards]
    split
    · rename_i heq
      rw [heq, Config.dues_append_self (hsame.trans (hcontroller ▸ hrules))]
    · rename_i hne
      rw [Config.dues_append_of_ne (Ne.symm hne), hcontroller, hcredit.rewards node hn]

/-- What is noted is right so far, and what is due is there. -/
structure Fair (c : Config) (w : Watch σ) (visits : List Visit) : Prop where
  regular : w.Regular c
  dataSlots : w.simulation.environment.dataSlots = c.frame.dataSlots
  credited : w.medium.now ≤ c.duration → w.Credited c visits
  /-- At each visit the agent was shown what was due, and only its own choices were pending. -/
  shown : ∀ i v, visits[i]? = some v → v.step.node = v.node ∧
    v.step.rewards = c.dues (visits.take i) v.node ∧
    v.before.chosen = v.action.filterMap (Environment.ofConfig c).slotOf

theorem slotOf_eq {env : Environment} (h : env.dataSlots = c.frame.dataSlots) :
    env.slotOf = (Environment.ofConfig c).slotOf := by
  funext entry
  unfold Environment.slotOf
  rw [h]
  rfl

theorem Fair.shown_append (hw : w.Fair c visits) {v : Visit} (hnode : v.step.node = v.node)
    (hrewards : v.step.rewards = c.dues visits v.node)
    (hchosen : v.before.chosen = v.action.filterMap (Environment.ofConfig c).slotOf) :
    ∀ i u, (visits ++ [v])[i]? = some u → u.step.node = u.node ∧
      u.step.rewards = c.dues ((visits ++ [v]).take i) u.node ∧
      u.before.chosen = u.action.filterMap (Environment.ofConfig c).slotOf := by
  intro i u hu
  by_cases hi : i < visits.length
  · rw [List.getElem?_append_left hi] at hu
    rw [List.take_append_of_le_length (Nat.le_of_lt hi)]
    exact hw.shown i u hu
  · have hlt := (List.getElem?_eq_some_iff.1 hu).1
    rw [List.length_append, List.length_singleton] at hlt
    obtain rfl : i = visits.length := by omega
    rw [List.getElem?_concat_length] at hu
    cases hu
    rw [List.take_left]
    exact ⟨hnode, hrewards, hchosen⟩

theorem Fair.environment (hc : c.Accepted) (hw : w.Fair c visits) (h : w.Handles e s w') :
    s.environment.dataSlots = c.frame.dataSlots ∧ s.environment.horizon = c.duration ∧
      s.environment.currentNode < c.nodeCount ∧ s.now = e.time := by
  have hnodes : s.environment.nodeCount = c.nodeCount := by
    rw [h.environment]
    exact hw.regular.nodeCount
  refine ⟨?_, ?_, ?_, h.now⟩
  · rw [h.environment]
    exact hw.dataSlots
  · rw [h.environment]
    exact hw.regular.horizon
  · rw [← hnodes]
    exact Environment.currentNode_lt (hnodes ▸ hc.nodeCount.1)

theorem Fair.visit_of_turn (hc : c.Accepted) (hw : w.Fair c visits) (h : w.Handles e s w')
    (heq : e.event = .envStep) (hle : e.time ≤ c.duration)
    (hturn : s.Turn s.environment.currentNode w'.simulation) :
    ∃ v, w.visit = some v ∧ Visit.Of s v w'.simulation := by
  obtain ⟨-, hhorizon, -, hnow⟩ := hw.environment hc h
  have hearly : ¬ s.environment.isDone s.now := by
    rw [Environment.isDone, hhorizon, hnow, decide_eq_true_iff]
    exact Nat.not_lt_of_le hle
  obtain ⟨v, hv⟩ := hturn.visit
  refine ⟨v, ?_, hv⟩
  rw [visit_of_handles h, if_pos ⟨heq, hearly⟩, hv.visit]

/-- An event makes no visit and leaves rewards and choices alone, or it is the step that ends the run, or
it makes a visit. -/
theorem Fair.cases (hc : c.Accepted) (hw : w.Fair c visits) (h : w.Handles e s w') :
    (w.visit = none ∧ w'.simulation.environment = s.environment ∧
      s.network.controller.SameCredit w'.network.controller) ∨
    (w.visit = none ∧ c.duration < e.time ∧ w'.simulation = { s with network :=
      { s.network with controller :=
        (s.network.controller.takeReward s.environment.currentNode).2 } }) ∨
    ∃ v, w.visit = some v ∧ e.time ≤ c.duration ∧ Visit.Of s v w'.simulation ∧
      w'.simulation.environment = s.environment.advance := by
  obtain ⟨-, hhorizon, -, hnow⟩ := hw.environment hc h
  have hvisit := visit_of_handles h
  rcases hw.regular.cases hc h with ⟨hne, network, handled, hserves⟩ | ⟨-, hlate, hdone⟩ |
    ⟨heq, hle, hturn⟩
  · rw [if_neg fun hstep => hne hstep.1] at hvisit
    have hsame := Network.handle_sameCredit hserves.handle
    rw [← hserves.controller] at hsame
    exact .inl ⟨hvisit, hserves.environment, hsame⟩
  · rw [if_neg fun hstep => hstep.2 (decide_eq_true (by rw [hhorizon, hnow]; exact hlate))] at hvisit
    exact .inr (.inl ⟨hvisit, hlate, hdone⟩)
  · obtain ⟨v, hnoted, hv⟩ := hw.visit_of_turn hc h heq hle hturn
    exact .inr (.inr ⟨v, hnoted, hle, hv, hturn.environment⟩)

theorem Fair.handles (hc : c.Accepted) (hw : w.Fair c visits) (h : w.Handles e s w') :
    w'.Fair c (visits ++ w.visit.toList) := by
  obtain ⟨hslots, -, hnode, -⟩ := hw.environment hc h
  have hpast : w.medium.now ≤ e.time := hw.regular.onTime.traced.ordered.now_le e h.mem
  have hnow' : w'.medium.now = e.time := hw.regular.now_of_handles hc h
  have hregular := hw.regular.handles hc h
  rcases hw.cases hc h with ⟨hvisit, henv, hsame⟩ | ⟨hvisit, hlate, hdone⟩ |
    ⟨v, hvisit, hle, hv, henv⟩
  · rw [hvisit, Option.toList_none, List.append_nil]
    rw [h.controller] at hsame
    exact ⟨hregular, henv ▸ hslots, fun hle => (hw.credited (hpast.trans (hnow' ▸ hle))).ofSame hsame,
      hw.shown⟩
  · rw [hvisit, Option.toList_none, List.append_nil]
    refine ⟨hregular, ?_, fun hle => ?_, hw.shown⟩
    · rw [hdone]
      exact hslots
    · exact absurd (hnow' ▸ hle) (Nat.not_le_of_lt hlate)
  · obtain ⟨hrewards, hchosen, hcredited⟩ := (hw.credited (hpast.trans hle)).turn hc hw.regular h hv
      (hv.node ▸ hnode)
    rw [slotOf_eq hslots] at hchosen
    rw [hvisit, Option.toList_some]
    refine ⟨hregular, ?_, fun _ => hcredited, hw.shown_append hv.shown.1 hrewards hchosen⟩
    rw [henv]
    exact hslots

theorem Fair.idles (hw : w.Fair c visits) (h : w.Idles w') : w'.Fair c visits := by
  have hnow : w'.medium.now = w.medium.now := (h.leads hw.regular.onTime.traced).now
  refine ⟨hw.regular.idles h, ?_, fun hle => ?_, hw.shown⟩
  · rw [h.environment]
    exact hw.dataSlots
  · refine (hw.credited (hnow ▸ hle)).ofSame ?_
    rw [h.controller]
    exact .refl _

theorem Fair.step (hc : c.Accepted) (hw : w.Fair c visits) {a : Act} (h : w.step a = some w') :
    w'.Fair c (visits ++ w.visits a) := by
  cases a with
  | next limit =>
    obtain ⟨e, s, hh⟩ := handles_of_step hw.regular.onTime.traced.ordered h
    exact hw.handles hc hh
  | change traffic =>
    cases h
    show Fair c _ (visits ++ [])
    rw [List.append_nil]
    exact hw.idles ⟨rfl, rfl, rfl, rfl, .refl _, rfl⟩
  | arrival time node =>
    cases h
    show Fair c _ (visits ++ [])
    rw [List.append_nil]
    exact hw.idles ⟨rfl, rfl, rfl, rfl, .ofStep (.scheduleAt ⟨node, rfl⟩), rfl⟩

theorem Fair.start {agent : Agent σ} {agentState : σ} {s s' : Simulation σ}
    (hnew : Simulation.new c agent agentState = .ok s) (h : s.begin = .ok s') :
    (start s').Fair c [] := by
  have hregular := Regular.start hnew h
  obtain ⟨m, m₁, -, -, -, -, hcontroller⟩ :=
    Simulation.begin_does (Simulation.still_of_new hnew).started h
  obtain ⟨network, hnetwork, rfl⟩ := Fault.map_eq_ok.1 hnew
  obtain ⟨positions, -, hnetwork⟩ := Fault.bind_eq_ok.1 hnetwork
  obtain ⟨controller, hmade, hnetwork⟩ := Fault.bind_eq_ok.1 hnetwork
  cases hnetwork
  obtain ⟨hchosen, hrewards⟩ := Controller.credit_ofConfig hmade
  refine ⟨hregular, ?_, fun _ => ⟨?_, fun node hnode => ?_⟩, fun i v hv => ?_⟩
  · show s'.environment.dataSlots = _
    rw [Simulation.begin_environment h]
    rfl
  · show s'.network.controller.chosen = []
    rw [hcontroller]
    exact hchosen
  · show s'.network.controller.rewards[node]? = _
    rw [hcontroller, Config.dues_nil]
    show controller.rewards[node]? = _
    rw [hrewards, List.getElem?_replicate, if_pos hnode]
  · cases hv

/-- In every run of an accepted configuration, whatever the agent answers and whenever packets arrive:

At each step the agent is shown what is due to the node: for each place the penalty, added to zero, if at
the last reservation of this node the choice that counts in this place was a slot that the node saw claimed
before, and zero otherwise. At the reservation the choices of this one answer are pending and no others.
What is noted is what the step does; and up to the end of the run the final step would show what is due
to the node whose turn it is. -/
theorem rewards_of_last_reservation (hc : c.Accepted) {agent : Agent σ} {agentState : σ}
    {s s' : Simulation σ} (hnew : Simulation.new c agent agentState = .ok s)
    (hbegin : s.begin = .ok s') {acts : List Act} (hrun : run acts (Watch.start s') = some w) :
    (∀ i v, (record Watch.visits acts (Watch.start s'))[i]? = some v →
      v.step.node = v.node ∧
      v.step.rewards = c.dues ((record Watch.visits acts (Watch.start s')).take i) v.node ∧
      v.before.chosen = v.action.filterMap (Environment.ofConfig c).slotOf) ∧
    (∀ e t w', w.Handles e t w' → e.event = .envStep → e.time ≤ c.duration →
      ∃ v, w.visit = some v ∧ Visit.Of t v w'.simulation) ∧
    (w.medium.now ≤ c.duration → ∀ station,
      w.network.stations[w.simulation.environment.currentNode]? = some station →
      (w.simulation.observe w.simulation.environment.currentNode station true).1.rewards =
        c.dues (record Watch.visits acts (Watch.start s')) w.simulation.environment.currentNode) := by
  have hw := record_induction (P := fun w visits => w.Fair c visits)
    (fun _ _ _ _ hw hstep => hw.step hc hstep) (Fair.start hnew hbegin) hrun
  rw [List.nil_append] at hw
  refine ⟨hw.shown, fun e t w' h heq hle => ?_, fun hle station hstation => ?_⟩
  · rcases hw.regular.cases hc h with ⟨hne, -⟩ | ⟨-, hlate, -⟩ | ⟨-, -, hturn⟩
    · exact absurd heq hne
    · exact absurd hle (Nat.not_le_of_lt hlate)
    · exact hw.visit_of_turn hc h heq hle hturn
  · have hnode := Environment.currentNode_lt (e := w.simulation.environment)
      (hw.regular.nodeCount ▸ hc.nodeCount.1)
    rw [hw.regular.nodeCount] at hnode
    have hrow := (hw.credited hle).rewards _ hnode
    exact congrArg Prod.fst (Controller.takeReward_of_some hrow)

/-- The events of two frames. -/
def twoFrames : List Act := List.replicate 14 (.next (Time.ofMillis 10))

theorem run_twoFrames : ∃ s s',
    Simulation.new Config.pair (.forNodes [some [0], some [0]]) Script.silence = .ok s ∧
    s.begin = .ok s' ∧ (run twoFrames (Watch.start s')).isSome ∧
    ((record Watch.visits twoFrames (Watch.start s'))[3]?.map (·.node) = some 1 ∧
      (((record Watch.visits twoFrames (Watch.start s')).take 3).filter (·.node = 1)).getLast?.map
        (fun v => (List.range 3).map fun j => v.before.choices[j]?.any (v.before.sees v.node))
        = some [true, false, false]) :=
  ⟨_, _, rfl, rfl, by decide +kernel, by decide +kernel⟩

/-- Two nodes that both choose the only data slot: at its first turn node 1 has heard the claim of node 0,
and at its second one it is shown the penalty. -/
theorem rewards_of_last_reservation_pair : ∃ s s' w,
    Simulation.new Config.pair (.forNodes [some [0], some [0]]) Script.silence = .ok s ∧
    s.begin = .ok s' ∧ run twoFrames (Watch.start s') = some w ∧
    ∃ v, (record Watch.visits twoFrames (Watch.start s'))[3]? = some v ∧ v.node = 1 ∧
      v.step.rewards = [0.0 + Config.pair.reservation.usedSlotPenalty, 0.0, 0.0] := by
  obtain ⟨s, s', hnew, hbegin, hrun, hnode, hflags⟩ := run_twoFrames
  obtain ⟨w, hw⟩ := Option.isSome_iff_exists.1 hrun
  obtain ⟨v, hv, hnode⟩ := Option.map_eq_some_iff.1 hnode
  obtain ⟨u, hu, hflags⟩ := Option.map_eq_some_iff.1 hflags
  obtain ⟨-, hshown, -⟩ := (rewards_of_last_reservation Config.accepted_pair hnew hbegin hw).1 3 v hv
  refine ⟨s, s', w, hnew, hbegin, hw, v, hv, hnode, ?_⟩
  have hflag : u.before.choices[0]?.any (u.before.sees u.node) = true ∧
      u.before.choices[1]?.any (u.before.sees u.node) = false ∧
      u.before.choices[2]?.any (u.before.sees u.node) = false := by
    simpa [List.range_succ] using hflags
  obtain ⟨hfirst, hsecond, hthird⟩ := hflag
  rw [hshown, hnode, Config.dues]
  simp only [Config.due, hu, Visit.earned]
  show [_, _, _] = _
  dsimp only
  rw [hfirst, hsecond, hthird]
  rfl

end Watch

end SlotNet
