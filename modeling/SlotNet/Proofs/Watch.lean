import SlotNet.Agent.Scripted
import SlotNet.Proofs.Acts
import SlotNet.Proofs.Beginning
import SlotNet.Proofs.Dispatch

/-!
# A run that is watched

Events of a run are handled in their order. Between them the source of packets may change, and a packet
may arrive at any node. Written down is which events were handed out, which cancelled ones were passed
over, and what was sent in which slot.

`step_cases`: an act hands out an event (`Handles`), or it puts nothing on the air (`Idles`).
-/

namespace SlotNet

variable {σ : Type}

/-- A frame on its way to one receiver. -/
structure Sending where
  /-- The number of its event. -/
  id : Nat
  /-- When it arrives. -/
  time : Time
  receiver : Nat
  frame : Frame
  /-- The event that was being handled. -/
  during : Key
  /-- The slot that ran, counted from the first one of the run. -/
  slot : Nat
  /-- The nodes that might send in this slot. -/
  entitled : List Nat

namespace Sending

def key (x : Sending) : Key := toLex (x.time, x.id)

/-- When the frame was sent. -/
def sentAt (x : Sending) : Time := (ofLex x.during).1

/-- Was the earlier frame still on its way to the receiver when this one was sent by another node? -/
def RunsInto (x earlier : Sending) : Prop :=
  earlier.id < x.id ∧ x.during < earlier.key ∧ earlier.receiver = x.receiver ∧
    earlier.frame.transmitter ≠ x.frame.transmitter

instance (x earlier : Sending) : Decidable (x.RunsInto earlier) := inferInstanceAs (Decidable (_ ∧ _))

end Sending

/-- A run, and what is written down about it. -/
structure Watch (σ : Type) where
  simulation : Simulation σ
  /-- The events that were handed out, in order. -/
  handed : List (Entry Event)
  /-- The cancelled events that were passed over. -/
  skipped : List (Entry Event)
  sent : List Sending
  /-- The nodes that broadcast reservations, each with the slot that ran. -/
  reservations : List (Nat × Nat)

namespace Watch

open Medium (Does Quiet)

/-- What happens in a run. -/
inductive Act where
  /-- The next event is handled if it is not later than a time. -/
  | next (limit : Time)
  /-- The source of packets changes. -/
  | change (traffic : Traffic)
  /-- A packet will arrive at a node. -/
  | arrival (time : Time) (node : Nat)

def start (s : Simulation σ) : Watch σ := ⟨s, [], [], [], []⟩

def network (w : Watch σ) : Network := w.simulation.network

def medium (w : Watch σ) : Medium := w.network.medium

def entries (w : Watch σ) : List (Entry Event) := w.medium.events.entries

/-- The cancelled events, those passed over and those still in the queue. -/
def cancelledEvents (w : Watch σ) : List (Entry Event) :=
  w.skipped ++ w.entries.filter (·.cancelled)

/-- The beginnings of slots that were handed out, in order. -/
def begun (w : Watch σ) : List (Entry Event) := w.handed.filter (·.event.isCadence)

def slots (w : Watch σ) : Nat := w.begun.length

def setNetwork (w : Watch σ) (network : Network) : Watch σ :=
  { w with simulation := { w.simulation with network } }

/-- The sending that a new delivery in the queue is. -/
def sendingOf (first : Nat) (during : Key) (slot : Nat) (entitled : List Nat) (e : Entry Event) :
    Option Sending :=
  match e.event with
  | .deliver receiver frame =>
    if first ≤ e.id then some ⟨e.id, e.time, receiver, frame, during, slot, entitled⟩ else none
  | _ => none

/-- What is written down when an event was handled. -/
def note (w : Watch σ) (e : Entry Event) (s : Simulation σ) : Watch σ :=
  let noted := { w with
    simulation := s
    handed := w.handed ++ [e]
    skipped := w.skipped ++ w.network.skipped }
  let slot := noted.slots - 1
  let c := s.network.controller
  { noted with
    sent := w.sent ++ noted.entries.filterMap
      (sendingOf w.medium.events.nextId e.key slot (c.entitled (slot % c.totalSlots)))
    reservations := w.reservations ++
      if w.medium.stats.reservationMessages < s.network.medium.stats.reservationMessages then
        [(w.simulation.environment.currentNode, slot)]
      else [] }

/-- The state after an act, if the act is possible. There must be an event that is due. -/
def step (w : Watch σ) : Act → Option (Watch σ)
  | .next limit =>
    match w.medium.events.settle.entries.head?, w.network.popUntil limit with
    | some e, (some (_, event), network) =>
      ((w.setNetwork network).simulation.dispatch event).toOption.map (w.note e)
    | _, _ => none
  | .change traffic => some (w.setNetwork { w.network with traffic })
  | .arrival time node => some (w.setNetwork
      (w.network.setEvents (w.medium.events.scheduleAt time (.arrival node)).2))

/-- The state after some acts, if they are possible. -/
def run : List Act → Watch σ → Option (Watch σ) := Acts.run step

/-- The cancelled events before the next one are passed over, and nothing is handed out. -/
def settle (w : Watch σ) : Watch σ :=
  { w.setNetwork (w.network.setEvents w.medium.events.settle) with
    skipped := w.skipped ++ w.network.skipped }

variable {w w' : Watch σ}

/-- An event is handed out and handled. -/
structure Handles (w : Watch σ) (e : Entry Event) (s : Simulation σ) (w' : Watch σ) : Prop where
  mem : e ∈ w.entries
  pending : e.cancelled = false
  stations : s.network.stations = w.network.stations
  controller : s.network.controller = w.network.controller
  environment : s.environment = w.simulation.environment
  /-- The events before it are gone, and its time is the present. -/
  medium : s.network.medium = { w.medium with events := s.network.medium.events }
  now : s.network.medium.events.now = e.time
  nextId : s.network.medium.events.nextId = w.medium.events.nextId
  rest : ∀ x, x ∈ s.network.medium.events.entries ↔ x ∈ w.entries ∧ e.key < x.key
  passed : ∀ x, x ∈ w.network.skipped ↔ x ∈ w.entries ∧ x.key < e.key
  marked : ∀ x ∈ w.entries, x.key < e.key → x.cancelled = true
  ordered : s.network.medium.events.Ordered
  popped : w.medium.events.pop = (some (e.time, e.event), s.network.medium.events)
  head : w.medium.events.settle.entries.head? = some e
  dispatch : s.dispatch e.event = .ok w'.simulation
  noted : w' = w.note e w'.simulation
  simulation : s = (w.setNetwork (w.network.setEvents s.network.medium.events)).simulation

theorem Handles.traffic {e : Entry Event} {s : Simulation σ} (h : w.Handles e s w') :
    s.network.traffic = w.network.traffic := by
  rw [h.simulation]
  rfl

/-- Nothing is handed out, and nothing is put on the air. Only packets may arrive later. -/
structure Idles (w w' : Watch σ) : Prop where
  stations : w'.network.stations = w.network.stations
  controller : w'.network.controller = w.network.controller
  environment : w'.simulation.environment = w.simulation.environment
  medium : w'.medium = { w.medium with events := w'.medium.events }
  does : Does (fun _ _ => False) (fun _ e => ∃ node, e = .arrival node) w.medium w'.medium
  same : w' = { w with simulation := w'.simulation }

theorem handles_of_step (ho : w.medium.events.Ordered) {limit : Time}
    (h : w.step (.next limit) = some w') : ∃ e s, w.Handles e s w' := by
  rw [step] at h
  split at h
  · rename_i e time event network hhead hpop
    obtain ⟨s', hdispatch, rfl⟩ := Fault.toOption_map_eq_some.1 h
    rcases Network.popUntil_cases hpop with ⟨hnone, -⟩ | ⟨e', rest, hrest, hnext, rfl⟩
    · cases hnone
    · replace hhead : w.medium.events.settle.entries.head? = some e := hhead
      replace hrest : w.medium.events.settle.entries = e' :: rest := hrest
      obtain rfl : e' = e := by rwa [hrest, List.head?_cons, Option.some.injEq] at hhead
      obtain ⟨rfl, rfl⟩ := Prod.mk.inj (Option.some.inj hnext)
      have hpopped : w.medium.events.pop = (some (e'.time, e'.event), { w.medium.events with
          now := e'.time
          entries := rest }) := by
        rw [EventQueue.pop, hrest]
        rfl
      obtain ⟨x, hx, hc, -, -, hx', -, -, hmem, hdrop, hord⟩ := EventQueue.pop_some ho hpopped
      obtain rfl := Option.some.inj (hx'.symm.trans hhead)
      refine ⟨x, (w.setNetwork (w.network.setEvents { w.medium.events with
          now := x.time
          entries := rest })).simulation, hx, hc, rfl, rfl, rfl, rfl, rfl, rfl, hmem, ?_, hdrop, hord,
        hpopped, hhead, hdispatch, rfl, rfl⟩
      intro y
      have hsplit := w.network.entries_eq_skipped_append
      have hsettled : w.network.medium.events.settle.entries = x :: rest := hrest
      rw [hsettled] at hsplit
      have hsorted := ho.sorted
      have hentries : w.entries = w.network.skipped ++ x :: rest := hsplit
      rw [show w.medium.events.entries = w.network.skipped ++ x :: rest from hsplit,
        List.pairwise_append] at hsorted
      constructor
      · intro hy
        exact ⟨hentries ▸ List.mem_append_left _ hy, hsorted.2.2 y hy x (.head _)⟩
      · rintro ⟨hy, hlt⟩
        rcases List.mem_append.1 (hentries ▸ hy) with hy | hy
        · exact hy
        rcases List.mem_cons.1 hy with rfl | hy
        · exact absurd hlt (lt_irrefl _)
        · exact absurd hlt (lt_asymm ((List.pairwise_cons.1 hsorted.2.1).1 y hy))
  · cases h

theorem step_cases (ho : w.medium.events.Ordered) {a : Act} (h : w.step a = some w') :
    (∃ e s, w.Handles e s w') ∨ w.Idles w' := by
  cases a with
  | next limit => exact .inl (handles_of_step ho h)
  | change traffic =>
    cases h
    exact .inr ⟨rfl, rfl, rfl, rfl, .refl _, rfl⟩
  | arrival time node =>
    cases h
    exact .inr ⟨rfl, rfl, rfl, rfl, .ofStep (.scheduleAt ⟨node, rfl⟩), rfl⟩

theorem Idles.leads (h : w.Idles w') (hm : w.medium.Traced) :
    Medium.Leads (fun _ e => ∃ node, e = .arrival node) w.medium w'.medium := by
  refine h.does.leads hm (fun _ _ => False.elim) ?_
  rintro t e ⟨node, rfl⟩
  rfl

theorem step_next {limit time : Time} {event : Event} {network : Network} {e : Entry Event}
    {s : Simulation σ} (hhead : w.medium.events.settle.entries.head? = some e)
    (hpop : w.network.popUntil limit = (some (time, event), network))
    (h : (w.setNetwork network).simulation.dispatch event = .ok s) :
    w.step (.next limit) = some (w.note e s) := by
  simp only [step, hhead, hpop, h, Except.toOption, Option.map_some]

/-- The run of a simulation up to its horizon is one of these runs, in which events are handled and nothing
else happens. At its end the cancelled events before the next one are passed over if nothing more is due. -/
theorem exists_run_of_runEvents {fuel : Nat} {s s' : Simulation σ}
    (h : Simulation.runEvents fuel s = .ok s') {w : Watch σ} (hw : w.simulation = s) :
    ∃ acts w', (∀ a ∈ acts, ∃ limit, a = .next limit) ∧ run acts w = some w' ∧
      (s' = w'.simulation ∨
        (∃ limit network, w'.network.popUntil limit = (none, network)) ∧
          s' = w'.settle.simulation) := by
  induction fuel generalizing s w with
  | zero =>
    cases h
    exact ⟨[], w, nofun, rfl, .inl hw.symm⟩
  | succ fuel ih =>
    subst hw
    unfold Simulation.runEvents at h
    cases hp : w.network.popUntil w.simulation.horizon with
    | mk next network =>
      have hp' : w.simulation.network.popUntil w.simulation.horizon = (next, network) := hp
      rw [hp'] at h
      rcases Network.popUntil_cases hp with ⟨rfl, rfl⟩ | ⟨e, rest, hrest, rfl, rfl⟩
      · cases h
        exact ⟨[], w, nofun, rfl, .inr ⟨⟨_, _, hp⟩, rfl⟩⟩
      · obtain ⟨t, ht, h⟩ := Fault.bind_eq_ok.1 h
        have hhead : w.medium.events.settle.entries.head? = some e := by
          rw [show w.medium.events.settle.entries = e :: rest from hrest]
          rfl
        have hstep : w.step (.next w.simulation.horizon) = some (w.note e t) := step_next hhead hp ht
        obtain ⟨acts, w', hacts, hrun, hs⟩ := ih h (w := w.note e t) rfl
        refine ⟨.next w.simulation.horizon :: acts, w', List.forall_mem_cons.2 ⟨⟨_, rfl⟩, hacts⟩, ?_, hs⟩
        exact Acts.run_cons_eq_some.2 ⟨_, hstep, hrun⟩

end Watch

/-! ## Before the first event -/

/-- Nothing waits and nothing is under way; every node has a station, a place and an ear. -/
structure Network.Still (c : Config) (n : Network) : Prop where
  manned : n.Manned
  length : n.stations.length = c.nodeCount
  layout : n.controller.layout = c.frame
  nodeCount : n.controller.nodeCount = c.nodeCount
  shaped : n.controller.Shaped
  started : n.controller.started = false
  events : n.medium.events = .empty
  channel : n.medium.channel = ⟨c.maxRangeM,
    (List.range c.nodeCount).map fun node => ⟨node, Address.ofNode node⟩, []⟩
  stats : n.medium.stats = {}
  positions : n.medium.positions.length = c.nodeCount

theorem Network.still_ofConfig {c : Config} {n : Network} (h : ofConfig c c.nodeCount = .ok n) :
    n.Still c := by
  obtain ⟨positions, hp, h⟩ := Fault.bind_eq_ok.1 h
  obtain ⟨controller, hc, h⟩ := Fault.bind_eq_ok.1 h
  cases h
  obtain ⟨hlayout, hnodes, -, hfresh⟩ := Controller.ofConfig_ok hc
  have hstarted : controller.started = false := by
    obtain ⟨total, claims, -, -, -, -, rfl⟩ := Controller.ofConfig_eq_ok_iff.1 hc
    rfl
  refine ⟨fun node s hs => ?_, ?_, hlayout, hnodes, hfresh.shaped, hstarted, rfl,
    listeners_eq _ _, rfl, Placement.length_ofConfig hp⟩
  · obtain ⟨i, hi, rfl⟩ := Option.map_eq_some_iff.1 ((List.getElem?_map ..).symm.trans hs)
    obtain ⟨hlt, rfl⟩ := List.getElem?_eq_some_iff.1 hi
    rw [List.getElem_range]
    exact ⟨rfl, rfl, rfl, nofun⟩
  · rw [List.length_map, List.length_range]

theorem Network.Still.traced {c : Config} {n : Network} (h : n.Still c) : n.medium.Traced := by
  refine ⟨?_, ?_, ?_, ?_⟩
  · rw [h.events]
    exact EventQueue.ordered_empty
  · rw [h.channel]
    exact nofun
  · rw [h.events]
    exact nofun
  · rw [h.events]
    exact nofun

theorem Traffic.scheduleFirst_does {count node : Nat} {t t' : Traffic} {m : Medium}
    {events : EventQueue Event} (h : scheduleFirst count node t m.events = .ok (t', events)) :
    Medium.Does (fun _ _ => False) (fun _ e => ∃ node, e = .arrival node) m { m with events } := by
  induction count generalizing node t m with
  | zero =>
    cases h
    exact .refl _
  | succ count ih =>
    unfold scheduleFirst at h
    generalize t.nextGap = gap at h
    rcases gap with ⟨_ | gap, t₁⟩
    · exact ih h
    · obtain ⟨time, -, h⟩ := Fault.bind_eq_ok.1 h
      have hfirst : Medium.Does (fun _ _ => False) (fun _ e => ∃ node, e = .arrival node) m
          { m with events := (m.events.scheduleAt time (.arrival node)).2 } :=
        .ofStep (.scheduleAt ⟨node, rfl⟩)
      exact hfirst.trans (ih h)

namespace Simulation

open Medium (Does Quiet)

variable {s s' : Simulation σ}

theorem still_of_new {c : Config} {agent : Agent σ} {agentState : σ}
    (h : new c agent agentState = .ok s) : s.network.Still c := by
  obtain ⟨network, hn, rfl⟩ := Fault.map_eq_ok.1 h
  exact Network.still_ofConfig hn

theorem begin_cases (hs : s.network.controller.started = false) (h : s.begin = .ok s') :
    ∃ m m₁ t t', Quiet s.network.medium m ∧
      m.schedule Controller.firstFrameDelay .startFrame = .ok m₁ ∧
      Traffic.scheduleFirst s.network.stations.length 0 t m₁.events
        = .ok (t', s'.network.medium.events) ∧
      s'.network.medium = { m₁ with events := s'.network.medium.events } ∧
      s'.network.stations = s.network.stations ∧
      s'.network.controller = { s.network.controller with started := true } := by
  obtain ⟨⟨agentState, answer⟩, -, h⟩ := Fault.bind_eq_ok.1 h
  obtain ⟨t, h1, h⟩ := Fault.bind_eq_ok.1 h
  obtain ⟨⟨n, started⟩, h2, h⟩ := Fault.bind_eq_ok.1 h
  obtain ⟨n', h3, h⟩ := Fault.bind_eq_ok.1 h
  cases h
  obtain ⟨hstations, hcontroller, -, hquiet⟩ := noteError_quiet (s := { s with agentState }) h1
  obtain ⟨⟨started', controller, events⟩, h4, h2⟩ := Fault.bind_eq_ok.1 h2
  cases h2
  obtain ⟨⟨traffic, events'⟩, h5, h3⟩ := Fault.bind_eq_ok.1 h3
  cases h3
  unfold Controller.start at h4
  rw [hcontroller, show ({ s with agentState } : Simulation σ).network.controller.started = false
    from hs, if_neg Bool.false_ne_true] at h4
  obtain ⟨⟨id, events''⟩, h6, h4⟩ := Fault.map_eq_ok.1 h4
  cases h4
  rw [hstations] at h5
  refine ⟨t.network.medium, { t.network.medium with events }, _, traffic, hquiet, ?_, h5, rfl,
    hstations, rfl⟩
  rw [Medium.schedule, h6]
  rfl

theorem begin_does (hs : s.network.controller.started = false) (h : s.begin = .ok s') :
    ∃ m m₁, Quiet s.network.medium m ∧
      m.schedule Controller.firstFrameDelay .startFrame = .ok m₁ ∧
      Does (fun _ _ => False) (fun _ e => ∃ node, e = .arrival node) m₁ s'.network.medium ∧
      s'.network.stations = s.network.stations ∧
      s'.network.controller = { s.network.controller with started := true } := by
  obtain ⟨m, m₁, t, t', hquiet, hschedule, hfirst, hmedium, hstations, hcontroller⟩ :=
    begin_cases hs h
  refine ⟨m, m₁, hquiet, hschedule, ?_, hstations, hcontroller⟩
  rw [hmedium]
  exact Traffic.scheduleFirst_does hfirst

theorem begin_schedules (hs : s.network.controller.started = false) (h : s.begin = .ok s') :
    Does (fun _ _ => False) (fun _ e => e = .startFrame ∨ ∃ node, e = .arrival node)
      s.network.medium s'.network.medium := by
  obtain ⟨m, m₁, hquiet, hschedule, hdoes, -⟩ := begin_does hs h
  have hfirst : Does (fun _ _ => False) (fun _ e => e = .startFrame ∨ ∃ node, e = .arrival node)
      m m₁ := .ofStep (.schedule (.inl rfl) hschedule)
  exact (Quiet.does hquiet).trans (hfirst.trans (hdoes.mono (fun _ _ => id) fun _ _ => .inr))

end Simulation

/-! ## A small network -/

/-- Two nodes that hear each other, with room for one packet each. -/
def Config.pair : Config :=
  { nodes := [⟨0.0, 0.0⟩, ⟨200.0, 0.0⟩]
    frame := { dataSlots := 1 }
    queue := { maxPackets := 1 }
    traffic := { enabled := false } }

theorem Config.accepted_pair : pair.Accepted := rfl

/-- An agent that always gives the same answer for a node. -/
def Agent.forNodes (answers : List (Option Action)) : Agent ScriptRecord :=
  (⟨.byNode, answers, false, false⟩ : Script).agent

/-- Two packets are made at node 0. If it alone chooses the data slot, then there is no room for the
second one, and the first one is delivered in the second frame. -/
def Watch.twoPackets : List Watch.Act :=
  [.arrival 0 0, .arrival 0 0] ++ List.replicate 17 (.next (Time.ofMillis 10))

end SlotNet
