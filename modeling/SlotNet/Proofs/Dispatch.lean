import SlotNet.Proofs.Controller.Course
import SlotNet.Proofs.Handlers

/-!
# What a run does with the air

One lemma for each kind of event of a run: what it may put on the air, what it may schedule, and what
it does to the frame. `dispatch_opens` is the beginning of a slot, and `Tends` is any other event. Only
a step of the environment broadcasts a reservation (`dispatch_envStep`).
-/

namespace SlotNet

/-- The slot that an event opens, if it is one of the cadence of the frames. -/
def Event.slot? : Event → Option Nat
  | .startFrame => some 0
  | .runSlot slot => some slot
  | _ => none

def Event.isCadence (e : Event) : Bool := e.slot?.isSome

/-- A node counts a reservation and puts it on the air. -/
def Medium.Broadcasts (node : Nat) (m m' : Medium) : Prop :=
  ∃ (stats stats' : Stats) (frame : Frame) (m₁ : Medium) (o : TransmitOutcome),
    frame.kind = .reservation ∧ frame.transmitter = Address.ofNode node ∧
    stats.airing =
      (m.stats.collisions, m.stats.cancelledDeliveries, m.stats.reservationMessages + 1) ∧
    Medium.transmit { m with nextUid := m.nextUid + 1, stats } node frame = .ok (m₁, o) ∧
    stats'.airing = m₁.stats.airing ∧ m' = { m₁ with stats := stats' }

theorem Medium.Broadcasts.leads {node : Nat} {m m' : Medium} {plans : Time → Event → Prop}
    (hm : m.Traced) (h : m.Broadcasts node m') : Leads plans m m' := by
  obtain ⟨stats, stats', frame, m₁, o, hkind, -, -, hsend, -, rfl⟩ := h
  have hsane : frame.Sane := fun hdata => by
    rw [hkind] at hdata
    cases hdata
  have hbefore : Leads plans m { m with nextUid := m.nextUid + 1, stats } :=
    (Leads.setStats hm stats).trans (.takeUid (hm.setStats stats))
  have hair : Leads plans m m₁ := hbefore.trans (.transmit hbefore.traced hsane hsend)
  exact hair.trans (.setStats hair.traced stats')

theorem Medium.Broadcasts.reservations {node : Nat} {m m' : Medium} (hm : m.events.Ordered)
    (h : m.Broadcasts node m') :
    m'.stats.reservationMessages = m.stats.reservationMessages + 1 := by
  obtain ⟨stats, stats', frame, m₁, o, -, -, hair, hsend, hair', rfl⟩ := h
  have hdoes : Does (fun _ _ => True) (fun _ _ => False)
      { m with nextUid := m.nextUid + 1, stats } m₁ := .ofStep (.transmit trivial hsend)
  have ho : ({ m with nextUid := m.nextUid + 1, stats } : Medium).events.Ordered := hm
  have hsame : m₁.stats.reservationMessages = stats.reservationMessages := hdoes.reservations ho
  simp only [Stats.airing, Prod.mk.injEq] at hair hair'
  exact hair'.2.2.trans (hsame.trans hair.2.2)

def Handled.count (s : Stats) : Handled → Except Fault Stats
  | .merged (.error _) => s.recordMalformed
  | _ => .ok s

namespace Handled

variable {handled : Handled}

theorem count_of_ne (h : ∀ e, handled = .merged (.error e) → False) (s : Stats) :
    handled.count s = .ok s := by
  unfold count
  split
  · exact (h _ rfl).elim
  · rfl

theorem eq_of_count {s s' : Stats} (h : handled.count s = .ok s')
    (hne : ∀ e, handled ≠ .merged (.error e)) : s' = s := by
  rw [count_of_ne hne] at h
  exact (Except.ok.inj h).symm

theorem airing_count {s s' : Stats} (h : handled.count s = .ok s') : s'.airing = s.airing := by
  unfold count at h
  split at h
  · exact Stats.airing_of_map h fun _ => rfl
  · cases h
    rfl

theorem count_fields {s s' : Stats} (h : handled.count s = .ok s') :
    s'.framesSent = s.framesSent ∧ s'.reservationMessages = s.reservationMessages ∧
      s'.envSteps = s.envSteps := by
  unfold count at h
  split at h
  · obtain ⟨n, -, rfl⟩ := Fault.map_eq_ok.1 h
    exact ⟨rfl, rfl, rfl⟩
  · cases h
    exact ⟨rfl, rfl, rfl⟩

end Handled

/-! ## Reserving -/

namespace Controller

theorem sameFrame_chooseAll (c : Controller) (slots : List Nat) :
    SameFrame c (slots.foldl choose c) ∧ (slots.foldl choose c).claims = c.claims := by
  rw [chooseAll_eq]
  exact ⟨⟨rfl, rfl, rfl, rfl, rfl, rfl⟩, rfl⟩

theorem sameFrame_takeReward (c : Controller) (node : Nat) :
    SameFrame c (c.takeReward node).2 ∧ (c.takeReward node).2.claims = c.claims := by
  obtain ⟨rewards, htaken⟩ := takeReward_eq c node
  rw [htaken]
  exact ⟨⟨rfl, rfl, rfl, rfl, rfl, rfl⟩, rfl⟩

theorem reserve_broadcasts {c c' : Controller} {m m' : Medium} {node : Nat} {o : TransmitOutcome}
    (h : c.reserve m node = .ok (c', m', o)) : m' = m ∨ m.Broadcasts node m' := by
  unfold reserve at h
  dsimp only at h
  split at h
  · obtain ⟨stats, h1, h⟩ := Fault.bind_eq_ok.1 h
    obtain ⟨stats', h2, h⟩ := Fault.bind_eq_ok.1 h
    obtain ⟨⟨m₁, o'⟩, h3, h⟩ := Fault.bind_eq_ok.1 h
    have hair : stats.airing = m.stats.airing := Stats.airing_recordTransmission h1
    have hcount : stats'.airing =
        (m.stats.collisions, m.stats.cancelledDeliveries, m.stats.reservationMessages + 1) := by
      obtain ⟨count, hc, rfl⟩ := Fault.map_eq_ok.1 h2
      obtain ⟨rfl, -⟩ := Count.add_eq_ok hc
      simp only [Stats.airing, Prod.mk.injEq] at hair
      simp only [Stats.airing, hair]
    cases h
    exact .inr ⟨stats', m₁.stats, _, m₁, o', rfl, rfl, hcount, h3, rfl, rfl⟩
  · cases h
    exact .inl rfl

end Controller

namespace Simulation

open Medium (Does Quiet)

variable {σ : Type} {s s' : Simulation σ}

/-! ## Steps of the environment -/

theorem noteError_quiet {failed : Bool} (h : s.noteError failed = .ok s') :
    s'.network.stations = s.network.stations ∧ s'.network.controller = s.network.controller ∧
      s'.environment = s.environment ∧ Quiet s.network.medium s'.network.medium := by
  unfold noteError at h
  split at h
  · obtain ⟨stats, h1, rfl⟩ := Fault.map_eq_ok.1 h
    exact ⟨rfl, rfl, rfl, .ofStats (Stats.airing_of_map h1 fun _ => rfl)⟩
  · cases h
    exact ⟨rfl, rfl, rfl, .refl _⟩

theorem ask_quiet {step : Step} {action : Action} (h : s.ask step = .ok (s', action)) :
    s'.network.stations = s.network.stations ∧ s'.network.controller = s.network.controller ∧
      s'.environment = s.environment ∧ Quiet s.network.medium s'.network.medium := by
  obtain ⟨⟨agentState, answer⟩, h1, h⟩ := Fault.bind_eq_ok.1 h
  cases answer with
  | ok action =>
    cases h
    exact ⟨rfl, rfl, rfl, .refl _⟩
  | error e =>
    obtain ⟨t, h2, h⟩ := Fault.bind_eq_ok.1 h
    cases h
    exact noteError_quiet (s := { s with agentState }) h2

/-- The frame goes on as it was; the air is left alone, or the node makes its reservation known. -/
structure Steps (s : Simulation σ) (node : Nat) (s' : Simulation σ) : Prop where
  stations : s'.network.stations = s.network.stations
  frame : s.network.controller.SameFrame s'.network.controller
  shaped : s'.network.controller.Shaped
  air : Quiet s.network.medium s'.network.medium ∨
    (node < s.network.stations.length ∧ ∃ m, Quiet s.network.medium m ∧
      m.Broadcasts node s'.network.medium)

theorem act_steps (hc : s.network.controller.Shaped) {node : Nat}
    (hn : node < s.network.stations.length) {action : Action} (h : s.act node action = .ok s') :
    s.Steps node s' := by
  obtain ⟨⟨controller, medium, outcome⟩, h1, h⟩ := Fault.bind_eq_ok.1 h
  obtain ⟨stats, h2, h⟩ := Fault.bind_eq_ok.1 h
  cases h
  obtain ⟨hframe, hclaims⟩ := Controller.sameFrame_chooseAll s.network.controller
    (action.filterMap s.environment.slotOf)
  have hchosen := hframe.shaped hc (hclaims ▸ hc.claims)
  obtain rfl := (Controller.reserve_ok h1).1
  have hcount : stats.airing = medium.stats.airing := Stats.airing_of_map h2 fun _ => rfl
  refine ⟨rfl, hframe.trans (Controller.sameFrame_reserved _ node), hchosen.reserved node, ?_⟩
  rcases Controller.reserve_broadcasts h1 with rfl | ⟨t, t', f, m₁, o, hk, hf, ht, hsend, ht', rfl⟩
  · exact .inl (.ofStats hcount)
  · exact .inr ⟨hn, s.network.medium, .refl _, t, stats, f, m₁, o, hk, hf, ht, hsend,
      hcount.trans ht', rfl⟩

theorem envStep_steps (hc : s.network.controller.Shaped) (h : s.envStep = .ok s') :
    s.Steps s.environment.currentNode s' := by
  unfold envStep at h
  dsimp only at h
  split at h
  · cases h
    exact ⟨rfl, .refl _, hc, .inl (.refl _)⟩
  · rename_i station hstation
    have hn := (List.getElem?_eq_some_iff.1 hstation).1
    obtain ⟨hframe, hclaims⟩ := Controller.sameFrame_takeReward s.network.controller
      s.environment.currentNode
    have hlook := hframe.shaped hc (hclaims ▸ hc.claims)
    split at h
    · cases h
      exact ⟨rfl, hframe, hlook, .inl (.refl _)⟩
    · obtain ⟨⟨t, action⟩, h1, h⟩ := Fault.bind_eq_ok.1 h
      obtain ⟨hstations, hcontroller, -, hquiet⟩ := ask_quiet h1
      have hshaped : t.network.controller.Shaped := hcontroller ▸ hlook
      obtain ⟨hs, hf, hshaped', hair⟩ := act_steps hshaped (hstations ▸ hn) h
      rw [hcontroller] at hf
      refine ⟨hs.trans hstations, hframe.trans hf, hshaped', ?_⟩
      rcases hair with hq | ⟨-, m, hq, hb⟩
      · exact .inl (hquiet.trans hq)
      · exact .inr ⟨hn, m, hquiet.trans hq, hb⟩

/-! ## Events -/

/-- First the network handles the event; an unreadable message is counted. Then comes what the run adds
to that. -/
theorem dispatch_cases {event : Event} (h : s.dispatch event = .ok s') :
    ∃ network handled stats t, s.network.handle event = .ok (network, handled) ∧
      t = ({ s with network }).setStats stats ∧ handled.count network.medium.stats = .ok stats ∧
      ((t.opensControlSlot event = true ∧
          ∃ medium, t.network.medium.schedule 0 .envStep = .ok medium ∧
            s' = { t with network := { t.network with medium } }) ∨
        (t.opensControlSlot event = false ∧ event = .envStep ∧ t.envStep = .ok s') ∨
        (t.opensControlSlot event = false ∧ event ≠ .envStep ∧ s' = t)) := by
  unfold dispatch at h
  obtain ⟨⟨network, handled⟩, h1, h⟩ := Fault.bind_eq_ok.1 h
  have hrest : ∃ stats : Stats, handled.count network.medium.stats = .ok stats ∧
      (let t := ({ s with network }).setStats stats
       if t.opensControlSlot event then do
          let medium ← t.network.medium.schedule 0 .envStep
          return { t with network := { t.network with medium } }
        else if event = .envStep then t.envStep
        else return t) = .ok s' := by
    dsimp only at h
    split at h
    · obtain ⟨stats, h2, h⟩ := Fault.bind_eq_ok.1 h
      exact ⟨stats, h2, h⟩
    · rename_i hne
      exact ⟨_, Handled.count_of_ne hne _, h⟩
  obtain ⟨stats, hcount, h⟩ := hrest
  refine ⟨network, handled, stats, _, h1, rfl, hcount, ?_⟩
  dsimp only at h
  split at h
  · rename_i hopens
    obtain ⟨medium, h3, h⟩ := Fault.bind_eq_ok.1 h
    cases h
    exact .inl ⟨hopens, medium, h3, rfl⟩
  · rename_i hopens
    rw [Bool.not_eq_true] at hopens
    split at h
    · rename_i henv
      exact .inr (.inl ⟨hopens, henv, h⟩)
    · rename_i henv
      cases h
      exact .inr (.inr ⟨hopens, henv, rfl⟩)

/-- What holds between two events: the stations are those of the nodes, and every slot is in the slot
map. -/
structure Staffed (s : Simulation σ) : Prop where
  manned : s.network.Manned
  length : s.network.stations.length = s.network.controller.nodeCount
  shaped : s.network.controller.Shaped

/-- The beginning of a slot: data is sent in a data slot only, and by those who are entitled. What
follows is scheduled, and in a control slot a step of the environment at once. -/
structure Opens (s : Simulation σ) (slot : Nat) (s' : Simulation σ) : Prop where
  staffed : s'.Staffed
  layout : s'.network.controller.layout = s.network.controller.layout
  nodeCount : s'.network.controller.nodeCount = s.network.controller.nodeCount
  does : ∃ m m₁ delay next, s'.network.controller.following slot = .ok (delay, next) ∧
    Does
      (Network.SlotSends (Timing.isControlSlot s.network.controller.nodeCount slot)
        (s'.network.controller.entitled slot))
      (Network.SlotPlans (Timing.isControlSlot s.network.controller.nodeCount slot)
        (s'.network.controller.entitled slot)
        (s.network.now + s'.network.controller.slotDuration slot)) s.network.medium m ∧
    m.schedule delay next = .ok m₁ ∧
    ((slot < s.network.controller.nodeCount ∧ m₁.schedule 0 .envStep = .ok s'.network.medium) ∨
      (s.network.controller.nodeCount ≤ slot ∧ s'.network.medium = m₁))

theorem opens_of_network {event : Event} {slot : Nat} {c : Controller} {network : Network}
    {grants : List Grant} (hs : s.Staffed) (hevent : event.slot? = some slot)
    (hpos : 0 < s.network.controller.nodeCount)
    (hnodes : c.nodeCount = s.network.controller.nodeCount)
    (hlayout : c.layout = s.network.controller.layout) (hc : c.Shaped)
    (hhandle : s.network.handle event = .ok (network, .granted grants))
    (hopens : s.network.Opens c slot network) (h : s.dispatch event = .ok s') :
    s.Opens slot s' := by
  obtain ⟨network', handled, stats, t, h1, rfl, hcount, hrest⟩ := dispatch_cases h
  obtain ⟨rfl, rfl⟩ := Prod.mk.inj (Except.ok.inj (hhandle.symm.trans h1))
  obtain rfl := Handled.eq_of_count hcount nofun
  obtain ⟨hmanned, hlength, rfl, m, delay, next, hfollowing, hdoes, hschedule⟩ := hopens
  rw [hnodes] at hdoes
  have hstaffed : ∀ m₂, ({ s with network := { network with medium := m₂ } }).Staffed := fun _ =>
    ⟨hmanned, (hlength.trans hs.length).trans hnodes.symm, hc⟩
  have hcontrol : (({ s with network }).setStats network.medium.stats).opensControlSlot event
      = decide (slot < s.network.controller.nodeCount) := by
    cases event with
    | startFrame =>
      cases hevent
      exact (decide_eq_true hpos).symm
    | runSlot k =>
      cases hevent
      show decide (slot < network.stations.length) = _
      rw [hlength, hs.length]
    | _ => cases hevent
  rw [hcontrol] at hrest
  rcases hrest with ⟨hslot, medium, hm, rfl⟩ | ⟨-, rfl, -⟩ | ⟨hslot, -, rfl⟩
  · exact ⟨hstaffed medium, hlayout, hnodes, m, _, delay, next, hfollowing, hdoes, hschedule,
      .inl ⟨of_decide_eq_true hslot, hm⟩⟩
  · cases hevent
  · exact ⟨hstaffed network.medium, hlayout, hnodes, m, _, delay, next, hfollowing, hdoes, hschedule,
      .inr ⟨Nat.le_of_not_lt (of_decide_eq_false hslot), rfl⟩⟩

theorem dispatch_opens {event : Event} {slot : Nat} (hs : s.Staffed)
    (ho : s.network.medium.events.Ordered) (hpos : 0 < s.network.controller.nodeCount)
    (hevent : event.slot? = some slot) (hslot : slot < s.network.controller.totalSlots)
    (h : s.dispatch event = .ok s') : s.Opens slot s' := by
  obtain ⟨network, handled, -, -, hhandle, -⟩ := dispatch_cases h
  cases event with
  | startFrame =>
    cases hevent
    obtain ⟨⟨n, grants⟩, hrun, hn⟩ := Fault.map_eq_ok.1 hhandle
    cases hn
    have hbegins := Controller.beginsFrom_beginFrame s.network.controller
    have hshaped := hs.shaped.beginFrame
    have hframe := Controller.sameFrame_openSlot s.network.controller.beginFrame 0
    have htotal : 0 < s.network.controller.beginFrame.totalSlots := by
      rw [hshaped.totalSlots, hbegins.nodeCount]
      omega
    exact opens_of_network hs rfl hpos (hframe.nodeCount.trans hbegins.nodeCount)
      (hframe.layout.trans hbegins.layout) (hshaped.openSlot 0) hhandle
      (Network.runFrame_opens hs.manned ho htotal hrun) h
  | runSlot k =>
    cases hevent
    obtain ⟨⟨n, grants⟩, hrun, hn⟩ := Fault.map_eq_ok.1 hhandle
    cases hn
    have hframe := Controller.sameFrame_openSlot s.network.controller slot
    exact opens_of_network hs rfl hpos hframe.nodeCount hframe.layout (hs.shaped.openSlot slot)
      hhandle (Network.runSlot_opens hs.manned ho hslot hrun) h
  | _ => cases hevent

/-- Anything else: the frame goes on as it was. -/
structure Tends (sends : Nat → Frame → Prop) (plans : Time → Event → Prop) (s s' : Simulation σ) :
    Prop where
  staffed : s'.Staffed
  frame : s.network.controller.SameFrame s'.network.controller
  does : Does sends plans s.network.medium s'.network.medium

theorem dispatch_tends {event : Event} (h : s.dispatch event = .ok s')
    (hslot : event.slot? = none) (henv : event ≠ .envStep) :
    ∃ network handled, s.network.handle event = .ok (network, handled) ∧
      s'.network.stations = network.stations ∧ s'.network.controller = network.controller ∧
      Quiet network.medium s'.network.medium := by
  obtain ⟨network, handled, stats, t, h1, rfl, hcount, hrest⟩ := dispatch_cases h
  rcases hrest with ⟨hopens, -⟩ | ⟨-, rfl, -⟩ | ⟨-, -, rfl⟩
  · cases event with
    | startFrame => cases hslot
    | runSlot slot => cases hslot
    | _ => cases hopens
  · exact absurd rfl henv
  · exact ⟨network, handled, h1, rfl, rfl, .ofStats (Handled.airing_count hcount)⟩

theorem tends_of_works {sends : Nat → Frame → Prop} {plans : Time → Event → Prop} {network : Network}
    (hs : s.Staffed) (hworks : Network.Works sends plans s.network network)
    (hstations : s'.network.stations = network.stations)
    (hcontroller : s'.network.controller = network.controller)
    (hquiet : Quiet network.medium s'.network.medium) :
    s.Tends sends plans s' ∧ s'.network.controller = s.network.controller := by
  have hsame := hcontroller.trans hworks.controller
  refine ⟨⟨⟨fun node t ht => hworks.manned node t (hstations ▸ ht), ?_, hsame ▸ hs.shaped⟩, ?_,
    hworks.does.trans hquiet.does⟩, hsame⟩
  · rw [hstations, hworks.length, hs.length, hsame]
  · rw [hsame]
    exact .refl _

theorem dispatch_continueSlot {node : Nat} {slotEnd : Time} {control : Bool} (hs : s.Staffed)
    (ho : s.network.medium.events.Ordered)
    (h : s.dispatch (.continueSlot node slotEnd control) = .ok s') :
    s.Tends (fun a f => control = false ∧ s.network.now < slotEnd ∧ Station.Sends node a f)
      (fun t e => control = false ∧ s.network.now < slotEnd ∧ Station.Plans node slotEnd t e) s' ∧
      s'.network.controller = s.network.controller := by
  obtain ⟨network, handled, h1, hstations, hcontroller, hquiet⟩ := dispatch_tends h rfl nofun
  exact tends_of_works hs (Network.continueSlot_works hs.manned ho h1) hstations hcontroller hquiet

theorem dispatch_arrival {node : Nat} (hs : s.Staffed) (h : s.dispatch (.arrival node) = .ok s') :
    s.Tends (fun _ _ => False) (fun _ e => e = .arrival node) s' ∧
      s'.network.controller = s.network.controller := by
  obtain ⟨network, handled, h1, hstations, hcontroller, hquiet⟩ := dispatch_tends h rfl nofun
  exact tends_of_works hs (Network.arrive_works hs.manned h1) hstations hcontroller hquiet

theorem dispatch_deliver {receiver : Nat} {frame : Frame} (hs : s.Staffed) (hf : frame.Sane)
    (h : s.dispatch (.deliver receiver frame) = .ok s') :
    s.Tends (fun _ _ => False) (fun _ _ => False) s' ∧
      (frame.Plain → s'.network.controller = s.network.controller) := by
  obtain ⟨network, handled, h1, hstations, hcontroller, hquiet⟩ := dispatch_tends h rfl nofun
  have htakes := Network.deliver_takes hs.manned hf h1
  rcases htakes.controller with hc | ⟨hplain, content, observer, hc⟩
  · obtain ⟨htends, hsame⟩ :=
      tends_of_works hs ⟨htakes.manned, htakes.length, hc, htakes.quiet⟩ hstations hcontroller hquiet
    exact ⟨htends, fun _ => hsame⟩
  · have hmerged := hcontroller.trans hc
    have hframe := Controller.sameFrame_merge s.network.controller content observer
    refine ⟨⟨⟨fun node t ht => htakes.manned node t (hstations ▸ ht), ?_, ?_⟩, hmerged ▸ hframe,
      htakes.quiet.trans hquiet⟩, fun hp => absurd hp hplain⟩
    · rw [hstations, htakes.length, hs.length, hmerged, hframe.nodeCount]
    · rw [hmerged]
      exact hs.shaped.merge content observer

theorem dispatch_envStep (hs : s.Staffed) (h : s.dispatch .envStep = .ok s') :
    s'.Staffed ∧ s.Steps s.environment.currentNode s' := by
  obtain ⟨network, handled, stats, t, h1, rfl, hcount, hrest⟩ := dispatch_cases h
  cases h1
  obtain rfl := Handled.eq_of_count hcount nofun
  rcases hrest with ⟨hopens, -⟩ | ⟨-, -, henv⟩ | ⟨-, hne, -⟩
  · cases hopens
  · have hsteps : s.Steps s.environment.currentNode s' := envStep_steps hs.shaped henv
    refine ⟨⟨fun node t ht => hs.manned node t (hsteps.stations ▸ ht), ?_, hsteps.shaped⟩, hsteps⟩
    rw [hsteps.stations, hs.length, hsteps.frame.nodeCount]
  · exact absurd rfl hne

/-- What is scheduled outside the beginning of a slot. -/
def Passing (_ : Time) : Event → Prop
  | .continueSlot _ _ _ => True
  | .arrival _ => True
  | _ => False

theorem dispatch_passes {event : Event} (hs : s.Staffed) (hm : s.network.medium.Traced)
    (hsane : event.Sane) (hslot : event.slot? = none) (h : s.dispatch event = .ok s') :
    s'.Staffed ∧ s.network.controller.SameFrame s'.network.controller ∧
      Medium.Leads Passing s.network.medium s'.network.medium := by
  have hpassing : ∀ t e, Passing t e → e.isDelivery = false := by
    intro t e he
    cases e <;> first | rfl | cases he
  cases event with
  | startFrame => cases hslot
  | runSlot slot => cases hslot
  | continueSlot node slotEnd control =>
    have htends := (dispatch_continueSlot hs hm.ordered h).1
    have hdoes : Does (fun _ f => f.Plain) Passing s.network.medium s'.network.medium :=
      htends.does.mono (fun _ _ hsend => hsend.2.2.2.1) fun _ _ hplan => by
        rw [hplan.2.2.2]
        trivial
    exact ⟨htends.staffed, htends.frame, hdoes.leads hm (fun _ _ hp _ => hp) hpassing⟩
  | deliver receiver frame =>
    have htends := (dispatch_deliver hs hsane h).1
    exact ⟨htends.staffed, htends.frame,
      (Medium.Quiet.leads hm htends.does).mono fun _ _ => False.elim⟩
  | envStep =>
    obtain ⟨hstaffed, hsteps⟩ := dispatch_envStep hs h
    refine ⟨hstaffed, hsteps.frame, ?_⟩
    rcases hsteps.air with hquiet | ⟨-, m, hquiet, hbroadcast⟩
    · exact (Medium.Quiet.leads hm hquiet).mono fun _ _ => False.elim
    · have hbefore : Medium.Leads Passing s.network.medium m :=
        (Medium.Quiet.leads hm hquiet).mono fun _ _ => False.elim
      exact hbefore.trans (hbroadcast.leads hbefore.traced)
  | arrival node =>
    have htends := (dispatch_arrival hs h).1
    have hdoes : Does (fun _ _ => False) Passing s.network.medium s'.network.medium :=
      htends.does.mono (fun _ _ => False.elim) fun _ _ hplan => by
        rw [hplan]
        trivial
    exact ⟨htends.staffed, htends.frame, hdoes.leads hm (fun _ _ => False.elim) hpassing⟩

end Simulation

end SlotNet
