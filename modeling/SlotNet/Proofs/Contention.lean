import SlotNet.Proofs.SlotUse

/-!
# Where frames meet

`Confined` is what holds between two events, if a signal takes no longer than the guard time. There is
one lemma for each kind of event.

`contention_in_data_slots`: frames that collide are data of different nodes that share a data slot.
Reservations are not cancelled and arrive in their slot.
-/

namespace SlotNet

variable {σ : Type}

namespace Watch

open Medium (Does Leads)

variable {c : Config} {w w' : Watch σ} {e : Entry Event} {s : Simulation σ} {l l' : Loop}
  {sends : Nat → Frame → Prop} {plans : Time → Event → Prop}

/-! ## Every event -/

/-- What holds between two events, if a signal takes no longer than the guard time. Who is in range stays
as it was at first. -/
structure Confined (c : Config) (m₀ : Medium) (w : Watch σ) : Prop where
  onTime : w.OnTime c
  recorded : ∃ l, w.Recorded c.nodeCount l
  reaches : ∀ a b delay, w.medium.Reaches a b delay ↔ m₀.Reaches a b delay
  guarded : ∀ a b delay, m₀.Reaches a b delay → delay ≤ c.frame.guardTime
  sorted : w.Sorted c
  waits : w.Waits c
  heard : w.Heard c

variable {m₀ : Medium}

theorem Confined.handedOut (hw : w.Confined c m₀) (h : w.Handles e s w') :
    ∃ l, (w.handOut e s).Recorded c.nodeCount l ∧ l.handling = e.key := by
  obtain ⟨l, hl⟩ := hw.recorded
  exact ⟨_, hl.handedOut h, rfl⟩

/-- An event is handled, and what is sent may be sent in the slot that runs then. -/
theorem Confined.handles (hc : c.Accepted) (hw : w.Confined c m₀) (h : w.Handles e s w')
    (hl : (w.handOut e s).Recorded c.nodeCount l) (hhandling : l.handling = e.key)
    (hl' : l'.Mirrors w'.medium) (hextends : Loop.Extends sends s.network.medium l l')
    (hleads : Leads (fun _ e => e.isDelivery = false) s.network.medium w'.medium)
    (hheeds : w'.Heeds c e sends) (hslots : w.slots ≤ w'.slots)
    (hentitled : w.SameEntitled c w')
    (hrest : w'.Recorded c.nodeCount l' →
      (∀ x ∈ w'.sent, x ∈ w.sent ∨ SentDuring sends s.network.medium e w' x) →
      w'.Waits c ∧ w'.Heard c) : w'.Confined c m₀ := by
  have hontime := hw.onTime.handles hc h
  obtain ⟨hrecorded, hsent⟩ := hl.handles h hhandling hl' hextends hheeds.transmitter hleads
  have hguarded : ∀ a b delay, s.network.medium.Reaches a b delay → delay ≤ c.frame.guardTime :=
    fun a b delay hr => hw.guarded a b delay ((hw.reaches a b delay).1 (h.reaches.1 hr))
  have hsorted : w'.Sorted c := hw.sorted.handles hc hw.waits h.mem (fun x hx => hl.id_lt hx) hslots
    hontime.totalSlots hguarded hheeds hentitled hsent
  obtain ⟨hwaits, hheard⟩ := hrest hrecorded hsent
  exact ⟨hontime, ⟨l', hrecorded⟩, fun a b delay =>
    (hleads.samePlace.reaches.trans h.reaches).trans (hw.reaches a b delay), hw.guarded, hsorted,
    hwaits, hheard⟩

theorem Confined.passes (hc : c.Accepted) (hw : w.Confined c m₀) (h : w.Handles e s w')
    (hp : e.event.isCadence = false) (hl : (w.handOut e s).Recorded c.nodeCount l)
    (hhandling : l.handling = e.key) (hl' : l'.Mirrors w'.medium)
    (hextends : Loop.Extends sends s.network.medium l l')
    (hleads : Leads plans s.network.medium w'.medium)
    (hplans : ∀ x : Entry Event, plans x.time x.event →
      x.event.isDelivery = false ∧ w'.Settles c x)
    (hheeds : w'.Heeds c e sends)
    (hentitled : w.SameEntitled c w')
    (hheard : w'.Recorded c.nodeCount l' →
      (∀ x ∈ w'.sent, x ∈ w.sent ∨ SentDuring sends s.network.medium e w' x) → w'.Heard c) :
    w'.Confined c m₀ := by
  have hslots := h.slots_eq hp
  have hquiet : Leads (fun _ e => e.isDelivery = false) s.network.medium w'.medium :=
    hleads.mono fun t e hplan => (hplans ⟨t, 0, e, false⟩ hplan).1
  refine hw.handles hc h hl hhandling hl' hextends hquiet hheeds (Nat.le_of_eq hslots.symm) hentitled
    fun hrecorded hsent => ⟨?_, hheard hrecorded hsent⟩
  refine hw.waits.passes hw.onTime.traced.ordered h hslots hleads
    (fun x hplan => (hplans x hplan).2) hentitled fun x hx => (hsent x hx).imp_right ?_
  intro hnew hcontrol
  obtain ⟨sender, delay, hsend, -⟩ := hnew.sender
  exact hheeds.first sender x.frame hsend (hnew.slot ▸ hcontrol)

theorem Confined.passes_of_does (hc : c.Accepted) (hw : w.Confined c m₀) (h : w.Handles e s w')
    (hp : e.event.isCadence = false) (hdoes : Does sends plans s.network.medium w'.medium)
    (hsane : ∀ a f, sends a f → f.Sane)
    (hplans : ∀ x : Entry Event, plans x.time x.event →
      x.event.isDelivery = false ∧ w'.Settles c x)
    (hheeds : w'.Heeds c e sends)
    (hentitled : w.SameEntitled c w') :
    w'.Confined c m₀ := by
  obtain ⟨l, hl, hhandling⟩ := hw.handedOut h
  have hdelivery : ∀ t e, plans t e → e.isDelivery = false := fun t e hplan =>
    (hplans ⟨t, 0, e, false⟩ hplan).1
  obtain ⟨l', hl', hextends⟩ := hl.mirrors.does hl.listens hdelivery hdoes
  have hleads := hdoes.leads (h.traced hw.onTime.traced) hsane hdelivery
  exact hw.passes hc h hp hl hhandling hl' hextends hleads hplans hheeds hentitled fun _ _ =>
    hw.heard.does h (Nat.le_of_eq (h.slots_eq hp).symm) hdoes

theorem Confined.opens (hc : c.Accepted) (hw : w.Confined c m₀) (h : w.Handles e s w')
    (hcadence : e.event.isCadence = true) : w'.Confined c m₀ := by
  obtain ⟨htime, -, -, hslots, hopens⟩ := hw.onTime.opens hc h hcadence
  have hdoes := hopens.sends
  rw [h.nodeCount hw.onTime] at hdoes
  obtain ⟨l, hl, hhandling⟩ := hw.handedOut h
  obtain ⟨l', hl', hextends⟩ := hl.mirrors.does hl.listens (fun _ _ => id) hdoes
  have hsane : ∀ a f, Network.SlotSends
      (Timing.isControlSlot c.nodeCount (w.slots % c.frame.slots c.nodeCount))
      (w'.entitledIn c w.slots) a f → f.Sane := by
    rintro a f ⟨-, node, -, -, hplain, -⟩ -
    exact hplain
  have hleads := hdoes.leads (h.traced hw.onTime.traced) hsane fun _ _ => id
  have hle : w.slots ≤ w'.slots := hslots ▸ Nat.le_succ _
  refine hw.handles hc h hl hhandling hl' hextends hleads (.ofSlotSends hc htime hslots) hle
    (fun q hq hq' => by omega) fun hrecorded hsent => ⟨?_, hw.heard.does h hle hdoes⟩
  refine hw.waits.opens hc hw.onTime h hcadence fun hcontrol x hx hslot => ?_
  rcases hsent x hx with hx | hx
  · exact absurd hslot (Nat.ne_of_lt (hw.sorted.slot_lt x hx))
  · obtain ⟨sender, delay, hsend, -⟩ := hx.sender
    exact of_decide_eq_false hsend.1 hcontrol

theorem Confined.continueSlot (hc : c.Accepted) (hw : w.Confined c m₀) (h : w.Handles e s w')
    {node : Nat} {slotEnd : Time} {control : Bool}
    (hevent : e.event = .continueSlot node slotEnd control) : w'.Confined c m₀ := by
  have hp : e.event.isCadence = false := by
    rw [hevent]
    rfl
  have hslots := h.slots_eq hp
  have hdispatch := h.dispatch
  rw [hevent] at hdispatch
  obtain ⟨htends, hsame⟩ :=
    Simulation.dispatch_continueSlot (h.staffed hw.onTime.staffed) h.ordered hdispatch
  have hdoes := htends.does
  rw [show s.network.now = e.time from h.now] at hdoes
  have hentitled : ∀ q, w'.entitledIn c q = w.entitledIn c q := h.entitledIn_eq hsame
  refine hw.passes_of_does hc h hp hdoes ?_ ?_
    (.ofContinueSlot hw.waits hw.onTime.traced.ordered h.mem hevent hslots hentitled)
    fun q _ _ _ => hentitled q
  · rintro a f ⟨-, -, -, hplain, -⟩ -
    exact hplain
  · rintro ⟨time, id, event, cancelled⟩ ⟨-, hlt, -, rfl⟩
    obtain ⟨q, hq, hdata, hnode, rfl⟩ := hw.waits.continues h.mem hevent hlt
    exact ⟨rfl, settles_of_continueSlot (hslots.trans hq) hdata ((hentitled q).symm ▸ hnode) rfl⟩

/-- What arrives in a data slot is plain, so it does not change who is entitled. -/
theorem Confined.deliver (hc : c.Accepted) (hw : w.Confined c m₀) (h : w.Handles e s w')
    {receiver : Nat} {frame : Frame} (hevent : e.event = .deliver receiver frame) :
    w'.Confined c m₀ := by
  have hp : e.event.isCadence = false := by
    rw [hevent]
    rfl
  have hdispatch := h.dispatch
  have hsane := hw.onTime.traced.sane e h.mem
  rw [hevent] at hdispatch hsane
  obtain ⟨htends, hsame⟩ :=
    Simulation.dispatch_deliver (h.staffed hw.onTime.staffed) hsane hdispatch
  refine hw.passes_of_does hc h hp htends.does (fun _ _ => False.elim) (fun _ => False.elim)
    (.ofSilent fun _ _ => id) fun q hq _ hdata => ?_
  obtain ⟨l, hl⟩ := hw.recorded
  obtain ⟨x, hx, htime, rfl⟩ := hl.sending_of_entry h.mem hevent
  have hslot : x.slot = q := by
    have hbegan : c.slotBegin q ≤ e.time :=
      (hw.waits.began q hq).trans (hw.onTime.traced.ordered.now_le e h.mem)
    have harrives := (hw.sorted.inSlot x hx).arrives
    rw [htime] at harrives
    have hlt := hc.slotBegin_strictMono.lt_iff_lt.1 (Nat.lt_of_le_of_lt hbegan harrives)
    have hxlt := hw.sorted.slot_lt x hx
    omega
  rcases (hw.sorted.inSlot x hx).allowed with ⟨hcontrol, -⟩ | ⟨-, hplain, -⟩
  · exact absurd (hslot ▸ hcontrol) hdata
  · exact h.entitledIn_eq (hsame hplain) q

theorem Confined.arrival (hc : c.Accepted) (hw : w.Confined c m₀) (h : w.Handles e s w') {node : Nat}
    (hevent : e.event = .arrival node) : w'.Confined c m₀ := by
  have hp : e.event.isCadence = false := by
    rw [hevent]
    rfl
  have hdispatch := h.dispatch
  rw [hevent] at hdispatch
  obtain ⟨htends, hsame⟩ := Simulation.dispatch_arrival (h.staffed hw.onTime.staffed) hdispatch
  refine hw.passes_of_does hc h hp htends.does (fun _ _ => False.elim) ?_ (.ofSilent fun _ _ => id)
    fun q _ _ _ => h.entitledIn_eq hsame q
  rintro ⟨time, id, event, cancelled⟩ rfl
  exact ⟨rfl, settles_of_arrival rfl⟩

theorem Confined.envStep (hc : c.Accepted) (hw : w.Confined c m₀) (h : w.Handles e s w')
    (hevent : e.event = .envStep) : w'.Confined c m₀ := by
  have hp : e.event.isCadence = false := by
    rw [hevent]
    rfl
  have hslots := h.slots_eq hp
  have hdispatch := h.dispatch
  rw [hevent] at hdispatch
  have hstaffed := h.staffed hw.onTime.staffed
  have htraced := h.traced hw.onTime.traced
  obtain ⟨-, hsteps⟩ := Simulation.dispatch_envStep hstaffed hdispatch
  obtain ⟨q, hq, hcontrol, -⟩ := hw.waits.steps h.mem hevent
  have hentitled : w.SameEntitled c w' := by
    intro q' hq' _ hdata
    obtain rfl : q = q' := by omega
    exact absurd hcontrol hdata
  rcases hsteps.air with hquiet | ⟨hlt, m, hquiet, hbroadcast⟩
  · exact hw.passes_of_does hc h hp hquiet (fun _ _ => False.elim) (fun _ => False.elim)
      (.ofSilent fun _ _ => id) hentitled
  · obtain ⟨l, hl, hhandling⟩ := hw.handedOut h
    obtain ⟨l₁, hl₁, hextends₁⟩ := hl.mirrors.does hl.listens (fun _ _ => False.elim) hquiet
    have hbefore := Medium.Quiet.leads htraced hquiet
    obtain ⟨l', frame, hl', hkind, htransmitter, hextends', hreached⟩ :=
      hl₁.broadcasts (hbefore.samePlace.listens hl.listens) hbroadcast
    have hextends : Loop.Extends (Medium.Only s.environment.currentNode frame) s.network.medium l l' :=
      (hextends₁.mono fun _ _ => False.elim).trans hbefore.samePlace hextends'
    have hleads := hbefore.trans (hbroadcast.leads hbefore.traced)
    refine hw.passes hc h hp hl hhandling hl' hextends hleads (fun _ => False.elim)
      (.ofBroadcast hc hw.waits h.mem hevent hslots hkind htransmitter) hentitled
      fun hrecorded hsent => ?_
    have hcount : w'.medium.stats.reservationMessages
        = s.network.medium.stats.reservationMessages + 1 := by
      rw [← Does.reservations h.ordered hquiet]
      exact hbroadcast.reservations hbefore.traced.ordered
    refine hw.heard.broadcasts h hrecorded hleads.samePlace hslots hq hcontrol hkind htransmitter
      hcount (fun x hx => hl.id_lt hx) hsent fun receiver hreceiver delay hr => ?_
    have hnode : s.environment.currentNode < c.nodeCount := by
      rwa [hstaffed.length, h.nodeCount hw.onTime] at hlt
    obtain ⟨d, hd, hid, hdeliver⟩ :=
      hreached hnode receiver hreceiver delay (hbefore.samePlace.reaches.2 hr)
    refine ⟨d, hd, ?_, hdeliver⟩
    rw [hl₁.events] at hid
    exact hbefore.nextId_le.trans hid

theorem Confined.idles (hw : w.Confined c m₀) (h : w.Idles w') : w'.Confined c m₀ := by
  have hleads := h.leads hw.onTime.traced
  obtain ⟨l, hl⟩ := hw.recorded
  have hsame : w'.sent = w.sent ∧ w'.slots = w.slots ∧ w'.reservations = w.reservations := by
    rw [h.same]
    exact ⟨rfl, rfl, rfl⟩
  obtain ⟨hsent, hslots, hreservations⟩ := hsame
  have hentitled : ∀ q, w'.entitledIn c q = w.entitledIn c q := fun q =>
    congrArg (fun c' : Controller => c'.entitled _) h.controller
  refine ⟨hw.onTime.idles h, hl.idles hw.onTime.traced h,
    fun a b delay => hleads.samePlace.reaches.trans (hw.reaches a b delay), hw.guarded,
    hw.sorted.of_same hsent hslots hentitled, ?_, ?_⟩
  · refine hw.waits.goOn hslots (Nat.le_of_eq hleads.now.symm) (fun q _ _ _ => hentitled q)
      fun x hx hdelivery => ?_
    rcases hleads.other x hx hdelivery with hold | ⟨-, -, node, hevent⟩
    · exact .inl ⟨hold, fun _ y hy => .inl (hsent ▸ hy)⟩
    · exact .inr (settles_of_arrival hevent)
  · exact hw.heard.goOn (Nat.le_of_eq hslots.symm) (fun x hx => hsent ▸ hx)
      (fun a b delay hr => hleads.samePlace.reaches.1 hr) hreservations
      (h.does.reservations hw.onTime.traced.ordered)

theorem Confined.step (hc : c.Accepted) (hw : w.Confined c m₀) {a : Act} (h : w.step a = some w') :
    w'.Confined c m₀ := by
  rcases step_cases hw.onTime.traced.ordered h with ⟨e, s, hh⟩ | hi
  · cases hevent : e.event with
    | startFrame => exact hw.opens hc hh (by rw [hevent]; rfl)
    | runSlot slot => exact hw.opens hc hh (by rw [hevent]; rfl)
    | continueSlot node slotEnd control => exact hw.continueSlot hc hh hevent
    | deliver receiver frame => exact hw.deliver hc hh hevent
    | envStep => exact hw.envStep hc hh hevent
    | arrival node => exact hw.arrival hc hh hevent
  · exact hw.idles hi

theorem Confined.start {s s' : Simulation σ} (hn : s.network.Still c) (h : s.begin = .ok s')
    (hguard : ∀ a b delay, s.network.medium.Reaches a b delay → delay ≤ c.frame.guardTime) :
    (start s').Confined c s.network.medium := by
  have hplans : ∀ (t : Time) (e : Event), (e = .startFrame ∨ ∃ node, e = .arrival node) →
      e.isDelivery = false := by
    rintro t e (rfl | ⟨node, rfl⟩) <;> rfl
  have hbegin := Simulation.begin_schedules hn.started h
  have hleads := hbegin.leads hn.traced (fun _ _ => False.elim) hplans
  -- what waits is the first frame, or packets
  have hentries : ∀ x ∈ s'.network.medium.events.entries, (Watch.start s').Settles c x := by
    intro x hx
    cases hdelivery : x.event.isDelivery with
    | true => exact settles_of_isDelivery hdelivery
    | false =>
      rcases hleads.other x hx hdelivery with hold | ⟨-, -, hplan⟩
      · rw [hn.events] at hold
        cases hold
      · obtain ⟨time, id, event, cancelled⟩ := x
        rcases hplan with rfl | ⟨node, rfl⟩ <;> exact ⟨nofun, trivial⟩
  refine ⟨OnTime.start hn h, Recorded.start hn h, fun _ _ _ => hleads.samePlace.reaches, hguard,
    ⟨nofun, nofun, nofun, nofun, nofun, nofun⟩,
    ⟨nofun, fun x hx => (hentries x hx).2, fun x hx y hy hxe => absurd hxe (hentries x hx).1⟩,
    ⟨?_, nofun⟩⟩
  have hcount := hbegin.reservations hn.traced.ordered
  rw [hn.stats] at hcount
  exact hcount.symm

theorem Confined.run (hc : c.Accepted) {acts : List Act} (hw : w.Confined c m₀)
    (h : run acts w = some w') : w'.Confined c m₀ :=
  Acts.run_induction (fun _ _ _ _ hw hstep => hw.step hc hstep) hw h

/-- In every state of a run, whatever the agent answers and whenever packets arrive, if a signal takes no
longer than the guard time to any node in range:

A frame that runs into an earlier one is data like that one, and they were sent in one data slot by
different nodes that were entitled to it. As many collisions are counted as frames ran into earlier ones.
A frame is cancelled if and only if it ran into another one or another one ran into it. No reservation
is cancelled: each one that was counted went out in a control slot, to every node in range, and was
handed out there before the next slot began. -/
theorem contention_in_data_slots (hc : c.Accepted) {agent : Agent σ} {agentState : σ}
    {s s' : Simulation σ} (hnew : Simulation.new c agent agentState = .ok s)
    (hguard : ∀ a b delay, s.network.medium.Reaches a b delay → delay ≤ c.frame.guardTime)
    (hbegin : s.begin = .ok s') {acts : List Act} (hrun : run acts (start s') = some w) :
    (∀ x ∈ w.sent, ∀ y ∈ w.sent, x.RunsInto y → x.slot = y.slot ∧ x.entitled = y.entitled ∧
      ∃ a b, a ≠ b ∧ x.InDataSlot c a ∧ y.InDataSlot c b) ∧
    w.medium.stats.collisions = w.sent.countP (fun x => ∃ y ∈ w.sent, x.RunsInto y) ∧
    (∀ e ∈ w.cancelledEvents, ∃ x ∈ w.sent, x.id = e.id) ∧
    (∀ x ∈ w.sent, (∃ e ∈ w.cancelledEvents, e.id = x.id) ↔
      ∃ y ∈ w.sent, x.RunsInto y ∨ y.RunsInto x) ∧
    (∀ x ∈ w.sent, x.frame.kind = .reservation → ∀ e ∈ w.cancelledEvents, e.id ≠ x.id) ∧
    w.reservations.length = w.medium.stats.reservationMessages ∧
    ∀ node slot, (node, slot) ∈ w.reservations → slot < w.slots ∧ c.IsControl slot ∧
      ∀ receiver delay, s.network.medium.Reaches node receiver delay →
        ∃ x ∈ w.sent, x.slot = slot ∧ x.receiver = receiver ∧ x.frame.kind = .reservation ∧
          x.frame.transmitter = Address.ofNode node ∧ x.time < c.slotBegin (slot + 1) ∧
          ∀ e, w.begun[slot + 1]? = some e → x.time < e.time ∧
            ⟨x.time, x.id, .deliver receiver x.frame, false⟩ ∈ w.handed := by
  have hn := Simulation.still_of_new hnew
  have hw := (Confined.start hn hbegin hguard).run hc hrun
  obtain ⟨l, hl⟩ := hw.recorded
  have hnodes : c.nodeCount + 1 < Address.limit :=
    Nat.lt_of_le_of_lt (Nat.succ_le_succ hc.nodeCount.2) (by decide)
  have hmet : ∀ x ∈ w.sent, ∀ y ∈ w.sent, x.RunsInto y → x.slot = y.slot ∧
      x.entitled = y.entitled ∧ ∃ a b, a ≠ b ∧ x.InDataSlot c a ∧ y.InDataSlot c b := by
    intro x hx y hy hruns
    obtain ⟨hslot, hdata⟩ := hw.sorted.met hc hx hy hruns
    obtain ⟨a, ha⟩ := (hw.sorted.inSlot x hx).inDataSlot hdata
    obtain ⟨b, hb⟩ := (hw.sorted.inSlot y hy).inDataSlot (hslot ▸ hdata)
    refine ⟨hslot, hw.sorted.shared x hx y hy hslot hdata, a, b, ?_, ha, hb⟩
    rintro rfl
    exact hruns.2.2.2 (hb.transmitter.trans ha.transmitter.symm)
  have hkept : ∀ x ∈ w.sent, x.frame.kind = .reservation → ∀ e ∈ w.cancelledEvents, e.id ≠ x.id := by
    intro x hx hkind e he hid
    obtain ⟨y, hy, hruns | hruns⟩ := (hl.cancelled_iff hnodes hx).1 ⟨e, he, hid⟩
    · obtain ⟨-, -, a, b, -, ha, -⟩ := hmet x hx y hy hruns
      rw [ha.data] at hkind
      cases hkind
    · obtain ⟨-, -, a, b, -, -, hb⟩ := hmet y hy x hx hruns
      rw [hb.data] at hkind
      cases hkind
  refine ⟨hmet, hl.collisions_eq hnodes, hl.lost, fun x hx => hl.cancelled_iff hnodes hx, hkept,
    hw.heard.counted, fun node slot hmem => ?_⟩
  obtain ⟨hlt, hcontrol, hreached⟩ := hw.heard.reached _ hmem
  refine ⟨hlt, hcontrol, fun receiver delay hr => ?_⟩
  obtain ⟨x, hx, hslot, rfl, hkind, htransmitter⟩ :=
    hreached receiver delay ((hw.reaches node receiver delay).2 hr)
  have harrives := (hw.sorted.inSlot x hx).arrives
  rw [hslot] at harrives
  refine ⟨x, hx, hslot, rfl, hkind, htransmitter, harrives, fun e he => ?_⟩
  obtain ⟨-, htime⟩ := hw.onTime.begun (slot + 1) e he
  have hbefore : x.time < e.time := Nat.lt_of_lt_of_le harrives (Nat.le_of_eq htime.symm)
  have hhanded : e ∈ w.handed := (List.mem_filter.1 (List.mem_of_getElem? he)).1
  refine ⟨hbefore, hl.handed_of_key_le hx ?_ hhanded ?_⟩
  · rintro ⟨x', hx', hid⟩
    exact hkept x hx hkind x' hx' hid
  · exact le_of_lt (Prod.Lex.toLex_lt_toLex.2 (.inl hbefore))

/-- Three nodes that hear each other, with one data slot and a microsecond of guard time. -/
def trio : Config :=
  { nodes := [⟨0.0, 0.0⟩, ⟨100.0, 0.0⟩, ⟨200.0, 0.0⟩]
    frame := { dataSlots := 1, guardTimeUs := 1 }
    reservation := { priorityThreshold := 1 }
    traffic := { enabled := false } }

theorem accepted_trio : trio.Accepted := rfl

/-- Nodes 0 and 1 have a packet each, and both send it in the second frame. -/
def packetEach : List Act :=
  [.arrival 0 0, .arrival 0 1] ++ List.replicate 30 (.next (Time.ofMillis 10))

theorem run_trio : ∃ s s',
    Simulation.new trio (.forNodes [some [0], some [0], some []]) Script.silence = .ok s ∧
    s.begin = .ok s' ∧
    s.network.medium.positions = trio.nodes ∧ s.network.medium.channel.maxRange = 250.0 ∧
    (run packetEach (start s')).map
      (fun w => (w.slots, w.reservations, w.medium.stats.collisions))
      = some (8, [(0, 0), (1, 1), (2, 2), (0, 4), (1, 5), (2, 6)], 1) :=
  ⟨_, _, rfl, rfl, rfl, rfl, by decide +kernel⟩

theorem delay_le_trio {m : Medium} (hp : m.positions = trio.nodes) (a b : Nat) (delay : Time)
    (h : m.Reaches a b delay) : delay ≤ trio.frame.guardTime := by
  obtain ⟨-, here, there, hhere, hthere, -, rfl⟩ := h
  rw [hp] at hhere hthere
  have hall : ∀ here ∈ trio.nodes, ∀ there ∈ trio.nodes,
      Timing.propagationDelay (Point.distance here there) ≤ trio.frame.guardTime := by
    decide +kernel
  exact hall here (List.mem_of_getElem? hhere) there (List.mem_of_getElem? hthere)

theorem reaches_trio {m : Medium} (hp : m.positions = trio.nodes)
    (hr : m.channel.maxRange = 250.0) : m.Reaches 2 0 660 := by
  refine ⟨by decide, ⟨200.0, 0.0⟩, ⟨0.0, 0.0⟩, by rw [hp]; rfl, by rw [hp]; rfl, ?_, ?_⟩
  · rw [hr]
    decide +kernel
  · decide +kernel

/-- Two packets meet at node 2, and the reservation of node 2 reaches node 0 before. -/
theorem contention_in_data_slots_trio : ∃ s s' w,
    Simulation.new trio (.forNodes [some [0], some [0], some []]) Script.silence = .ok s ∧
    s.begin = .ok s' ∧ run packetEach (start s') = some w ∧
    (∃ x ∈ w.sent, ∃ y ∈ w.sent, x.RunsInto y ∧ x.slot = y.slot ∧
      ∃ a b, a ≠ b ∧ x.InDataSlot trio a ∧ y.InDataSlot trio b) ∧
    ∃ x ∈ w.sent, x.slot = 6 ∧ x.frame.kind = .reservation ∧ x.time < trio.slotBegin 7 ∧
      ⟨x.time, x.id, .deliver 0 x.frame, false⟩ ∈ w.handed := by
  obtain ⟨s, s', hnew, hbegin, hp, hr, hrun⟩ := run_trio
  obtain ⟨w, hw, hv⟩ := Option.map_eq_some_iff.1 hrun
  simp only [Prod.mk.injEq] at hv
  obtain ⟨hslots, hreservations, hone⟩ := hv
  obtain ⟨hmet, hcount, -, -, -, -, hreached⟩ :=
    contention_in_data_slots accepted_trio hnew (delay_le_trio hp) hbegin hw
  refine ⟨s, s', w, hnew, hbegin, hw, ?_, ?_⟩
  · rw [hone] at hcount
    obtain ⟨x, hx, hruns⟩ := List.countP_pos_iff.1 (hcount ▸ Nat.one_pos)
    obtain ⟨y, hy, hruns⟩ := of_decide_eq_true hruns
    obtain ⟨hslot, -, hfrom⟩ := hmet x hx y hy hruns
    exact ⟨x, hx, y, hy, hruns, hslot, hfrom⟩
  · obtain ⟨-, -, hheard⟩ := hreached 2 6 (by rw [hreservations]; decide)
    obtain ⟨x, hx, hslot, -, hkind, -, harrives, hhanded⟩ := hheard 0 660 (reaches_trio hp hr)
    have hlt : 7 < w.begun.length := by
      rw [show w.begun.length = 8 from hslots]
      decide
    obtain ⟨-, hmem⟩ := hhanded _ (List.getElem?_eq_getElem hlt)
    exact ⟨x, hx, hslot, hkind, harrives, hmem⟩

end Watch

end SlotNet
