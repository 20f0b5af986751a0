import SlotNet.Proofs.Turn

/-!
# Every message can be read

However the operations of the controller follow one another, what a node announces is what it holds,
claims of others one hop further away, and every node can read it (`Lawful.announced`). So in a run all
that is under way can be read (`Legible`), and no message is counted as unreadable.
-/

namespace SlotNet

/-- A claim as a node passes it on: those of others are one hop further away. -/
def Claim.raised (node : Nat) (c : Claim) : Claim :=
  if c.isClaimed && c.owner != node then { c with priority := c.priority + 1 } else c

/-! ## Any operations of the controller -/

namespace Controller

variable {config : Config} {c : Controller}

theorem Relayable.map_advertised (h : c.Relayable) {g : Generation} {node : Nat} {row : List Claim}
    (hrow : c.claims.row g node = some row) :
    (row.map (Claim.advertised node)).map some = row.map fun x => some (x.raised node) := by
  rw [List.map_map]
  refine List.map_congr_left fun x hx => congrArg some ?_
  obtain ⟨d, hd⟩ := List.mem_iff_getElem?.1 hx
  exact Claim.advertised_eq (h g node d x (ClaimTable.get_eq_some_iff.2 ⟨row, hrow, hd⟩)) node

/-- A known node announces the two rows that it holds then. -/
theorem Lawful.announced (hconfig : config.Accepted) (h : c.Lawful config) {node : Nat}
    (hnode : node < config.nodeCount) :
    ∃ message previous current, c.status node = some message ∧
      (c.reserved node).claims.row .previous node = some previous ∧
      (c.reserved node).claims.row .current node = some current ∧
      previous.length = config.frame.dataSlots ∧ current.length = config.frame.dataSlots ∧
      StatusMessage.decode message config.frame.dataSlots = .ok
        ⟨previous.map fun x => some (x.raised node), current.map fun x => some (x.raised node)⟩ := by
  obtain ⟨message, hstatus⟩ := status_isSome h.shaped (h.nodeCount ▸ hnode)
  have hreserved := h.reserved hconfig node
  obtain ⟨previous, current, hp, hq, hdecode⟩ := decode_rows hreserved.relayable h.shaped hstatus
  have hlength : ∀ g row, (c.reserved node).claims.row g node = some row →
      row.length = config.frame.dataSlots := by
    intro g row hrow
    rw [← hreserved.layout]
    exact hreserved.shaped.claims.length_of_row hrow
  rw [hreserved.relayable.map_advertised hp, hreserved.relayable.map_advertised hq, h.layout]
    at hdecode
  exact ⟨message, previous, current, hstatus, hp, hq, hlength _ _ hp, hlength _ _ hq, hdecode⟩

theorem Lawful.merge_ok (h : c.Lawful config) {message : List UInt8} {m : StatusMessage}
    (hdecode : StatusMessage.decode message config.frame.dataSlots = .ok m) (observer : Nat) :
    ∃ lost, (c.merge message observer).2 = .ok lost := by
  unfold Controller.merge
  rw [h.layout, hdecode]
  exact ⟨_, rfl⟩

end Controller

/-! ## What is under way -/

def Frame.Legible (slots : Nat) (f : Frame) : Prop :=
  ∀ content, f.payload = .bytes content → ∃ m, StatusMessage.decode content slots = .ok m

def Event.Legible (slots : Nat) : Event → Prop
  | .deliver _ frame => frame.Legible slots
  | _ => True

theorem Frame.Plain.legible {f : Frame} (h : f.Plain) (slots : Nat) : f.Legible slots := by
  obtain ⟨-, size, hblank⟩ := h
  intro content hcontent
  rw [hblank] at hcontent
  cases hcontent

theorem Event.legible_of_plan {slots : Nat} {e : Event} (h : e.isDelivery = false) :
    e.Legible slots := by
  cases e with
  | deliver receiver frame => cases h
  | _ => trivial

namespace Medium

variable {P : Event → Prop} {sends : Nat → Frame → Prop} {plans : Time → Event → Prop}
  {m m' : Medium}

theorem carries_transmit (hm : m.events.Ordered) (hold : ∀ e ∈ m.events.entries, P e.event)
    {sender : Nat} {frame : Frame} {o : TransmitOutcome} (hf : ∀ r, P (.deliver r frame))
    (h : m.transmit sender frame = .ok (m', o)) : ∀ e ∈ m'.events.entries, P e.event := by
  obtain ⟨⟨c, events, stats, o'⟩, ht, h⟩ := Fault.bind_eq_ok.1 h
  cases h
  rcases Channel.transmit_cases ht with ⟨-, rfl, -⟩ | ⟨endpoint, here, s, -, -, hs, -, rfl, -⟩
  · exact hold
  · intro e he
    rcases (Channel.adds_spread hm hs).origin e he with ⟨x, hx, b, rfl, -⟩ | ⟨-, receiver, hr⟩
    · exact hold x hx
    · rw [hr]
      exact hf receiver

theorem Announces.carries {node : Nat} {message : List UInt8} (h : m.Announces node message m')
    (hm : m.events.Ordered) (hold : ∀ e ∈ m.events.entries, P e.event)
    (hf : ∀ frame : Frame, frame.kind = .reservation → frame.payload = .bytes message →
      ∀ r, P (.deliver r frame)) : ∀ e ∈ m'.events.entries, P e.event := by
  obtain ⟨stats, frame, o, hkind, -, -, hpayload, -, -, -, hsend⟩ := h
  exact carries_transmit (m := { m with nextUid := m.nextUid + 1, stats }) hm hold
    (hf frame hkind hpayload) hsend

theorem Step.carries (hs : ∀ a f, sends a f → ∀ r, P (.deliver r f)) (hp : ∀ t e, plans t e → P e)
    (hm : m.events.Ordered) (hold : ∀ e ∈ m.events.entries, P e.event) (h : Step sends plans m m') :
    ∀ e ∈ m'.events.entries, P e.event := by
  cases h with
  | count h => exact hold
  | takeUid => exact hold
  | scheduleAt hplan =>
    intro e he
    rcases EventQueue.mem_scheduleAt.1 he with rfl | he
    · exact hp _ _ hplan
    · exact hold e he
  | transmit hsend h => exact carries_transmit hm hold (hs _ _ hsend) h

theorem Does.carries (hs : ∀ a f, sends a f → ∀ r, P (.deliver r f)) (hp : ∀ t e, plans t e → P e)
    (hm : m.events.Ordered) (hold : ∀ e ∈ m.events.entries, P e.event) (h : Does sends plans m m') :
    ∀ e ∈ m'.events.entries, P e.event := by
  induction h with
  | refl => exact hold
  | tail hbefore hstep ih => exact hstep.carries hs hp (Does.clock hm hbefore).1 ih

end Medium

namespace Network

variable {n n' : Network}

theorem status_of_receive {s s' : Station} {m m' : Medium} {frame : Frame} {content : List UInt8}
    (h : s.receive m frame = .ok (s', m', .status content)) : frame.payload = .bytes content := by
  unfold Station.receive at h
  split at h
  · cases h
  split at h
  · rename_i hstatus
    cases hpayload : frame.payload with
    | blank size =>
      rw [hpayload] at hstatus
      cases hstatus
    | bytes bs =>
      rw [hpayload] at h
      cases h
      rfl
  split at h
  · cases h
  obtain ⟨stats, -, h⟩ := Fault.bind_eq_ok.1 h
  split at h
  · obtain ⟨stats', -, h⟩ := Fault.bind_eq_ok.1 h
    cases h
  · obtain ⟨⟨s₁, m₁, result⟩, -, h⟩ := Fault.bind_eq_ok.1 h
    cases result <;> cases h

theorem handle_reads {config : Config} (hn : n.controller.Lawful config) {event : Event}
    (hevent : event.Legible config.frame.dataSlots) {handled : Handled}
    (h : n.handle event = .ok (n', handled)) (e : StatusError) :
    handled ≠ .merged (.error e) := by
  rintro rfl
  cases event with
  | startFrame =>
    obtain ⟨x, -, h⟩ := Fault.map_eq_ok.1 h
    cases h
  | runSlot slot =>
    obtain ⟨x, -, h⟩ := Fault.map_eq_ok.1 h
    cases h
  | continueSlot node slotEnd control =>
    rcases continueSlot_cases h with ⟨-, h⟩ | ⟨s, s', m, sent, -, -, h, -⟩ <;> cases h
  | envStep => cases h
  | arrival node =>
    rcases arrive_cases h with ⟨-, h⟩ | ⟨s, s', m, traffic, destination, -, -, h, -⟩ <;> cases h
  | deliver receiver frame =>
    rcases deliver_cases h with ⟨-, h, -⟩ | ⟨s, s', m, what, -, ha, hwhat⟩
    · cases h
    rcases hwhat with ⟨content, result, rfl, hresult, hmerge⟩ | ⟨h, -⟩
    · obtain ⟨decoded, hdecode⟩ := hevent content (status_of_receive ha)
      obtain ⟨lost, hlost⟩ := hn.merge_ok hdecode receiver
      cases hresult
      cases (merge_cases hmerge).1.trans hlost
    · cases h

end Network

/-! ## Runs -/

namespace Watch

variable {σ : Type} {c : Config} {w w' : Watch σ} {e : Entry Event} {s : Simulation σ}

/-- What holds between two events: all that is under way can be read, and so could all that was. -/
structure Legible (c : Config) (w : Watch σ) : Prop where
  regular : w.Regular c
  entries : ∀ e ∈ w.entries, e.event.Legible c.frame.dataSlots
  malformed : w.medium.stats.malformedReservations = 0

theorem Legible.turn (hc : c.Accepted) (hw : w.Legible c) (h : w.Handles e s w') {node : Nat}
    (hold : ∀ x ∈ s.network.medium.events.entries, x.event.Legible c.frame.dataSlots)
    (hturn : s.Turn node w'.simulation) :
    (∀ x ∈ w'.entries, x.event.Legible c.frame.dataSlots) ∧
      w'.medium.stats.malformedReservations = s.network.medium.stats.malformedReservations := by
  have hreachable : Controller.Reachable c s.network.controller := by
    rw [h.controller]
    exact hw.regular.reachable
  obtain ⟨c₁, message, hc₁, hsays⟩ := hturn.says (h.staffed hw.regular.onTime.staffed)
  have hlawful := (hc₁ c hreachable).lawful hc
  have hdecode := Controller.decode_rows (hlawful.reserved hc node).relayable hlawful.shaped
    hsays.status
  obtain ⟨previous, current, -, -, hdecode⟩ := hdecode
  rw [hlawful.layout] at hdecode
  refine ⟨?_, (congrArg (fun d => d.2.1) hsays.counts.2.1)⟩
  obtain ⟨stats, m, -, -, hannounces, -, hmedium⟩ := hsays.air
  have hentries : w'.medium.events.entries = m.events.entries := by rw [medium, network, hmedium]
  show ∀ x ∈ w'.medium.events.entries, _
  rw [hentries]
  refine hannounces.carries h.ordered hold fun frame _ hpayload _ content hcontent => ?_
  rw [hpayload] at hcontent
  cases hcontent
  exact ⟨_, hdecode⟩

theorem Legible.handles (hc : c.Accepted) (hw : w.Legible c) (h : w.Handles e s w') :
    w'.Legible c := by
  have hold : ∀ x ∈ s.network.medium.events.entries, x.event.Legible c.frame.dataSlots :=
    fun x hx => hw.entries x ((h.rest x).1 hx).1
  have hcount : s.network.medium.stats.malformedReservations = 0 := by
    rw [h.medium]
    exact hw.malformed
  have hregular := hw.regular.handles hc h
  rcases hw.regular.cases hc h with ⟨hne, network, handled, hserves⟩ | ⟨-, -, hdone⟩ | ⟨-, -, hturn⟩
  · have hlawful : s.network.controller.Lawful c := by
      rw [h.controller]
      exact hw.regular.reachable.lawful hc
    have hread := Network.handle_reads hlawful (hw.entries e h.mem) hserves.handle
    refine ⟨hregular, ?_, (hserves.malformed hread).trans hcount⟩
    exact (hw.regular.does hc h hne).carries
      (fun a f hsend _ => hsend.1.legible c.frame.dataSlots) (fun _ _ => Event.legible_of_plan)
      h.ordered hold
  · have hmedium : w'.medium = s.network.medium := by rw [medium, network, hdone]
    refine ⟨hregular, ?_, ?_⟩
    · show ∀ x ∈ w'.medium.events.entries, _
      rwa [hmedium]
    · rw [hmedium, hcount]
  · obtain ⟨hentries, hmalformed⟩ := hw.turn hc h hold hturn
    exact ⟨hregular, hentries, hmalformed.trans hcount⟩

theorem Legible.idles (hw : w.Legible c) (h : w.Idles w') : w'.Legible c := by
  refine ⟨hw.regular.idles h, ?_, ?_⟩
  · refine h.does.carries (fun _ _ => False.elim) ?_ hw.regular.onTime.traced.ordered hw.entries
    rintro t x ⟨node, rfl⟩
    trivial
  · rw [h.medium]
    exact hw.malformed

theorem Legible.step (hc : c.Accepted) (hw : w.Legible c) {a : Act} (h : w.step a = some w') :
    w'.Legible c := by
  rcases step_cases hw.regular.onTime.traced.ordered h with ⟨e, s, hh⟩ | hi
  · exact hw.handles hc hh
  · exact hw.idles hi

theorem Legible.run (hc : c.Accepted) {acts : List Act} (hw : w.Legible c)
    (h : run acts w = some w') : w'.Legible c :=
  Acts.run_induction (fun _ _ _ _ hw hstep => hw.step hc hstep) hw h

theorem Legible.start {agent : Agent σ} {agentState : σ} {s' : Simulation σ}
    (hnew : Simulation.new c agent agentState = .ok s) (h : s.begin = .ok s') :
    (start s').Legible c := by
  have hn := Simulation.still_of_new hnew
  refine ⟨Regular.start hnew h, ?_, ?_⟩
  · refine (Simulation.begin_schedules hn.started h).carries (fun _ _ => False.elim) ?_
      hn.traced.ordered ?_
    · rintro t x (rfl | ⟨node, rfl⟩) <;> trivial
    · rw [hn.events]
      exact nofun
  · have hduties := (Simulation.begin_sent h).counted.duties
    rw [hn.stats] at hduties
    exact congrArg (fun d => d.2.1) hduties

end Watch

/-- However the operations of the controller follow one another, whatever messages reach whom:

Every claim in the table fits its digits, and what nobody claims is free. A known node has a message to
announce, and it announces that one and no other when it reserves. The message is read, for the data
slots of the frame, as the two rows that the node holds then, claims of others exactly one hop further
away. Every observer can merge it.

In every state of a run, whatever the agent answers and whenever packets arrive, no message has been
counted as unreadable. -/
theorem messages_legible {config : Config} (hc : config.Accepted) :
    (∀ c, Controller.Reachable config c →
      (∀ g n d claim, c.claims.get g n d = some claim →
        claim.priority ≤ 9 ∧ claim.owner ≤ 99 ∧ (claim.isClaimed = false → claim = .free)) ∧
      ∀ node < config.nodeCount, ∃ message previous current, c.status node = some message ∧
        (∀ m c' m' o, c.reserve m node = .ok (c', m', o) →
          c' = c.reserved node ∧ m.Announces node message m') ∧
        (c.reserved node).claims.row .previous node = some previous ∧
        (c.reserved node).claims.row .current node = some current ∧
        previous.length = config.frame.dataSlots ∧ current.length = config.frame.dataSlots ∧
        StatusMessage.decode message config.frame.dataSlots = .ok
          ⟨previous.map fun x => some (x.raised node), current.map fun x => some (x.raised node)⟩ ∧
        ∀ c', Controller.Reachable config c' → ∀ observer,
          ∃ lost, (c'.merge message observer).2 = .ok lost) ∧
    ∀ (σ : Type) (agent : Agent σ) (agentState : σ) (s s' : Simulation σ) (acts : List Watch.Act)
      (w : Watch σ), Simulation.new config agent agentState = .ok s → s.begin = .ok s' →
      Watch.run acts (Watch.start s') = some w → w.medium.stats.malformedReservations = 0 := by
  refine ⟨fun c hreachable => ?_, fun σ agent agentState s s' acts w hnew hbegin hrun =>
    ((Watch.Legible.start hnew hbegin).run hc hrun).malformed⟩
  have hlawful := hreachable.lawful hc
  refine ⟨fun g n d claim hget => ?_, fun node hnode => ?_⟩
  · have hrelayable := hlawful.relayable g n d claim hget
    exact ⟨Nat.le_of_lt hrelayable.priority_lt, hrelayable.owner_le, hlawful.tidy g n d claim hget⟩
  · obtain ⟨message, previous, current, hstatus, hp, hq, hlp, hlq, hdecode⟩ :=
      hlawful.announced hc hnode
    exact ⟨message, previous, current, hstatus, fun m c' m' o hreserve =>
      ⟨(Controller.reserve_ok hreserve).1, Controller.reserve_announces hstatus hreserve⟩, hp, hq, hlp,
      hlq, hdecode, fun c' hreachable' observer => (hreachable'.lawful hc).merge_ok hdecode observer⟩

theorem run_heard : ∃ c, Controller.ofConfig Config.pair = .ok c ∧
    ((c.merge (StatusMessage.encode [.free] [.own 0]) 1).1.reserved 1).claims.row .previous 1
      = some [.free] ∧
    ((c.merge (StatusMessage.encode [.free] [.own 0]) 1).1.reserved 1).claims.row .current 1
      = some [.own 0] :=
  ⟨_, rfl, by decide +kernel, by decide +kernel⟩

/-- Node 1 has heard from its neighbour that node 0 claims the data slot. It announces the claim with the
next priority, and node 0 can merge that. In a run no message is unreadable. -/
theorem messages_legible_pair : ∃ c message, Controller.Reachable Config.pair c ∧
    c.status 1 = some message ∧
    StatusMessage.decode message 1 = .ok ⟨[some .free], [some ⟨2, 0⟩]⟩ ∧
    (∃ lost, (c.merge message 0).2 = .ok lost) ∧
    ∃ s s' w,
      Simulation.new Config.pair (.forNodes [some [0], some []]) Script.silence = .ok s ∧
      s.begin = .ok s' ∧ Watch.run Watch.twoPackets (Watch.start s') = some w ∧ w.slots = 6 ∧
      w.medium.stats.malformedReservations = 0 := by
  obtain ⟨hcontroller, hruns⟩ := messages_legible Config.accepted_pair
  obtain ⟨c, hc, hprevious, hcurrent⟩ := run_heard
  have hreachable := (Controller.Reachable.new hc).merge (StatusMessage.encode [.free] [.own 0]) 1
  obtain ⟨-, hannounced⟩ := hcontroller _ hreachable
  obtain ⟨message, previous, current, hstatus, -, hp, hq, -, -, hdecode, hmerge⟩ :=
    hannounced 1 (by decide)
  obtain rfl : [Claim.free] = previous := Option.some.inj (hprevious.symm.trans hp)
  obtain rfl : [Claim.own 0] = current := Option.some.inj (hcurrent.symm.trans hq)
  obtain ⟨s, s', hnew, hbegin, hrun⟩ := Watch.run_pair
  obtain ⟨w, hw, hslots⟩ := Option.map_eq_some_iff.1 hrun
  exact ⟨_, message, hreachable, hstatus, hdecode, hmerge _ hreachable 0, s, s', w, hnew, hbegin, hw,
    hslots, hruns _ _ _ s s' _ w hnew hbegin hw⟩

end SlotNet
