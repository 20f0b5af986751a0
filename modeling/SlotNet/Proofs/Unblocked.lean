import SlotNet.Proofs.Airtime
import SlotNet.Proofs.PacketSize
import SlotNet.Proofs.QueueContents
import SlotNet.Proofs.Trips

/-!
# No frame blocks a data slot

A station that is given a slot looks at its oldest frame that is still young enough. In a data slot that
frame has a way to go (`Network.Guided`), and the slot is long enough for it (`Network.Sized`); so it is sent
when the slot begins (`data_slots_filled`).
-/

namespace SlotNet

/-! ## Stations -/

namespace Station

variable {s s' : Station} {m m' : Medium} {kind : QueueKind}

theorem peek_items {head : Option QueueItem} (h : s.peek m kind = .ok (s', m', head)) (k : QueueKind) :
    s'.queue.items k = (s.queue.items k).filter (·.isYoung s.queue.maxDelay m.now) := by
  obtain ⟨⟨queue, drops, head'⟩, h1, h⟩ := Fault.bind_eq_ok.1 h
  obtain ⟨stats, -, h⟩ := Fault.bind_eq_ok.1 h
  cases h
  exact TransmitQueue.cleanupBoth_items (by decide) (TransmitQueue.peek_eq_ok h1).1 k

/-- Where all data has a way to go and is short enough, the first young frame is sent at once. -/
theorem startSlot_unblocked (hs : s.Guided m) {duration : Time}
    (hfits : ∀ item ∈ s.queue.data, Timing.airtime item.frame.size m.dataRate ≤ duration)
    {sent : Option Frame} (h : s.startSlot m duration false = .ok (s', m', sent)) {item : QueueItem}
    (hitem : s.queue.data.find? (·.isYoung s.queue.maxDelay m.now) = some item) :
    ∃ receiver, s.receiverOf m .data item = some receiver ∧ sent = some (s.aired item receiver) := by
  obtain ⟨slotEnd, hend, h⟩ := Fault.bind_eq_ok.1 h
  obtain rfl := (Time.add_eq_ok hend).1
  obtain ⟨⟨s₁, m₁, next⟩, hnext, h⟩ := Fault.bind_eq_ok.1 h
  have hpeek := nextToSend_guided hs hnext
  obtain ⟨hsheds, hfresh, hhead⟩ := peek_sheds hpeek
  have hfirst : next.map Prod.fst = some item := by
    rw [← hhead, peek_items hpeek, List.head?_filter]
    exact hitem
  obtain ⟨⟨item, receiver⟩, rfl, rfl⟩ := Option.map_eq_some_iff.1 hfirst
  obtain ⟨-, -, hreceiver⟩ := (nextToSend_sheds hnext).2 item receiver rfl
  obtain ⟨finish, hfinish, h⟩ := Fault.bind_eq_ok.1 h
  obtain rfl := (Time.add_eq_ok hfinish).1
  have hends : m₁.now + Timing.airtime item.frame.size m₁.dataRate ≤ m.now + duration := by
    rw [hsheds.now, hsheds.sent.dataRate]
    exact Nat.add_le_add_left (hfits item (List.mem_of_find?_eq_some hitem)) _
  rw [if_neg (Nat.not_lt_of_le hends)] at h
  obtain ⟨rfl, -⟩ := sendHead_airs (hsheds.now.symm ▸ hfresh) hhead hreceiver hends h
  refine ⟨receiver, hsheds.receiverOf .data item ▸ hreceiver, ?_⟩
  rw [aired, aired, hsheds.address]

end Station

/-! ## The network -/

namespace Network

def Sized (size : Nat) (n : Network) : Prop := ∀ node, ∀ p ∈ n.waiting node, p.size = size

/-- The station that is given a slot sends its oldest young data at once, to the next hop. -/
def Fills (n : Network) (g : Grant) : Prop :=
  ∀ s item, n.stations[g.node]? = some s →
    s.queue.data.find? (·.isYoung s.queue.maxDelay n.now) = some item →
    ∃ hop, n.medium.routes.nextHop g.node item.frame.destination = some hop ∧
      g.sent = some { item.frame with
        transmitter := Address.ofNode g.node
        receiver := Address.ofNode hop }

/-- A slot is given now; a data slot is filled. -/
structure Deals (n : Network) (duration : Time) (control : Bool) (g : Grant) : Prop where
  begins : g.start = n.now
  lasts : g.duration = duration
  kind : g.control = control
  fills : control = false → n.Fills g

variable {nodes node size : Nat} {n n' : Network} {duration : Time} {control : Bool}
  {members : List Nat} {grants : List Grant}

theorem Sized.departs (hn : n.Sized size) (h : n.Departs n') : n'.Sized size :=
  fun k p hp => hn k p (h.waiting k p hp)

theorem Sized.size_eq (hn : n.Sized size) {s : Station} (hs : n.stations[node]? = some s)
    {item : QueueItem} (hi : item ∈ s.queue.data) : item.frame.size = size + Frame.overhead := by
  have hpacket : item.frame.packet ∈ n.waiting node := by
    rw [waiting_eq hs]
    exact List.mem_map_of_mem hi
  exact congrArg (· + Frame.overhead) (hn node _ hpacket)

theorem grant_deals (hn : n.Manned) (hg : n.Guided) (hsize : n.Sized size)
    (hfits : control = false →
      Timing.airtime (size + Frame.overhead) n.medium.dataRate ≤ duration)
    (h : n.grant node duration control = .ok (n', grants)) :
    ∀ g ∈ grants, g.node = node ∧ n.Deals duration control g := by
  obtain ⟨⟨n₁, sent⟩, h1, h⟩ := Fault.bind_eq_ok.1 h
  cases h
  rcases onStation_cases h1 with ⟨-, rfl, -⟩ | ⟨s, s', m, r, hs, ha, rfl, -⟩
  · exact nofun
  intro g hmem
  obtain rfl := List.mem_singleton.1 hmem
  refine ⟨rfl, rfl, rfl, rfl, fun hdata t item ht hitem => ?_⟩
  subst hdata
  obtain rfl := Option.some.inj (hs.symm.trans ht)
  have hshort : ∀ item ∈ s.queue.data,
      Timing.airtime item.frame.size n.medium.dataRate ≤ duration := by
    intro item hi
    rw [hsize.size_eq hs hi]
    exact hfits rfl
  obtain ⟨receiver, hreceiver, rfl⟩ :=
    Station.startSlot_unblocked (hg.station hn hs) hshort ha hitem
  obtain ⟨hop, hhop, rfl⟩ := Option.map_eq_some_iff.1 hreceiver
  have hfit := hn node s hs
  refine ⟨hop, hfit.node_eq ▸ hhop, ?_⟩
  show some (s.aired item _) = _
  rw [Station.aired, hfit.address_eq]

theorem Deals.of_same {g : Grant} (h : n'.Deals duration control g)
    (hstation : n'.stations[g.node]? = n.stations[g.node]?) (hnow : n'.now = n.now)
    (hroutes : n'.medium.routes = n.medium.routes) : n.Deals duration control g := by
  refine ⟨h.begins.trans hnow, h.lasts, h.kind, fun hdata s item hs hitem => ?_⟩
  rw [← hnow] at hitem
  rw [← hroutes]
  exact h.fills hdata s item (hstation.trans hs) hitem

theorem grantAll_deals (hn : n.Ready nodes) (hm : n.medium.Traced) (hg : n.Guided)
    (hsize : n.Sized size) (hd : members.Nodup)
    (hfits : control = false →
      Timing.airtime (size + Frame.overhead) n.medium.dataRate ≤ duration)
    (h : n.grantAll duration control members = .ok (n', grants)) :
    ∀ g ∈ grants, g.node ∈ members ∧ n.Deals duration control g := by
  induction members generalizing n grants with
  | nil =>
    cases h
    exact nofun
  | cons node members ih =>
    obtain ⟨hnode, hd⟩ := List.nodup_cons.1 hd
    obtain ⟨⟨n₁, first⟩, h1, h⟩ := Fault.bind_eq_ok.1 h
    obtain ⟨⟨n₂, more⟩, h2, h⟩ := Fault.bind_eq_ok.1 h
    cases h
    have hspeaks := grant_speaks hn.manned hm h1
    have hcarries := grant_carries hn h1
    rw [← hspeaks.dataRate] at hfits
    have hrest := ih hcarries.ready hspeaks.traced (hg.departs hcarries.departs hcarries.routes)
      (hsize.departs hcarries.departs) hd hfits h2
    rw [hspeaks.dataRate] at hfits
    intro g hmem
    rcases List.mem_append.1 hmem with hmem | hmem
    · obtain ⟨hfirst, hdeals⟩ := grant_deals hn.manned hg hsize hfits h1 g hmem
      exact ⟨hfirst ▸ .head _, hdeals⟩
    · obtain ⟨hmember, hdeals⟩ := hrest g hmem
      have hother : g.node ∉ [node] := fun hm => hnode (List.mem_singleton.1 hm ▸ hmember)
      exact ⟨.tail _ hmember, hdeals.of_same (hspeaks.others g.node hother) hspeaks.now hspeaks.routes⟩

variable {c : Config}

theorem runSlot_deals (hn : n.Ready nodes) (hm : n.medium.Traced) (hg : n.Guided)
    (hsize : n.Sized size) (hc : n.controller.Lawful c)
    (hfits : Timing.airtime (size + Frame.overhead) n.medium.dataRate ≤ c.frame.slotTime)
    {slot : Nat} (h : n.runSlot slot = .ok (n', grants)) :
    ∀ g ∈ grants, g.control = false → n.Deals c.frame.slotTime false g := by
  rcases runSlot_cases h with ⟨-, -, rfl⟩ | ⟨n₁, delay, next, m, -, h1, -, -, -⟩
  · exact nofun
  have hopen : Carries nodes n { n with controller := n.controller.openSlot slot } :=
    .ofSame hn rfl hn.prompt rfl fun _ => .refl _
  have hlawful := hc.openSlot slot
  have hlength : Timing.isControlSlot (n.controller.openSlot slot).nodeCount slot = false →
      (n.controller.openSlot slot).slotDuration slot = c.frame.slotTime := by
    intro hdata
    rw [Controller.slotDuration, Timing.slotDuration, hdata, if_neg Bool.false_ne_true, hlawful.layout]
  have hdeals := grantAll_deals (n := { n with controller := n.controller.openSlot slot })
    hopen.ready hm hg hsize (hlawful.once.entitled slot)
    (fun hdata => (hlength hdata).symm ▸ hfits) h1
  intro g hmem hdata
  obtain ⟨-, hdeals⟩ := hdeals g hmem
  have hkind := hdeals.kind.symm.trans hdata
  rw [hkind, hlength hkind] at hdeals
  exact ⟨hdeals.begins, hdeals.lasts, hdata, hdeals.fills⟩

theorem handle_deals (hn : n.Ready nodes) (hm : n.medium.Traced) (hg : n.Guided) (hsize : n.Sized size)
    (hc : n.controller.Lawful c)
    (hfits : Timing.airtime (size + Frame.overhead) n.medium.dataRate ≤ c.frame.slotTime)
    {event : Event} (h : n.handle event = .ok (n', .granted grants)) :
    ∀ g ∈ grants, g.control = false → n.Deals c.frame.slotTime false g := by
  cases event with
  | startFrame =>
    obtain ⟨⟨n₁, grants₁⟩, h1, h⟩ := Fault.map_eq_ok.1 h
    cases h
    have hbegin : Carries nodes n { n with
        controller := n.controller.beginFrame
        medium := { n.medium with stats := { n.medium.stats with
          framesCompleted := n.controller.beginFrame.frameIndex - 1 } } } :=
      .ofSame hn rfl (hn.prompt.setStats _) rfl fun _ => .refl _
    have hdeals := runSlot_deals hbegin.ready (hm.setStats _) hg hsize hc.beginFrame hfits h1
    exact fun g hmem hdata =>
      (hdeals g hmem hdata).of_same rfl rfl rfl
  | runSlot slot =>
    obtain ⟨⟨n₁, grants₁⟩, h1, h⟩ := Fault.map_eq_ok.1 h
    cases h
    exact runSlot_deals hn hm hg hsize hc hfits h1
  | continueSlot node slotEnd control =>
    rcases continueSlot_cases h with ⟨-, hnone⟩ | ⟨s, s', m, sent, -, -, hsent, -⟩
    · cases hnone
    · cases hsent
  | deliver receiver frame =>
    rcases deliver_cases h with ⟨-, hnone, -⟩ | ⟨s, s', m, what, -, -, ⟨content, result, -, hm, -⟩ | ⟨hr, -⟩⟩
    · cases hnone
    · cases hm
    · cases hr
  | envStep => cases h
  | arrival node =>
    rcases arrive_cases h with ⟨-, hnone⟩ | ⟨s, s', m, t, destination, -, -, hmade, -⟩
    · cases hnone
    · cases hmade

end Network

/-! ## Runs -/

namespace Diary

variable {σ : Type}

structure Unblocked (c : Config) (d : Diary σ) : Prop where
  orderly : d.Orderly c
  guided : d.Guided c
  sized : d.Sized c.traffic.packetSize
  deals : ∀ x ∈ d.deeds, ∀ grants, x.handled = .granted grants → ∀ g ∈ grants, g.control = false →
    x.before.Deals c.frame.slotTime false g

variable {c : Config} {d d' : Diary σ} {e : Entry Event} {s : Simulation σ} {x : Deed}

theorem Unblocked.before (hd : d.Unblocked c) (h : d.Handles e s x d') :
    s.network.Sized c.traffic.packetSize := by
  intro k p hp
  rw [h.waiting_eq] at hp
  exact hd.sized.made p (hd.guided.mem_made (hd.guided.waiting k p hp))

theorem Unblocked.handles (hc : c.Accepted) (ht : c.traffic.enabled) (hd : d.Unblocked c)
    (h : d.Handles e s x d') (hsized : d'.Sized c.traffic.packetSize) : d'.Unblocked c := by
  refine ⟨hd.orderly.handles hc h, hd.guided.handles hc h, hsized, fun y hy grants hgrants => ?_⟩
  rw [h.deeds] at hy
  rcases List.mem_append.1 hy with hy | hy
  · exact hd.deals y hy grants hgrants
  obtain rfl := List.mem_singleton.1 hy
  have hrate : s.network.medium.dataRate = c.frame.dataRate := by
    rw [h.watch.medium]
    exact hd.orderly.dataRate
  have hlawful : s.network.controller.Lawful c := by
    rw [h.watch.controller]
    exact hd.orderly.regular.reachable.lawful hc
  have hhandle := h.handle
  rw [hgrants] at hhandle
  rw [h.before]
  exact Network.handle_deals (hd.guided.kept.ready_of_handles h)
    (h.watch.traced hd.orderly.regular.onTime.traced) (hd.guided.before h) (hd.before h) hlawful
    (hrate.symm ▸ hc.airtime_le ht) hhandle

theorem Unblocked.step (hc : c.Accepted) (ht : c.traffic.enabled) (hd : d.Unblocked c) {a : Watch.Act}
    (ha : a.Keeps c.traffic.packetSize) (h : d.step a = some d') : d'.Unblocked c := by
  have hordered := hd.orderly.regular.onTime.traced.ordered
  have hsized := hd.sized.step hordered ha h
  rcases step_cases hordered h with ⟨e, s, x, hh⟩ | ⟨hidle, hdeeds⟩
  · exact hd.handles hc ht hh hsized
  · exact ⟨hd.orderly.idles hidle hdeeds, hd.guided.idles hidle hdeeds, hsized, hdeeds ▸ hd.deals⟩

theorem Unblocked.start (hc : c.Accepted) {agent : Agent σ} {agentState : σ} {s' : Simulation σ}
    (hnew : Simulation.new c agent agentState = .ok s) (h : s.begin = .ok s') :
    (start s').Unblocked c :=
  ⟨.start hnew h, .start hc hnew h, .start hnew h, fun _ hx => absurd hx List.not_mem_nil⟩

/-- In a run with traffic in which no other source of packets is put in, whatever the agent answers and
whenever packets arrive: a station that is given a data slot, and in whose data queue a frame is younger than
the greatest delay, sends the first of those at once, to its next hop. -/
theorem data_slots_filled (hc : c.Accepted) (ht : c.traffic.enabled) {agent : Agent σ} {agentState : σ}
    {s' : Simulation σ} (hnew : Simulation.new c agent agentState = .ok s) (hbegin : s.begin = .ok s')
    {acts : List Watch.Act} (hacts : ∀ a ∈ acts, a.Keeps c.traffic.packetSize)
    (hrun : run acts (start s') = some d) {x : Deed} (hx : x ∈ d.deeds) {grants : List Grant}
    (hgrants : x.handled = .granted grants) {g : Grant} (hg : g ∈ grants) (hdata : g.control = false) :
    g.start = x.before.now ∧ g.duration = c.frame.slotTime ∧
      ∀ station, x.before.stations[g.node]? = some station →
        (∃ item ∈ station.queue.data,
          x.before.now < item.enqueuedAt + station.queue.maxDelay) →
        ∃ item hop, station.queue.data.find? (·.isYoung station.queue.maxDelay x.before.now) = some item ∧
          x.before.medium.routes.nextHop g.node item.frame.destination = some hop ∧
          g.sent = some { item.frame with
            transmitter := Address.ofNode g.node
            receiver := Address.ofNode hop } := by
  have hd : d.Unblocked c :=
    Acts.run_induction (fun _ a ha _ hd hstep => hd.step hc ht (hacts a ha) hstep)
      (.start hc hnew hbegin) hrun
  have hdeals := hd.deals x hx grants hgrants g hg hdata
  refine ⟨hdeals.begins, hdeals.lasts, fun station hstation hyoung => ?_⟩
  obtain ⟨young, hmem, hage⟩ := hyoung
  have hsome : (station.queue.data.find? (·.isYoung station.queue.maxDelay x.before.now)).isSome :=
    List.find?_isSome.2 ⟨young, hmem, decide_eq_true hage⟩
  obtain ⟨item, hitem⟩ := Option.isSome_iff_exists.1 hsome
  obtain ⟨hop, hhop, hsent⟩ := hdeals.fills rfl station item hstation hitem
  exact ⟨item, hop, hitem, hhop, hsent⟩

/-- Two nodes that hear each other and make packets often, which become too old soon. -/
def stalePair : Config := { Config.pair with
  seed := 4
  queue := { maxPackets := 3, maxDelayMs := 1 }
  traffic := { startSecs := 0.0, packetSize := 200, packetsPerSecond := 300.0 } }

theorem accepted_stalePair : stalePair.Accepted := rfl

/-- A data slot that was given to a station. -/
structure DataSlot where
  sent : Option Nat
  start : Time
  maxDelay : Time
  /-- The packets that waited, and since when. -/
  waiting : List (Nat × Time)
  deriving DecidableEq, Repr

/-- The first data slot that was given with an event. -/
def dataSlot (x : Deed) : Option DataSlot :=
  match x.handled with
  | .granted grants => do
    let g ← grants.find? (!·.control)
    let station ← x.before.stations[g.node]?
    return {
      sent := g.sent.map (·.uid), start := x.before.now, maxDelay := station.queue.maxDelay
      waiting := station.queue.data.map fun item => (item.frame.uid, item.enqueuedAt) }
  | _ => none

theorem run_stalePair :
    ((Simulation.new stalePair (.forNodes [some [0], some []]) Script.silence).toOption.bind fun s =>
    s.begin.toOption.bind fun s' => (run (List.replicate 22 (.next (Time.ofMillis 10))) (start s')).map
      fun d => d.deeds.filterMap dataSlot)
    = some [⟨some 6, 3200010, 1000000, [(4, 1991910), (6, 2216844)]⟩] := by
  decide +kernel

/-- In the data slot the first packet in the queue is too old, and the second one is sent. -/
theorem data_slots_filled_stalePair : ∃ s s' d x grants g station,
    Simulation.new stalePair (.forNodes [some [0], some []]) Script.silence = .ok s ∧
    s.begin = .ok s' ∧
    run (List.replicate 22 (.next (Time.ofMillis 10))) (start s') = some d ∧ x ∈ d.deeds ∧
    x.handled = .granted grants ∧ g ∈ grants ∧ g.control = false ∧
    x.before.stations[g.node]? = some station ∧
    station.queue.data.map (fun item => (item.frame.uid, item.enqueuedAt))
      = [(4, 1991910), (6, 2216844)] ∧
    g.sent.map (·.uid) = some 6 ∧
    g.start = x.before.now ∧ g.duration = stalePair.frame.slotTime ∧
    ∃ item hop, station.queue.data.find? (·.isYoung station.queue.maxDelay x.before.now) = some item ∧
      x.before.medium.routes.nextHop g.node item.frame.destination = some hop ∧
      g.sent = some { item.frame with
        transmitter := Address.ofNode g.node
        receiver := Address.ofNode hop } := by
  obtain ⟨s, hnew, hrun⟩ := Option.bind_eq_some_iff.1 run_stalePair
  obtain ⟨s', hbegin, hrun⟩ := Option.bind_eq_some_iff.1 hrun
  obtain ⟨d, hd, hview⟩ := Option.map_eq_some_iff.1 hrun
  rw [Fault.toOption_eq_some] at hnew hbegin
  obtain ⟨x, hx, hgrant⟩ := List.mem_filterMap.1 (hview ▸ List.mem_singleton_self _)
  unfold dataSlot at hgrant
  split at hgrant
  · rename_i grants hgrants
    obtain ⟨g, hg, hgrant⟩ := Option.bind_eq_some_iff.1 hgrant
    obtain ⟨station, hstation, hgrant⟩ := Option.bind_eq_some_iff.1 hgrant
    simp only [pure, Option.some.injEq, DataSlot.mk.injEq] at hgrant
    obtain ⟨hsent, hnow, hdelay, hqueue⟩ := hgrant
    have hdata : g.control = false := by simpa using List.find?_some hg
    have hmem := List.mem_of_find?_eq_some hg
    have hyoung : ∃ item ∈ station.queue.data,
        x.before.now < item.enqueuedAt + station.queue.maxDelay := by
      have hsecond : (6, 2216844) ∈ station.queue.data.map fun item =>
          (item.frame.uid, item.enqueuedAt) := by
        rw [hqueue]
        decide
      obtain ⟨item, hitem, htimes⟩ := List.mem_map.1 hsecond
      refine ⟨item, hitem, ?_⟩
      rw [hnow, hdelay, (Prod.mk.inj htimes).2]
      decide
    obtain ⟨hstart, hduration, hfills⟩ := data_slots_filled accepted_stalePair rfl hnew hbegin
      (fun a ha => by rw [List.eq_of_mem_replicate ha]; trivial) hd hx hgrants hmem hdata
    exact ⟨s, s', d, x, grants, g, station, hnew, hbegin, hd, hx, hgrants, hmem, hdata, hstation, hqueue,
      hsent, hstart, hduration, hfills station hstation hyoung⟩
  · cases hgrant

end Diary

end SlotNet
