import SlotNet.Proofs.Conveyance
import SlotNet.Proofs.Turn

/-!
# Where every packet has a way, none is dropped for want of one

The count of frames without a way grows in one place, when the oldest frame of a queue has none
(`Station.nextToSend`). If all that waits has a way (`Network.Guided`), this does not happen: looking for the
next frame is looking at the oldest one (`nextToSend_guided`), and no event adds to the count
(`handle_noRouteDrops`). Nor does what the run does after the network (`dispatch_noRouteDrops`).
-/

namespace SlotNet

/-! ## Counting other things -/

namespace Stats

variable {s s' : Stats}

theorem noRouteDrops_of_tally (h : s'.tally = s.tally) : s'.noRouteDrops = s.noRouteDrops :=
  (grows_of_tally h).1.losses .noRoute

theorem noRouteDrops_of_map {n : Except Fault Nat} {f : Nat → Stats} (h : n.map f = .ok s')
    (hf : ∀ n, (f n).noRouteDrops = s.noRouteDrops) : s'.noRouteDrops = s.noRouteDrops := by
  obtain ⟨n, -, rfl⟩ := Fault.map_eq_ok.1 h
  exact hf n

theorem noRouteDrops_recordDrops {drops : List Drop} (h : s.recordDrops drops = .ok s') :
    s'.noRouteDrops = s.noRouteDrops := by
  have hgrows := (grows_recordDrops h).1.losses .noRoute
  have hnone : ((lossesOf drops).map Prod.snd).count .noRoute = 0 := by
    rw [Multiset.count_eq_zero, lossesOf]
    simp
  rwa [hnone, Nat.add_zero] at hgrows

theorem noRouteDrops_recordDelivery {bytes : Nat} {delay : Time}
    (h : s.recordDelivery bytes delay = .ok s') : s'.noRouteDrops = s.noRouteDrops := by
  obtain ⟨a, -, h⟩ := Fault.bind_eq_ok.1 h
  obtain ⟨b, -, h⟩ := Fault.bind_eq_ok.1 h
  obtain ⟨c, -, h⟩ := Fault.bind_eq_ok.1 h
  cases h
  rfl

end Stats

namespace Channel

variable {frame : Frame} {underWay : List InFlight} {s s' : Spread}

theorem noRouteDrops_deliver {sender : Address} {listener : Endpoint} {distance : Float}
    (h : deliver underWay sender frame listener distance s = .ok s') :
    s'.stats.noRouteDrops = s.stats.noRouteDrops := by
  unfold deliver at h
  dsimp only at h
  obtain ⟨stats, h1, h⟩ := Fault.bind_eq_ok.1 h
  obtain ⟨⟨id, events⟩, -, h⟩ := Fault.bind_eq_ok.1 h
  have hfirst : stats.noRouteDrops = s.stats.noRouteDrops :=
    Stats.noRouteDrops_of_map h1 fun _ => rfl
  split at h
  · cases h
    exact hfirst
  · obtain ⟨stats', h2, h⟩ := Fault.bind_eq_ok.1 h
    obtain ⟨stats'', h3, h⟩ := Fault.bind_eq_ok.1 h
    cases h
    have hown : stats'.noRouteDrops = stats.noRouteDrops :=
      Stats.noRouteDrops_of_map h2 fun _ => rfl
    have hcollision : stats''.noRouteDrops = stats'.noRouteDrops :=
      Stats.noRouteDrops_of_map h3 fun _ => rfl
    exact hcollision.trans (hown.trans hfirst)

theorem noRouteDrops_spread {maxRange : Float} {positions : List Point} {sender : Endpoint}
    {here : Point} {listeners : List Endpoint}
    (h : spread maxRange positions underWay sender here frame listeners s = .ok s') :
    s'.stats.noRouteDrops = s.stats.noRouteDrops := by
  induction listeners generalizing s with
  | nil =>
    cases h
    rfl
  | cons listener listeners ih =>
    obtain ⟨t, ht, h⟩ := Fault.bind_eq_ok.1 h
    cases hd : hearingDistance maxRange positions sender.node here listener with
    | none =>
      simp only [hd] at ht
      cases ht
      exact ih h
    | some distance =>
      simp only [hd] at ht
      exact (ih h).trans (noRouteDrops_deliver ht)

end Channel

namespace Medium

variable {m m' : Medium}

theorem noRouteDrops_transmit {sender : Nat} {frame : Frame} {o : TransmitOutcome}
    (h : m.transmit sender frame = .ok (m', o)) : m'.stats.noRouteDrops = m.stats.noRouteDrops := by
  obtain ⟨⟨c, events, stats, o'⟩, ht, h⟩ := Fault.bind_eq_ok.1 h
  cases h
  rcases Channel.transmit_cases ht with ⟨-, -, rfl⟩ | ⟨endpoint, here, s, -, -, hs, -, -, rfl⟩
  · rfl
  · exact Channel.noRouteDrops_spread hs

theorem noRouteDrops_schedule {delay : Time} {event : Event} (h : m.schedule delay event = .ok m') :
    m'.stats.noRouteDrops = m.stats.noRouteDrops := by
  rw [schedule_ok h]

end Medium

/-! ## Stations -/

namespace Station

variable {s s' : Station} {m m' : Medium} {kind : QueueKind}

/-- All data that waits at a station has a way to go. -/
def Guided (s : Station) (m : Medium) : Prop :=
  ∀ item ∈ s.queue.data, (m.routes.nextHop s.node item.frame.destination).isSome

theorem Guided.receiverOf (h : s.Guided m) {item : QueueItem} (hi : item ∈ s.queue.items kind) :
    (s.receiverOf m kind item).isSome := by
  cases kind with
  | control => rfl
  | data =>
    rw [Station.receiverOf, Option.isSome_map]
    exact h item hi

theorem peek_noRouteDrops {head : Option QueueItem} (h : s.peek m kind = .ok (s', m', head)) :
    m'.stats.noRouteDrops = m.stats.noRouteDrops := by
  obtain ⟨⟨queue, drops, head'⟩, -, h⟩ := Fault.bind_eq_ok.1 h
  obtain ⟨stats, h2, h⟩ := Fault.bind_eq_ok.1 h
  cases h
  exact Stats.noRouteDrops_recordDrops h2

/-- Where all that waits has a way, the next frame is the oldest one. -/
theorem nextToSend_guided (hs : s.Guided m) {fuel : Nat} {next : Option (QueueItem × Address)}
    (h : nextToSend kind (fuel + 1) s m = .ok (s', m', next)) :
    s.peek m kind = .ok (s', m', next.map Prod.fst) := by
  unfold nextToSend at h
  obtain ⟨⟨s₁, m₁, head⟩, h1, h⟩ := Fault.bind_eq_ok.1 h
  obtain ⟨hsheds, -, hhead⟩ := peek_sheds h1
  rw [h1]
  cases head with
  | none =>
    cases h
    rfl
  | some item =>
    have hitem : item ∈ s.queue.items kind :=
      (hsheds.queue.items kind).subset (List.mem_of_head? hhead)
    have hway := hs.receiverOf hitem
    rw [← hsheds.receiverOf] at hway
    obtain ⟨address, haddress⟩ := Option.isSome_iff_exists.1 hway
    simp only [haddress] at h
    cases h
    rfl

theorem sendHead_noRouteDrops {receiver : Address} {airtime slotEnd : Time} {sent : Option Frame}
    (h : s.sendHead m kind receiver airtime slotEnd = .ok (s', m', sent)) :
    m'.stats.noRouteDrops = m.stats.noRouteDrops := by
  unfold sendHead at h
  obtain ⟨⟨s₁, m₁, head⟩, h1, h⟩ := Fault.bind_eq_ok.1 h
  obtain ⟨⟨queue, drops, head'⟩, -, h1⟩ := Fault.bind_eq_ok.1 h1
  obtain ⟨stats, h2, h1⟩ := Fault.bind_eq_ok.1 h1
  cases h1
  have hdrops := Stats.noRouteDrops_recordDrops h2
  cases head with
  | none =>
    cases h
    exact hdrops
  | some item =>
    obtain ⟨stats', h3, h⟩ := Fault.bind_eq_ok.1 h
    obtain ⟨⟨m₂, o⟩, h4, h⟩ := Fault.bind_eq_ok.1 h
    obtain ⟨m₃, h5, h⟩ := Fault.bind_eq_ok.1 h
    cases h
    have hsent := Stats.noRouteDrops_of_tally (Stats.tally_recordTransmission h3)
    exact (Medium.noRouteDrops_schedule h5).trans
      ((Medium.noRouteDrops_transmit h4).trans (hsent.trans hdrops))

theorem continueSlot_noRouteDrops (hs : s.Guided m) {slotEnd : Time} {control : Bool}
    {sent : Option Frame} (h : s.continueSlot m slotEnd control = .ok (s', m', sent)) :
    m'.stats.noRouteDrops = m.stats.noRouteDrops := by
  unfold continueSlot at h
  obtain ⟨⟨s₁, m₁, next⟩, h1, h⟩ := Fault.bind_eq_ok.1 h
  have hpeek := peek_noRouteDrops (nextToSend_guided hs h1)
  cases next with
  | none =>
    cases h
    exact hpeek
  | some next =>
    obtain ⟨finish, -, h⟩ := Fault.bind_eq_ok.1 h
    split at h
    · cases h
      exact hpeek
    · exact (sendHead_noRouteDrops h).trans hpeek

theorem startSlot_noRouteDrops (hs : s.Guided m) {duration : Time} {control : Bool}
    {sent : Option Frame} (h : s.startSlot m duration control = .ok (s', m', sent)) :
    m'.stats.noRouteDrops = m.stats.noRouteDrops := by
  obtain ⟨slotEnd, -, h⟩ := Fault.bind_eq_ok.1 h
  exact continueSlot_noRouteDrops hs h

theorem enqueue_noRouteDrops {frame : Frame} {result : Except EnqueueError QueueKind}
    (h : s.enqueue m frame = .ok (s', m', result)) :
    m'.stats.noRouteDrops = m.stats.noRouteDrops := by
  obtain ⟨⟨queue, drops, result'⟩, -, h⟩ := Fault.bind_eq_ok.1 h
  obtain ⟨stats, h2, h⟩ := Fault.bind_eq_ok.1 h
  cases h
  exact Stats.noRouteDrops_recordDrops h2

theorem receive_noRouteDrops {frame : Frame} {what : Received}
    (h : s.receive m frame = .ok (s', m', what)) :
    m'.stats.noRouteDrops = m.stats.noRouteDrops := by
  unfold receive at h
  split at h
  · cases h
    rfl
  split at h
  · cases h
    rfl
  split at h
  · cases h
    rfl
  obtain ⟨stats, h1, h⟩ := Fault.bind_eq_ok.1 h
  have hcount := Stats.noRouteDrops_of_tally (Stats.tally_recordReception h1)
  split at h
  · obtain ⟨stats', h2, h⟩ := Fault.bind_eq_ok.1 h
    cases h
    exact (Stats.noRouteDrops_recordDelivery h2).trans hcount
  · obtain ⟨⟨s₁, m₁, result⟩, h2, h⟩ := Fault.bind_eq_ok.1 h
    cases result <;> cases h <;> exact (enqueue_noRouteDrops h2).trans hcount

end Station

theorem Traffic.arrive_noRouteDrops {node : Nat} {t t' : Traffic} {s s' : Station} {m m' : Medium}
    {destination : Option Nat} (h : t.arrive s m node = .ok (t', s', m', destination)) :
    m'.stats.noRouteDrops = m.stats.noRouteDrops := by
  obtain ⟨m₁, h1, h⟩ := arrive_cases h
  have hfirst : m₁.stats.noRouteDrops = m.stats.noRouteDrops := by
    rcases h1 with rfl | ⟨gap, -, h1⟩
    · rfl
    · exact Medium.noRouteDrops_schedule h1
  rcases h with ⟨-, rfl, rfl⟩ | ⟨d, stats, result, -, h2, h3⟩
  · exact hfirst
  · have hcount : stats.noRouteDrops = m₁.stats.noRouteDrops :=
      Stats.noRouteDrops_of_map h2 fun _ => rfl
    exact (Station.enqueue_noRouteDrops h3).trans (hcount.trans hfirst)

/-! ## The network -/

namespace Network

def Guided (n : Network) : Prop :=
  ∀ node, ∀ p ∈ n.waiting node, (n.medium.routes.nextHop node p.destination).isSome

variable {nodes node : Nat} {n n' : Network}

theorem Guided.station (hn : n.Guided) (hm : n.Manned) {s : Station}
    (hs : n.stations[node]? = some s) : s.Guided n.medium := by
  intro item hi
  rw [(hm node s hs).node_eq]
  refine hn node item.frame.packet ?_
  rw [waiting_eq hs]
  exact List.mem_map_of_mem hi

theorem Guided.departs (hn : n.Guided) (h : n.Departs n')
    (hr : n'.medium.routes = n.medium.routes) : n'.Guided := by
  intro k p hp
  rw [hr]
  exact hn k p (h.waiting k p hp)

theorem grantAll_noRouteDrops (hn : n.Ready nodes) (hg : n.Guided) {duration : Time} {control : Bool}
    {members : List Nat} {grants : List Grant}
    (h : n.grantAll duration control members = .ok (n', grants)) :
    n'.medium.stats.noRouteDrops = n.medium.stats.noRouteDrops := by
  induction members generalizing n grants with
  | nil =>
    cases h
    rfl
  | cons node members ih =>
    obtain ⟨⟨n₁, first⟩, h1, h⟩ := Fault.bind_eq_ok.1 h
    obtain ⟨⟨n₂, more⟩, h2, h⟩ := Fault.bind_eq_ok.1 h
    cases h
    have hcarries := grant_carries hn h1
    refine (ih hcarries.ready (hg.departs hcarries.departs hcarries.routes) h2).trans ?_
    obtain ⟨⟨n₃, sent⟩, h3, h1⟩ := Fault.bind_eq_ok.1 h1
    cases h1
    rcases onStation_cases h3 with ⟨rfl, -, -⟩ | ⟨s, s', m, r, hs, ha, -, rfl⟩
    · rfl
    · exact Station.startSlot_noRouteDrops (hg.station hn.manned hs) ha

theorem runSlot_noRouteDrops (hn : n.Ready nodes) (hg : n.Guided) {slot : Nat} {grants : List Grant}
    (h : n.runSlot slot = .ok (n', grants)) :
    n'.medium.stats.noRouteDrops = n.medium.stats.noRouteDrops := by
  rcases runSlot_cases h with ⟨-, rfl, -⟩ | ⟨n₁, delay, next, m, -, h1, -, h3, rfl⟩
  · rfl
  · have hopen : Carries nodes n { n with controller := n.controller.openSlot slot } :=
      .ofSame hn rfl hn.prompt rfl fun _ => .refl _
    have hgrants := grantAll_noRouteDrops (n := { n with controller := n.controller.openSlot slot })
      hopen.ready hg h1
    exact (Medium.noRouteDrops_schedule h3).trans hgrants

theorem runFrame_noRouteDrops (hn : n.Ready nodes) (hg : n.Guided) {grants : List Grant}
    (h : n.runFrame = .ok (n', grants)) :
    n'.medium.stats.noRouteDrops = n.medium.stats.noRouteDrops := by
  have hbegin : Carries nodes n { n with
      controller := n.controller.beginFrame
      medium := { n.medium with stats := { n.medium.stats with
        framesCompleted := n.controller.beginFrame.frameIndex - 1 } } } :=
    .ofSame hn rfl (hn.prompt.setStats _) rfl fun _ => .refl _
  exact runSlot_noRouteDrops (n := { n with
    controller := n.controller.beginFrame
    medium := { n.medium with stats := { n.medium.stats with
      framesCompleted := n.controller.beginFrame.frameIndex - 1 } } }) hbegin.ready hg h

theorem deliver_noRouteDrops {frame : Frame} {handled : Handled}
    (h : n.deliver node frame = .ok (n', handled)) :
    n'.medium.stats.noRouteDrops = n.medium.stats.noRouteDrops := by
  rcases deliver_cases h with ⟨rfl, rfl, -⟩ | ⟨s, s', m, what, -, ha, hwhat⟩
  · rfl
  have hreceived := Station.receive_noRouteDrops ha
  rcases hwhat with ⟨content, result, -, -, hmerge⟩ | ⟨-, rfl⟩
  · obtain ⟨-, stats, hstats, rfl⟩ := merge_cases hmerge
    rcases hstats with rfl | ⟨conflicts, hstats⟩
    · exact hreceived
    · exact (Stats.noRouteDrops_of_tally (Stats.tally_recordConflicts hstats)).trans hreceived
  · exact hreceived

/-- While all that waits has a way, no event makes the network drop a packet for want of one. -/
theorem handle_noRouteDrops (hn : n.Ready nodes) (hg : n.Guided) {event : Event} {handled : Handled}
    (h : n.handle event = .ok (n', handled)) :
    n'.medium.stats.noRouteDrops = n.medium.stats.noRouteDrops := by
  cases event with
  | startFrame =>
    obtain ⟨⟨n₁, grants⟩, h1, h⟩ := Fault.map_eq_ok.1 h
    cases h
    exact runFrame_noRouteDrops hn hg h1
  | runSlot slot =>
    obtain ⟨⟨n₁, grants⟩, h1, h⟩ := Fault.map_eq_ok.1 h
    cases h
    exact runSlot_noRouteDrops hn hg h1
  | continueSlot node slotEnd control =>
    rcases continueSlot_cases h with ⟨rfl, -⟩ | ⟨s, s', m, sent, hs, ha, -, rfl⟩
    · rfl
    · exact Station.continueSlot_noRouteDrops (hg.station hn.manned hs) ha
  | deliver receiver frame => exact deliver_noRouteDrops h
  | envStep =>
    cases h
    rfl
  | arrival node =>
    rcases arrive_cases h with ⟨rfl, -⟩ | ⟨s, s', m, t, destination, -, ha, -, rfl⟩
    · rfl
    · exact Traffic.arrive_noRouteDrops ha

end Network

/-! ## The run -/

theorem Controller.reserve_noRouteDrops {c c' : Controller} {m m' : Medium} {node : Nat}
    {o : TransmitOutcome} (h : c.reserve m node = .ok (c', m', o)) :
    m'.stats.noRouteDrops = m.stats.noRouteDrops := by
  unfold reserve at h
  dsimp only at h
  split at h
  · obtain ⟨stats, h1, h⟩ := Fault.bind_eq_ok.1 h
    obtain ⟨stats', h2, h⟩ := Fault.bind_eq_ok.1 h
    obtain ⟨⟨m₁, o'⟩, h3, h⟩ := Fault.bind_eq_ok.1 h
    cases h
    have hsent := Stats.noRouteDrops_of_tally (Stats.tally_recordTransmission h1)
    have hcount := Stats.noRouteDrops_of_tally (Stats.tally_recordReservation h2)
    exact (Medium.noRouteDrops_transmit h3).trans (hcount.trans hsent)
  · cases h
    rfl

theorem Handled.noRouteDrops_count {handled : Handled} {s s' : Stats}
    (h : handled.count s = .ok s') : s'.noRouteDrops = s.noRouteDrops := by
  unfold count at h
  split at h
  · exact Stats.noRouteDrops_of_tally (Stats.tally_recordMalformed h)
  · cases h
    rfl

namespace Simulation

variable {σ : Type} {s s' : Simulation σ}

theorem noteError_noRouteDrops {failed : Bool} (h : s.noteError failed = .ok s') :
    s'.network.medium.stats.noRouteDrops = s.network.medium.stats.noRouteDrops := by
  unfold noteError at h
  split at h
  · obtain ⟨stats, h1, rfl⟩ := Fault.map_eq_ok.1 h
    exact Stats.noRouteDrops_of_tally (Stats.tally_recordAgentError h1)
  · cases h
    rfl

theorem begin_noRouteDrops (h : s.begin = .ok s') :
    s'.network.medium.stats.noRouteDrops = s.network.medium.stats.noRouteDrops := by
  obtain ⟨⟨agentState, answer⟩, -, h⟩ := Fault.bind_eq_ok.1 h
  obtain ⟨t, h1, h⟩ := Fault.bind_eq_ok.1 h
  obtain ⟨⟨n, started⟩, h2, h⟩ := Fault.bind_eq_ok.1 h
  obtain ⟨n', h3, h⟩ := Fault.bind_eq_ok.1 h
  cases h
  obtain ⟨⟨started', controller, events⟩, -, h2⟩ := Fault.bind_eq_ok.1 h2
  cases h2
  obtain ⟨⟨traffic, events'⟩, -, h3⟩ := Fault.bind_eq_ok.1 h3
  cases h3
  have hnoted := noteError_noRouteDrops (s := { s with agentState }) h1
  exact hnoted

theorem ask_noRouteDrops {step : Step} {action : Action} (h : s.ask step = .ok (s', action)) :
    s'.network.medium.stats.noRouteDrops = s.network.medium.stats.noRouteDrops := by
  obtain ⟨⟨agentState, answer⟩, -, h⟩ := Fault.bind_eq_ok.1 h
  cases answer with
  | ok action =>
    cases h
    rfl
  | error e =>
    obtain ⟨t, h1, h⟩ := Fault.bind_eq_ok.1 h
    cases h
    exact noteError_noRouteDrops (s := { s with agentState }) h1

theorem envStep_noRouteDrops (h : s.envStep = .ok s') :
    s'.network.medium.stats.noRouteDrops = s.network.medium.stats.noRouteDrops := by
  unfold envStep at h
  dsimp only at h
  split at h
  · cases h
    rfl
  split at h
  · cases h
    rfl
  obtain ⟨⟨t, action⟩, h1, h⟩ := Fault.bind_eq_ok.1 h
  have hask := ask_noRouteDrops h1
  obtain ⟨⟨controller, medium, outcome⟩, h2, h⟩ := Fault.bind_eq_ok.1 h
  obtain ⟨stats, h3, h⟩ := Fault.bind_eq_ok.1 h
  cases h
  have hcount := Stats.noRouteDrops_of_tally (Stats.tally_recordEnvStep h3)
  exact hcount.trans ((Controller.reserve_noRouteDrops h2).trans hask)

theorem dispatch_noRouteDrops {event : Event} (h : s.dispatch event = .ok s') {network : Network}
    {handled : Handled} (hn : s.network.handle event = .ok (network, handled)) :
    s'.network.medium.stats.noRouteDrops = network.medium.stats.noRouteDrops := by
  obtain ⟨network', handled', stats, t, h1, rfl, hcount, hrest⟩ := dispatch_cases h
  obtain ⟨rfl, rfl⟩ := Prod.mk.inj (Except.ok.inj (hn.symm.trans h1))
  have hstats := Handled.noRouteDrops_count hcount
  rcases hrest with ⟨-, medium, hm, rfl⟩ | ⟨-, -, henv⟩ | ⟨-, -, rfl⟩
  · exact (Medium.noRouteDrops_schedule hm).trans hstats
  · exact (envStep_noRouteDrops henv).trans hstats
  · exact hstats

end Simulation

end SlotNet
