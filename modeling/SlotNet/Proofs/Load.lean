import Mathlib.Algebra.Order.BigOperators.Group.List
import Mathlib.Algebra.Order.Group.Nat
import Mathlib.Tactic.Ring
import SlotNet.Proofs.Turn

/-!
# What the events of a run still lead to

`Event.load` bounds how many events come of one that waits, itself included, up to the end of a run. What
an event schedules later has less time left, and what it schedules at once is lighter: a step of the
environment only sends, and a delivery schedules nothing. The load of a queue is that of all that waits
in it, be it cancelled or not.

`Medium.Loads` says how much load comes in. `Watch.Regular.loads`: handling an event brings in less than
its own load.
-/

namespace SlotNet

/-- The most events that come of an event, itself included, when `left` nanoseconds are left up to the
end, with the one that begins now. -/
def Event.load (nodes left : Nat) : Event → Nat
  | .deliver _ _ => 1
  | .envStep => nodes + 1
  | .arrival _ => left
  | .continueSlot _ _ _ => left * (nodes + 1)
  | .startFrame | .runSlot _ => (left * (nodes + 2)) ^ 2

variable {nodes horizon : Nat}

theorem Event.load_mono (e : Event) {left left' : Nat} (h : left ≤ left') :
    e.load nodes left ≤ e.load nodes left' := by
  cases e with
  | deliver receiver frame => exact Nat.le_refl _
  | envStep => exact Nat.le_refl _
  | arrival node => exact h
  | continueSlot node slotEnd control => exact Nat.mul_le_mul_right _ h
  | startFrame => exact Nat.pow_le_pow_left (Nat.mul_le_mul_right _ h) 2
  | runSlot slot => exact Nat.pow_le_pow_left (Nat.mul_le_mul_right _ h) 2

/-- How much load handling an event brings in at most, when `left` nanoseconds are left after it. A slot
is used by each node once, and each time its frame reaches each node. -/
def Event.brings (nodes left : Nat) : Event → Nat
  | .deliver _ _ => 0
  | .envStep => nodes
  | .arrival _ => left
  | .continueSlot _ _ _ => nodes + left * (nodes + 1)
  | .startFrame | .runSlot _ =>
    nodes * (nodes + left * (nodes + 1)) + (left * (nodes + 2)) ^ 2 + (nodes + 1)

theorem Event.slot_lt_load (nodes left : Nat) :
    nodes * (nodes + left * (nodes + 1)) + (left * (nodes + 2)) ^ 2 + (nodes + 1)
      < ((left + 1) * (nodes + 2)) ^ 2 := by
  have hrest : ((left + 1) * (nodes + 2)) ^ 2
      = nodes * (nodes + left * (nodes + 1)) + (left * (nodes + 2)) ^ 2 + (nodes + 1)
        + (left * (nodes ^ 2 + 7 * nodes + 8) + 3 * nodes + 2) + 1 := by ring
  omega

/-- An event weighs more than what it brings in. -/
theorem Event.brings_lt_load (e : Event) (nodes left : Nat) :
    e.brings nodes left < e.load nodes (left + 1) := by
  cases e with
  | deliver receiver frame => exact Nat.zero_lt_one
  | envStep => exact Nat.lt_succ_self _
  | arrival node => exact Nat.lt_succ_self _
  | continueSlot node slotEnd control =>
    rw [brings, load, Nat.succ_mul]
    omega
  | startFrame => exact slot_lt_load nodes left
  | runSlot slot => exact slot_lt_load nodes left

/-! ## The queue -/

namespace EventQueue

def load (nodes horizon : Nat) (q : EventQueue Event) : Nat :=
  (q.entries.map fun e => e.event.load nodes (horizon + 1 - e.time)).sum

variable {q q' : EventQueue Event}

theorem load_scheduleAt (q : EventQueue Event) (time : Time) (event : Event) :
    (q.scheduleAt time event).2.load nodes horizon
      = event.load nodes (horizon + 1 - max time q.now) + q.load nodes horizon :=
  ((insert_perm _ _).map _).sum_eq

theorem load_settle_le (q : EventQueue Event) :
    q.settle.load nodes horizon ≤ q.load nodes horizon :=
  ((List.dropWhile_sublist _).map _).sum_le_sum fun _ _ => Nat.zero_le _

theorem load_pop {time : Time} {event : Event} (h : q.pop = (some (time, event), q')) :
    q'.load nodes horizon + event.load nodes (horizon + 1 - time) ≤ q.load nodes horizon := by
  refine Nat.le_trans (Nat.le_of_eq ?_) q.load_settle_le
  unfold pop at h
  dsimp only at h
  split at h
  · cases h
  · rename_i e rest hrest
    cases h
    rw [load, load, hrest, List.map_cons, List.sum_cons, Nat.add_comm]

end EventQueue

namespace Channel

variable {underWay : List InFlight} {frame : Frame} {s s' : Spread}

theorem load_deliver {sender : Address} {listener : Endpoint} {distance : Float}
    (hs : s.events.Ordered) (h : deliver underWay sender frame listener distance s = .ok s') :
    s'.events.load nodes horizon = s.events.load nodes horizon + 1 := by
  rw [EventQueue.load, ((deliver_perm hs h).map _).sum_eq, List.map_cons, List.sum_cons,
    cancelAll_spec, List.map_map]
  exact Nat.add_comm _ _

theorem load_spread {maxRange : Float} {positions : List Point} {sender : Endpoint} {here : Point}
    {listeners : List Endpoint} (hs : s.events.Ordered)
    (h : spread maxRange positions underWay sender here frame listeners s = .ok s') :
    s'.events.load nodes horizon ≤ s.events.load nodes horizon + listeners.length := by
  induction listeners generalizing s with
  | nil =>
    cases h
    exact Nat.le_refl _
  | cons listener listeners ih =>
    obtain ⟨t, ht, h⟩ := Fault.bind_eq_ok.1 h
    rw [List.length_cons]
    cases hd : hearingDistance maxRange positions sender.node here listener with
    | none =>
      simp only [hd] at ht
      cases ht
      have hrest := ih hs h
      omega
    | some distance =>
      simp only [hd] at ht
      have hfirst : t.events.load nodes horizon = s.events.load nodes horizon + 1 :=
        load_deliver hs ht
      have hrest := ih (adds_deliver hs ht).ordered h
      omega

end Channel

/-! ## What comes in -/

namespace Medium

/-- Time stands still, the same nodes listen, and no more than so much load comes in. -/
structure Loads (nodes horizon more : Nat) (m m' : Medium) : Prop where
  ordered : m'.events.Ordered
  now : m'.now = m.now
  endpoints : m'.channel.endpoints = m.channel.endpoints
  load_le : m'.events.load nodes horizon ≤ m.events.load nodes horizon + more

variable {m m' m'' : Medium} {more more' : Nat}

theorem Loads.refl (hm : m.events.Ordered) : Loads nodes horizon 0 m m :=
  ⟨hm, rfl, rfl, Nat.le_refl _⟩

theorem Loads.trans (h : Loads nodes horizon more m m') (h' : Loads nodes horizon more' m' m'') :
    Loads nodes horizon (more + more') m m'' := by
  refine ⟨h'.ordered, h'.now.trans h.now, h'.endpoints.trans h.endpoints, ?_⟩
  have hfirst := h.load_le
  have hrest := h'.load_le
  omega

theorem Loads.mono (h : Loads nodes horizon more m m') (hle : more ≤ more') :
    Loads nodes horizon more' m m' :=
  { h with load_le := h.load_le.trans (Nat.add_le_add_left hle _) }

theorem Loads.ofStats (hm : m.events.Ordered) (stats : Stats) :
    Loads nodes horizon 0 m { m with stats } := ⟨hm, rfl, rfl, Nat.le_refl _⟩

theorem Loads.takeUid (hm : m.events.Ordered) : Loads nodes horizon 0 m m.takeUid.2 :=
  ⟨hm, rfl, rfl, Nat.le_refl _⟩

theorem Loads.scheduleAt (hm : m.events.Ordered) (time : Time) (event : Event) :
    Loads nodes horizon (event.load nodes (horizon + 1 - max time m.now)) m
      { m with events := (m.events.scheduleAt time event).2 } :=
  ⟨hm.scheduleAt _ _, rfl, rfl,
    Nat.le_of_eq ((EventQueue.load_scheduleAt _ _ _).trans (Nat.add_comm _ _))⟩

theorem Loads.schedule (hm : m.events.Ordered) {delay : Time} {event : Event}
    (h : m.schedule delay event = .ok m') :
    Loads nodes horizon (event.load nodes (horizon + 1 - (m.now + delay))) m m' := by
  rw [schedule_ok h, ← m.max_add_now delay]
  exact .scheduleAt hm _ event

theorem Loads.later (hm : m.events.Ordered) {delay : Nat} (hd : 0 < delay) {event : Event}
    (h : m.schedule delay event = .ok m') :
    Loads nodes horizon (event.load nodes (horizon - m.now)) m m' := by
  refine (Loads.schedule hm h).mono (event.load_mono ?_)
  omega

theorem Loads.transmit (hm : m.events.Ordered) {sender : Nat} {frame : Frame} {o : TransmitOutcome}
    (h : m.transmit sender frame = .ok (m', o)) :
    Loads nodes horizon m.channel.endpoints.length m m' := by
  obtain ⟨⟨c, events, stats, o'⟩, ht, h⟩ := Fault.bind_eq_ok.1 h
  cases h
  rcases Channel.transmit_cases ht with ⟨rfl, rfl, -⟩ | ⟨endpoint, here, s, -, -, hs, rfl, rfl, -⟩
  · exact ⟨hm, rfl, rfl, Nat.le_add_right _ _⟩
  · have hadds := Channel.adds_spread (s := ⟨m.events, m.stats, [], ⟨0, 0⟩⟩) hm hs
    exact ⟨hadds.ordered, hadds.now, rfl, Channel.load_spread hm hs⟩

theorem Quiet.loads (hm : m.events.Ordered) (h : Quiet m m') : Loads nodes horizon 0 m m' := by
  induction h with
  | refl => exact .refl hm
  | tail _ hstep ih =>
    cases hstep with
    | count h => exact ih.trans (.ofStats ih.ordered _)
    | takeUid => exact ih.trans (.takeUid ih.ordered)
    | scheduleAt hp => exact hp.elim
    | transmit hs h => exact hs.elim

theorem Broadcasts.loads (hm : m.events.Ordered) {node : Nat} (h : m.Broadcasts node m') :
    Loads nodes horizon m.channel.endpoints.length m m' := by
  obtain ⟨stats, stats', frame, m₁, o, -, -, -, hsend, -, rfl⟩ := h
  have hcount : Loads nodes horizon 0 m { m with nextUid := m.nextUid + 1, stats } :=
    ⟨hm, rfl, rfl, Nat.le_refl _⟩
  have hair := hcount.trans (.transmit hm hsend)
  exact (hair.trans (.ofStats hair.ordered stats')).mono (by simp)

end Medium

open Medium (Loads)

namespace Station

variable {s s' : Station} {m m' : Medium} {slotEnd : Time}

theorem Sheds.loads (hm : m.events.Ordered) (h : s.Sheds m s' m') :
    Loads nodes horizon 0 m m' := by
  rw [h.medium]
  exact .ofStats hm _

theorem Airs.loads {kind : QueueKind} {item : QueueItem} {receiver : Address}
    (hm : m.events.Ordered) (h : s.Airs m kind slotEnd item receiver s' m') :
    Loads nodes horizon (m.channel.endpoints.length + (horizon - m.now) * (nodes + 1)) m m' := by
  obtain ⟨stats, m₁, o, -, hsend, hnext⟩ := h.does
  have hcount : Loads nodes horizon 0 m { m with stats } := .ofStats hm stats
  have hair : Loads nodes horizon (0 + m.channel.endpoints.length) m m₁ :=
    hcount.trans (.transmit hcount.ordered hsend)
  have hlater : Loads nodes horizon _ m₁ m' :=
    .later hair.ordered (Timing.airtime_pos (Frame.size_pos _) _) hnext
  rw [hair.now, Event.load] at hlater
  refine (hair.trans hlater).mono ?_
  omega

theorem Uses.loads {control : Bool} {sent : Option Frame} (hm : m.events.Ordered)
    (h : s.Uses m slotEnd control s' m' sent) :
    Loads nodes horizon (m.channel.endpoints.length + (horizon - m.now) * (nodes + 1)) m m' := by
  cases sent with
  | none => exact (Sheds.loads hm h).mono (Nat.zero_le _)
  | some frame =>
    obtain ⟨item, receiver, -, hairs⟩ := h
    exact hairs.loads hm

end Station

theorem Traffic.scheduleFirst_loads {count node : Nat} {t t' : Traffic} {m : Medium}
    {events : EventQueue Event} (hm : m.events.Ordered)
    (h : scheduleFirst count node t m.events = .ok (t', events)) :
    Loads nodes horizon (count * (horizon + 1)) m { m with events } := by
  induction count generalizing node t m with
  | zero =>
    cases h
    exact (Loads.refl hm).mono (Nat.zero_le _)
  | succ count ih =>
    unfold scheduleFirst at h
    generalize t.nextGap = gap at h
    rcases gap with ⟨_ | gap, t₁⟩
    · exact (ih hm h).mono (Nat.mul_le_mul_right _ (Nat.le_succ count))
    · obtain ⟨time, -, h⟩ := Fault.bind_eq_ok.1 h
      have hfirst : Loads nodes horizon (horizon + 1) m
          { m with events := (m.events.scheduleAt time (.arrival node)).2 } :=
        (Loads.scheduleAt hm time (.arrival node)).mono (Nat.sub_le _ _)
      rw [Nat.succ_mul, Nat.add_comm]
      exact hfirst.trans (ih hfirst.ordered h)

theorem Traffic.arrive_loads {node : Nat} {t t' : Traffic} {s s' : Station} {m m' : Medium}
    {destination : Option Nat} (hs : s.Fit node) (hm : m.events.Ordered)
    (hgap : ∀ gap, t.nextGap.1 = some gap → 0 < gap)
    (h : t.arrive s m node = .ok (t', s', m', destination)) :
    Loads nodes horizon (horizon - m.now) m m' := by
  obtain ⟨m₁, h1, h⟩ := arrive_cases h
  have hfirst : Loads nodes horizon (horizon - m.now) m m₁ := by
    rcases h1 with rfl | ⟨gap, hsome, h1⟩
    · exact (Loads.refl hm).mono (Nat.zero_le _)
    · exact .later hm (hgap gap hsome) h1
  rcases h with ⟨-, rfl, rfl⟩ | ⟨d, stats, result, -, -, h3⟩
  · exact hfirst
  · have hcount := hfirst.trans (.ofStats hfirst.ordered stats)
    exact hcount.trans (Medium.Quiet.loads hcount.ordered (Station.send_quiet hs h3).2)

theorem Controller.delay_pos {config : Config} (hconfig : config.Accepted) {c : Controller}
    (hc : c.layout = config.frame) {slot : Nat} {delay : Time} {next : Event}
    (h : c.following slot = .ok (delay, next)) : 0 < delay := by
  obtain ⟨hdata, hcontrol⟩ := hconfig.slotTimes
  have hslot : 0 < c.slotDuration slot := by
    unfold slotDuration Timing.slotDuration
    rw [hc]
    split
    · exact hcontrol
    · exact hdata
  obtain ⟨elapsed, h1, h⟩ := Fault.bind_eq_ok.1 h
  obtain rfl := (Time.add_eq_ok h1).1
  have helapsed := Nat.lt_of_lt_of_le hslot (Nat.le_add_left _ c.layout.guardTime)
  split at h
  · obtain ⟨time, h2, h⟩ := Fault.bind_eq_ok.1 h
    obtain rfl := (Time.add_eq_ok h2).1
    cases h
    exact Nat.lt_of_lt_of_le helapsed (Nat.le_add_right _ _)
  · cases h
    exact helapsed

namespace Network

variable {n n' : Network}

theorem grantAll_loads {duration : Time} {control : Bool} {members : List Nat}
    {grants : List Grant} (ho : n.medium.events.Ordered)
    (hl : n.medium.channel.endpoints.length = nodes)
    (h : n.grantAll duration control members = .ok (n', grants)) :
    Loads nodes horizon (members.countP (· < n.stations.length)
      * (nodes + (horizon - n.now) * (nodes + 1))) n.medium n'.medium := by
  induction members generalizing n grants with
  | nil =>
    cases h
    exact (Loads.refl ho).mono (Nat.zero_le _)
  | cons node members ih =>
    obtain ⟨⟨n₁, first⟩, h1, h⟩ := Fault.bind_eq_ok.1 h
    obtain ⟨⟨n₂, more⟩, h2, h⟩ := Fault.bind_eq_ok.1 h
    cases h
    obtain ⟨⟨n₃, sent⟩, h3, h1⟩ := Fault.bind_eq_ok.1 h1
    cases h1
    rcases onStation_cases h3 with ⟨rfl, -, hnone⟩ | ⟨s, s', m, r, hs, ha, -, rfl⟩
    · have hnode := Nat.not_lt.2 (List.getElem?_eq_none_iff.1 hnone)
      rw [List.countP_cons_of_neg (by simpa using hnode)]
      exact ih ho hl h2
    · have hnode := (List.getElem?_eq_some_iff.1 hs).1
      have huse : Loads nodes horizon _ n.medium m := (Station.startSlot_spec ha).loads ho
      have hrest := ih huse.ordered ((congrArg List.length huse.endpoints).trans hl) h2
      rw [List.length_set, now, huse.now] at hrest
      rw [List.countP_cons_of_pos (by simpa using hnode), Nat.succ_mul, Nat.add_comm]
      rw [hl] at huse
      exact huse.trans hrest

theorem countP_lt_le {members : List Nat} (h : members.Nodup) (k : Nat) :
    members.countP (· < k) ≤ k := by
  have hsub : members.filter (· < k) ⊆ List.range k := fun node hnode => by
    simpa using (List.mem_filter.1 hnode).2
  rw [List.countP_eq_length_filter]
  exact (List.subperm_of_subset (h.filter _) hsub).length_le.trans_eq List.length_range

theorem runSlot_loads {config : Config} (hconfig : config.Accepted) {slot : Nat}
    {grants : List Grant} (hc : n'.controller.Lawful config) (ho : n.medium.events.Ordered)
    (hl : n.medium.channel.endpoints.length = nodes) (hs : n.stations.length = nodes)
    (h : n.runSlot slot = .ok (n', grants)) :
    Loads nodes horizon (nodes * (nodes + (horizon - n.now) * (nodes + 1))
      + ((horizon - n.now) * (nodes + 2)) ^ 2) n.medium n'.medium := by
  rcases runSlot_cases h with ⟨-, rfl, -⟩ | ⟨n₁, delay, next, m, -, h1, h2, h3, rfl⟩
  · exact (Loads.refl ho).mono (Nat.zero_le _)
  · replace hc : n₁.controller.Lawful config := hc
    rw [controller_grantAll h1] at hc
    have hgrant : Loads nodes horizon _ n.medium n₁.medium :=
      grantAll_loads (n := { n with controller := n.controller.openSlot slot }) ho hl h1
    have hcount : ((n.controller.openSlot slot).entitled slot).countP (· < n.stations.length)
        ≤ nodes := (countP_lt_le (hc.once.entitled slot) _).trans_eq hs
    have hlater : Loads nodes horizon _ n₁.medium m :=
      .later hgrant.ordered (Controller.delay_pos hconfig hc.layout h2) h3
    rw [hgrant.now] at hlater
    have hnext : next.load nodes (horizon - n.now) = ((horizon - n.now) * (nodes + 2)) ^ 2 := by
      rcases next_of_following h2 with rfl | rfl <;> rfl
    exact (hgrant.trans hlater).mono (Nat.add_le_add (Nat.mul_le_mul_right _ hcount) hnext.le)

theorem runFrame_loads {config : Config} (hconfig : config.Accepted) {grants : List Grant}
    (hc : n'.controller.Lawful config) (ho : n.medium.events.Ordered)
    (hl : n.medium.channel.endpoints.length = nodes) (hs : n.stations.length = nodes)
    (h : n.runFrame = .ok (n', grants)) :
    Loads nodes horizon (nodes * (nodes + (horizon - n.now) * (nodes + 1))
      + ((horizon - n.now) * (nodes + 2)) ^ 2) n.medium n'.medium := by
  have hcount : Loads nodes horizon 0 n.medium { n.medium with stats := { n.medium.stats with
      framesCompleted := n.controller.beginFrame.frameIndex - 1 } } := .ofStats ho _
  have hrun := hcount.trans (runSlot_loads (n := { n with
    controller := n.controller.beginFrame
    medium := { n.medium with stats := { n.medium.stats with
      framesCompleted := n.controller.beginFrame.frameIndex - 1 } } }) hconfig hc ho hl hs h)
  rwa [Nat.zero_add] at hrun

theorem continueSlot_loads {node : Nat} {slotEnd : Time} {control : Bool} {handled : Handled}
    (ho : n.medium.events.Ordered) (hl : n.medium.channel.endpoints.length = nodes)
    (h : n.continueSlot node slotEnd control = .ok (n', handled)) :
    Loads nodes horizon (nodes + (horizon - n.now) * (nodes + 1)) n.medium n'.medium := by
  rcases continueSlot_cases h with ⟨rfl, -⟩ | ⟨s, s', m, sent, -, ha, -, rfl⟩
  · exact (Loads.refl ho).mono (Nat.zero_le _)
  · have huse : Loads nodes horizon _ n.medium m := (Station.continueSlot_spec ha).loads ho
    rwa [hl] at huse

theorem arrive_loads {node : Nat} {handled : Handled} (hn : n.Manned)
    (ho : n.medium.events.Ordered) (hgap : ∀ gap, n.traffic.nextGap.1 = some gap → 0 < gap)
    (h : n.arrive node = .ok (n', handled)) :
    Loads nodes horizon (horizon - n.now) n.medium n'.medium := by
  rcases arrive_cases h with ⟨rfl, -⟩ | ⟨s, s', m, traffic, destination, hs, ha, -, rfl⟩
  · exact (Loads.refl ho).mono (Nat.zero_le _)
  · exact Traffic.arrive_loads (hn node s hs) ho hgap ha

end Network

namespace Simulation

variable {σ : Type} {s s' : Simulation σ} {event : Event} {more : Nat}

theorem isCadence_of_opens (h : s.opensControlSlot event = true) : event.isCadence = true := by
  cases event <;> first | rfl | cases h

theorem Serves.loads {network : Network} {handled : Handled} (h : s.Serves event network handled s')
    (hn : Loads nodes horizon more s.network.medium network.medium) :
    Loads nodes horizon (more + if event.isCadence then nodes + 1 else 0)
      s.network.medium s'.network.medium := by
  obtain ⟨stats, -, hm⟩ := h.medium
  have hcount := hn.trans (.ofStats hn.ordered stats)
  split at hm
  · rename_i hopens
    rw [if_pos (isCadence_of_opens hopens)]
    exact hcount.trans (.schedule hcount.ordered hm)
  · rw [hm]
    exact hcount.mono (Nat.le_add_right _ _)

theorem Turn.loads {node : Nat} (ho : s.network.medium.events.Ordered)
    (hl : s.network.medium.channel.endpoints.length = nodes) (h : s.Turn node s') :
    Loads nodes horizon nodes s.network.medium s'.network.medium := by
  obtain ⟨-, -, -, action, stats, m, o, -, -, -, -, -, hreserve, -, hmedium⟩ := h.reserves
  have hcount : Loads nodes horizon 0 s.network.medium { s.network.medium with stats } :=
    .ofStats ho stats
  have hair : Loads nodes horizon nodes { s.network.medium with stats } m := by
    rcases Controller.reserve_broadcasts hreserve with rfl | hbroadcasts
    · exact (Loads.refl hcount.ordered).mono (Nat.zero_le _)
    · subst hl
      exact hbroadcasts.loads hcount.ordered
  rw [hmedium]
  exact (hcount.trans (hair.trans (.ofStats hair.ordered _))).mono (by omega)

end Simulation

/-- Handling an event brings in less than its own load, if a packet that arrives is followed by a later
one. -/
theorem Watch.Regular.loads {σ : Type} {c : Config} {w w' : Watch σ} {e : Entry Event}
    {s : Simulation σ} (hc : c.Accepted) (hw : w.Regular c) (h : w.Handles e s w')
    (hl : s.network.medium.channel.endpoints.length = c.nodeCount) (he : e.time ≤ c.duration)
    (hgap : ∀ node, e.event = .arrival node →
      ∀ gap, s.network.traffic.nextGap.1 = some gap → 0 < gap) :
    Loads c.nodeCount c.duration (e.event.brings c.nodeCount (c.duration - e.time))
      s.network.medium w'.medium := by
  have hstaffed := h.staffed hw.onTime.staffed
  have hs : s.network.stations.length = c.nodeCount :=
    hstaffed.length.trans (h.nodeCount hw.onTime)
  have hnow : s.network.now = e.time := h.now
  rw [← hnow]
  rcases hw.cases hc h with ⟨hne, network, handled, hserves⟩ | ⟨-, hlate, -⟩ | ⟨henv, -, hturn⟩
  · have hlawful : network.controller.Lawful c :=
      hserves.controller ▸ (hw.handles hc h).reachable.lawful hc
    cases hevent : e.event with
    | startFrame =>
      rw [hevent] at hserves
      obtain ⟨⟨n, grants⟩, hrun, hn⟩ := Fault.map_eq_ok.1 hserves.handle
      cases hn
      exact hserves.loads (Network.runFrame_loads hc hlawful h.ordered hl hs hrun)
    | runSlot slot =>
      rw [hevent] at hserves
      obtain ⟨⟨n, grants⟩, hrun, hn⟩ := Fault.map_eq_ok.1 hserves.handle
      cases hn
      exact hserves.loads (Network.runSlot_loads hc hlawful h.ordered hl hs hrun)
    | continueSlot node slotEnd control =>
      rw [hevent] at hserves
      exact hserves.loads (Network.continueSlot_loads h.ordered hl hserves.handle)
    | deliver receiver frame =>
      have hsane := hw.onTime.traced.sane e h.mem
      rw [hevent] at hserves hsane
      have htakes := Network.deliver_takes hstaffed.manned hsane hserves.handle
      exact hserves.loads (htakes.quiet.loads h.ordered)
    | arrival node =>
      rw [hevent] at hserves
      exact hserves.loads
        (Network.arrive_loads hstaffed.manned h.ordered (hgap node hevent) hserves.handle)
    | envStep => exact absurd hevent hne
  · exact absurd he (Nat.not_le_of_lt hlate)
  · rw [henv]
    exact hturn.loads h.ordered hl

end SlotNet
