import Mathlib.Algebra.BigOperators.Group.List.Basic
import Mathlib.Tactic.Abel
import SlotNet.Medium
import SlotNet.Proofs.TransmitQueue

/-!
# The balance of packets

`Goes` is what a piece of a run does with packets: those held and under way before it and those that
come in are those held and under way after it, those that come out and those that are lost, and the
counters have grown by as much. `Goes.trans` puts two pieces together.

`Goes.transmit` is about the air: a frame adds one packet under way if the station that it is sent to
hears it, however many others hear it too.
-/

namespace SlotNet

/-! ## Marks -/

namespace EventQueue

variable {q : EventQueue Event} {id : Nat}

theorem markedIn_map_cancelEntry {l : List (Entry Event)} (h : (l.map (·.id)).Nodup) :
    markedIn (l.map (cancelEntry id))
      = markedIn l + (l.any fun e => e.id == id && !e.cancelled).toNat := by
  induction l with
  | nil => rfl
  | cons e l ih =>
    obtain ⟨he, hl⟩ := List.nodup_cons.1 h
    rw [List.map_cons, markedIn_cons, markedIn_cons, ih hl, List.any_cons]
    by_cases hid : e.id = id
    · have hnone : (l.any fun x => x.id == id && !x.cancelled) = false := by
        rw [List.any_eq_false]
        intro x hx hx'
        simp only [Bool.and_eq_true, beq_iff_eq] at hx'
        exact he (List.mem_map.2 ⟨x, hx, hx'.1.trans hid.symm⟩)
      rw [hnone, cancelEntry, if_pos hid]
      cases e.cancelled <;> simp [hid]
      omega
    · rw [cancelEntry, if_neg hid, beq_false_of_ne hid]
      simp [Nat.add_assoc]

theorem scheduleAt_perm (time : Time) (event : Event) :
    (q.scheduleAt time event).2.entries.Perm (q.entryAt time event :: q.entries) :=
  insert_perm _ _

end EventQueue

namespace Channel

variable {q : EventQueue Event}

theorem markedIn_cancelAll (h : q.Ordered) (hit : List InFlight) :
    markedIn (cancelAll q hit).2.entries = markedIn q.entries + (cancelAll q hit).1 := by
  induction hit generalizing q with
  | nil => rfl
  | cons t rest ih =>
    rw [cancelAll_cons]
    dsimp only
    rw [ih (h.cancel t.delivery), EventQueue.cancel,
      EventQueue.markedIn_map_cancelEntry h.distinct, Nat.add_assoc]
    congr 2
    show (q.isPending t.delivery).toNat = _
    cases q.isPending t.delivery <;> rfl

theorem deliver_perm {underWay : List InFlight} {sender : Address} {frame : Frame}
    {listener : Endpoint} {distance : Float} {s s' : Spread} (hs : s.events.Ordered)
    (h : deliver underWay sender frame listener distance s = .ok s') :
    let hit := overlapping underWay sender listener.address
    s'.events.entries.Perm
      (⟨s.events.now + Timing.propagationDelay distance, s.events.nextId,
        .deliver listener.node frame, !hit.isEmpty⟩ :: (cancelAll s.events hit).2.entries) := by
  obtain ⟨-, -, -, hs', -, -, hmem⟩ := deliver_ok hs h
  have hspec := cancelAll_spec s.events (overlapping underWay sender listener.address)
  have hord := ordered_cancelAll hs (overlapping underWay sender listener.address)
  refine (List.perm_ext_iff_of_nodup hs'.distinct.of_map
    (List.nodup_cons.2 ⟨fun hin => ?_, hord.distinct.of_map⟩)).2 fun e => ?_
  · have hlt := hord.lt_nextId _ hin
    rw [hspec] at hlt
    exact Nat.lt_irrefl _ hlt
  · rw [hmem, List.mem_cons, hspec, List.mem_map]
    simp only [eq_comm]

end Channel

/-! ## Spreading a frame -/

namespace Channel

/-- What sending a frame to some listeners does to the packets under way. -/
structure Spreads (frame : Frame) (listeners : List Endpoint) (s s' : Spread) : Prop where
  ordered : s'.events.Ordered
  now : s'.events.now = s.events.now
  events : ∀ e ∈ s'.events.entries, (∃ x ∈ s.events.entries, e.event = x.event) ∨
    ∃ listener ∈ listeners, e.event = .deliver listener.node frame
  packets : packetsOf s'.events.entries = packetsOf s.events.entries +
    (listeners.map fun listener => (Event.deliver listener.node frame).packets).sum
  grows : s.stats.Grows s'.stats 0 0 0
  marked : s'.stats.cancelledDeliveries + markedIn s.events.entries
    = s.stats.cancelledDeliveries + markedIn s'.events.entries

variable {frame : Frame} {listeners listeners' : List Endpoint} {s s' s'' : Spread}

theorem Spreads.refl (hs : s.events.Ordered) : Spreads frame [] s s where
  ordered := hs
  now := rfl
  events e he := .inl ⟨e, he, rfl⟩
  packets := (add_zero _).symm
  grows := .refl _
  marked := rfl

theorem Spreads.trans (h : Spreads frame listeners s s') (h' : Spreads frame listeners' s' s'') :
    Spreads frame (listeners ++ listeners') s s'' where
  ordered := h'.ordered
  now := h'.now.trans h.now
  events e he := by
    rcases h'.events e he with ⟨x, hx, hex⟩ | ⟨l, hl, hel⟩
    · rcases h.events x hx with ⟨y, hy, hxy⟩ | ⟨l, hl, hxl⟩
      · exact .inl ⟨y, hy, hex.trans hxy⟩
      · exact .inr ⟨l, List.mem_append_left _ hl, hex.trans hxl⟩
    · exact .inr ⟨l, List.mem_append_right _ hl, hel⟩
  packets := by
    rw [h'.packets, h.packets, List.map_append, List.sum_append, add_assoc]
  grows := h.grows.trans h'.grows
  marked := by
    have := h.marked
    have := h'.marked
    omega

theorem spreads_deliver {underWay : List InFlight} {sender : Address} {listener : Endpoint}
    {distance : Float} (hs : s.events.Ordered)
    (h : deliver underWay sender frame listener distance s = .ok s') :
    Spreads frame [listener] s s' := by
  obtain ⟨-, -, hstats, hs', hnow, -, hmem⟩ := deliver_ok hs h
  have hperm := deliver_perm hs h
  have hmarked := markedIn_cancelAll hs (overlapping underWay sender listener.address)
  refine ⟨hs', hnow, fun e he => ?_, ?_, ?_, ?_⟩
  · rcases (hmem e).1 he with rfl | ⟨x, hx, rfl⟩
    · exact .inr ⟨listener, .head _, rfl⟩
    · exact .inl ⟨x, hx, rfl⟩
  · have hkept : packetsOf (cancelAll s.events
        (overlapping underWay sender listener.address)).2.entries
        = packetsOf s.events.entries := by
      rw [cancelAll_spec]
      exact packetsOf_map_of_event fun _ => rfl
    rw [packetsOf_perm hperm, packetsOf_cons, hkept, add_comm, List.map_singleton,
      List.sum_singleton]
  · rw [hstats]
    refine ⟨fun l => ?_, rfl, rfl, rfl⟩
    cases l with
    | dropped reason => cases reason <;> rfl
    | noRoute => rfl
  · rw [hstats, markedIn_perm hperm, markedIn_cons, hmarked, countHit]
    dsimp only
    omega

theorem find?_listeners {nodes node : Nat} (h : node < nodes) :
    ((List.range nodes).map fun k => (⟨k, Address.ofNode k⟩ : Endpoint)).find? (·.node == node)
      = some ⟨node, Address.ofNode node⟩ := by
  rw [List.find?_map, List.find?_range_eq_some.2 ⟨?_, List.mem_range.2 h, fun j hj => ?_⟩]
  · rfl
  · exact beq_self_eq_true node
  · exact congrArg not (beq_eq_false_iff_ne.2 (Nat.ne_of_lt hj))

theorem hearingDistance_eq {maxRange : Float} {positions : List Point} {sender : Nat}
    {here there : Point} {listener : Endpoint} (hne : listener.node ≠ sender)
    (hthere : positions[listener.node]? = some there)
    (hnear : ¬ maxRange < Point.distance here there) :
    hearingDistance maxRange positions sender here listener
      = some (Point.distance here there) := by
  unfold hearingDistance
  rw [if_neg hne, hthere]
  exact if_neg hnear

def hearers (maxRange : Float) (positions : List Point) (sender : Nat) (here : Point)
    (listeners : List Endpoint) : List Endpoint :=
  listeners.filter fun listener => (hearingDistance maxRange positions sender here listener).isSome

theorem spreads_spread {maxRange : Float} {positions : List Point} {underWay : List InFlight}
    {sender : Endpoint} {here : Point} (hs : s.events.Ordered)
    (h : spread maxRange positions underWay sender here frame listeners s = .ok s') :
    Spreads frame (hearers maxRange positions sender.node here listeners) s s' := by
  induction listeners generalizing s with
  | nil =>
    cases h
    exact .refl hs
  | cons listener listeners ih =>
    obtain ⟨t, ht, h⟩ := Fault.bind_eq_ok.1 h
    cases hd : hearingDistance maxRange positions sender.node here listener with
    | none =>
      simp only [hd] at ht
      cases ht
      rw [hearers, List.filter_cons_of_neg (by simp [hd])]
      exact ih hs h
    | some distance =>
      simp only [hd] at ht
      rw [hearers, List.filter_cons_of_pos (by simp [hd])]
      have hfirst := spreads_deliver hs ht
      exact hfirst.trans (ih hfirst.ordered h)

end Channel

/-! ## What holds of the surroundings -/

/-- The receiver is a node, and data is plain and sent to a node. -/
def Event.Fit (nodes : Nat) : Event → Prop
  | .deliver receiver frame =>
    receiver < nodes ∧ (frame.kind = .data →
      frame.Plain ∧ ∃ hop < nodes, frame.receiver = Address.ofNode hop)
  | _ => True

namespace Medium

/-- Does a node hear another one? -/
def Hears (m : Medium) (sender receiver : Nat) : Prop :=
  ∃ here, m.positions[sender]? = some here ∧ (Channel.hearingDistance m.channel.maxRange
    m.positions sender here ⟨receiver, Address.ofNode receiver⟩).isSome

/-- Every node listens, and hears those whose next hop it is. -/
structure Fit (nodes : Nat) (m : Medium) : Prop where
  few : nodes + 2 < Address.limit
  ordered : m.events.Ordered
  listeners : m.channel.endpoints
    = (List.range nodes).map fun node => ⟨node, Address.ofNode node⟩
  hops : ∀ node < nodes, ∀ destination hop, m.routes.nextHop node destination = some hop →
    hop < nodes ∧ m.Hears node hop
  events : ∀ e ∈ m.events.entries, e.event.Fit nodes

/-- The balance of packets and counters between two moments. -/
structure Moves (held : Multiset Packet) (m : Medium) (held' : Multiset Packet) (m' : Medium)
    (inn out : Multiset Packet) (lost : Multiset (Packet × Loss)) (offered : Nat) : Prop where
  balance : held' + packetsOf m'.events.entries + out + lost.map Prod.fst
    = held + packetsOf m.events.entries + inn
  grows : m.stats.Grows m'.stats out lost offered
  marked : m'.stats.cancelledDeliveries + markedIn m.events.entries
    = m.stats.cancelledDeliveries + markedIn m'.events.entries
  nextUid : m.nextUid ≤ m'.nextUid

/-- A balance with some losses, at the end of which the surroundings are fit. -/
def Goes (nodes : Nat) (held : Multiset Packet) (m : Medium) (held' : Multiset Packet) (m' : Medium)
    (inn out : Multiset Packet) (offered : Nat) : Prop :=
  m'.Fit nodes ∧ ∃ lost, Moves held m held' m' inn out lost offered

variable {nodes : Nat} {held held' held'' : Multiset Packet} {m m' m'' : Medium}
  {inn inn' out out' : Multiset Packet} {lost lost' : Multiset (Packet × Loss)}
  {offered offered' : Nat}

theorem Moves.trans (h : Moves held m held' m' inn out lost offered)
    (h' : Moves held' m' held'' m'' inn' out' lost' offered') :
    Moves held m held'' m'' (inn + inn') (out + out') (lost + lost') (offered + offered') where
  balance := by
    have hb := h.balance
    have hb' := h'.balance
    rw [Multiset.map_add]
    calc held'' + packetsOf m''.events.entries + (out + out')
          + (lost.map Prod.fst + lost'.map Prod.fst)
        = (held'' + packetsOf m''.events.entries + out' + lost'.map Prod.fst)
          + (out + lost.map Prod.fst) := by abel
      _ = (held' + packetsOf m'.events.entries + out + lost.map Prod.fst) + inn' := by
        rw [hb']; abel
      _ = held + packetsOf m.events.entries + (inn + inn') := by rw [hb]; abel
  grows := h.grows.trans h'.grows
  marked := by
    have := h.marked
    have := h'.marked
    omega
  nextUid := h.nextUid.trans h'.nextUid

theorem Goes.refl (hm : m.Fit nodes) : Goes nodes held m held m 0 0 0 :=
  ⟨hm, 0, by simp, .refl _, rfl, Nat.le_refl _⟩

theorem Goes.trans (h : Goes nodes held m held' m' inn out offered)
    (h' : Goes nodes held' m' held'' m'' inn' out' offered') :
    Goes nodes held m held'' m'' (inn + inn') (out + out') (offered + offered') := by
  obtain ⟨-, lost, h⟩ := h
  obtain ⟨hm'', lost', h'⟩ := h'
  exact ⟨hm'', lost + lost', h.trans h'⟩

theorem Goes.step (h : Goes nodes held m held' m' 0 0 0)
    (h' : Goes nodes held' m' held'' m'' inn out offered) :
    Goes nodes held m held'' m'' inn out offered := by
  have := h.trans h'
  rwa [zero_add, zero_add, Nat.zero_add] at this

theorem Goes.after (h : Goes nodes held m held' m' inn out offered)
    (h' : Goes nodes held' m' held'' m'' 0 0 0) :
    Goes nodes held m held'' m'' inn out offered := by
  have := h.trans h'
  rwa [add_zero, add_zero, Nat.add_zero] at this

theorem Goes.spend (h : Goes nodes held m held' m' inn out offered) :
    Goes nodes (held + inn) m held' m' 0 out offered := by
  obtain ⟨hm', lost, h⟩ := h
  refine ⟨hm', lost, ?_, h.grows, h.marked, h.nextUid⟩
  rw [h.balance, add_zero, add_right_comm]

theorem Goes.frame (h : Goes nodes held m held' m' inn out offered) (rest : Multiset Packet) :
    Goes nodes (held + rest) m (held' + rest) m' inn out offered := by
  obtain ⟨hm', lost, h⟩ := h
  refine ⟨hm', lost, ?_, h.grows, h.marked, h.nextUid⟩
  have hb := congrArg (· + rest) h.balance
  calc held' + rest + packetsOf m'.events.entries + out + lost.map Prod.fst
      = held' + packetsOf m'.events.entries + out + lost.map Prod.fst + rest := by abel
    _ = held + packetsOf m.events.entries + inn + rest := hb
    _ = held + rest + packetsOf m.events.entries + inn := by abel

/-! ## Counting -/

theorem Fit.setStats (hm : m.Fit nodes) (stats : Stats) : ({ m with stats }).Fit nodes :=
  ⟨hm.few, hm.ordered, hm.listeners, hm.hops, hm.events⟩

theorem Goes.ofGrows (hm : m.Fit nodes) {stats : Stats}
    (hg : m.stats.Grows stats out lost offered ∧
      stats.cancelledDeliveries = m.stats.cancelledDeliveries)
    (hb : held' + out + lost.map Prod.fst = held + inn) :
    Goes nodes held m held' { m with stats } inn out offered := by
  refine ⟨hm.setStats stats, lost, ?_, hg.1, by rw [hg.2], Nat.le_refl _⟩
  calc held' + packetsOf m.events.entries + out + lost.map Prod.fst
      = (held' + out + lost.map Prod.fst) + packetsOf m.events.entries := by abel
    _ = held + packetsOf m.events.entries + inn := by rw [hb]; abel

theorem Goes.ofSame (hm : m.Fit nodes) {stats : Stats} (hs : stats.tally = m.stats.tally) :
    Goes nodes held m held { m with stats } 0 0 0 :=
  .ofGrows hm (Stats.grows_of_tally hs) (by simp)

theorem Goes.takeUid (hm : m.Fit nodes) : Goes nodes held m held m.takeUid.2 0 0 0 :=
  ⟨⟨hm.few, hm.ordered, hm.listeners, hm.hops, hm.events⟩, 0, by simp [Medium.takeUid],
    .refl _, rfl, Nat.le_succ _⟩

/-! ## Scheduling -/

theorem Goes.scheduleAt (hm : m.Fit nodes) {event : Event} (hp : event.packets = 0)
    (hf : event.Fit nodes) (time : Time) :
    Goes nodes held m held { m with events := (m.events.scheduleAt time event).2 } 0 0 0 := by
  have hperm := EventQueue.scheduleAt_perm (q := m.events) time event
  refine ⟨⟨hm.few, hm.ordered.scheduleAt time event, hm.listeners, hm.hops, fun e he => ?_⟩, 0, ?_,
    .refl _, ?_, Nat.le_refl _⟩
  · rcases EventQueue.mem_scheduleAt.1 he with rfl | he
    · exact hf
    · exact hm.events e he
  · show held + packetsOf (m.events.scheduleAt time event).2.entries + 0 + _ = _
    rw [packetsOf_perm hperm, packetsOf_cons, EventQueue.entryAt, hp, zero_add, Multiset.map_zero,
      add_zero]
  · show _ = _ + markedIn (m.events.scheduleAt time event).2.entries
    rw [markedIn_perm hperm, markedIn_cons, EventQueue.entryAt, Bool.toNat_false, Nat.zero_add]

theorem schedule_ok {delay : Time} {event : Event} (h : m.schedule delay event = .ok m') :
    m' = { m with events := (m.events.scheduleAt (m.events.now + delay) event).2 } := by
  obtain ⟨⟨id, events⟩, hs, rfl⟩ := Fault.map_eq_ok.1 h
  rw [(EventQueue.schedule_ok hs).2]

theorem Goes.schedule (hm : m.Fit nodes) {delay : Time} {event : Event} (hp : event.packets = 0)
    (hf : event.Fit nodes) (h : m.schedule delay event = .ok m') :
    Goes nodes held m held m' 0 0 0 := by
  rw [schedule_ok h]
  exact .scheduleAt hm hp hf _

/-! ## Transmitting -/

theorem spreads_transmit (hm : m.Fit nodes) {sender : Nat} (hs : sender < nodes) {frame : Frame}
    {outcome : TransmitOutcome} (h : m.transmit sender frame = .ok (m', outcome)) :
    (m.positions[sender]? = none ∧ m' = m) ∨
      ∃ here t inFlight, m.positions[sender]? = some here ∧
        Channel.Spreads frame (Channel.hearers m.channel.maxRange m.positions sender here
          m.channel.endpoints) ⟨m.events, m.stats, [], ⟨0, 0⟩⟩ t ∧
        m' = { m with
          channel := { m.channel with inFlight }
          events := t.events
          stats := t.stats } := by
  obtain ⟨⟨channel, events, stats, outcome'⟩, hc, h⟩ := Fault.bind_eq_ok.1 h
  cases h
  have hfind := Channel.find?_listeners hs
  rw [← hm.listeners] at hfind
  unfold Channel.transmit at hc
  rw [hfind] at hc
  cases hp : m.positions[sender]? with
  | none =>
    rw [hp] at hc
    cases hc
    exact .inl ⟨rfl, rfl⟩
  | some here =>
    rw [hp] at hc
    obtain ⟨t, ht, hc⟩ := Fault.bind_eq_ok.1 hc
    cases hc
    exact .inr ⟨here, t, _, rfl, Channel.spreads_spread hm.ordered ht, rfl⟩

theorem Goes.transmit (held : Multiset Packet) (hm : m.Fit nodes) {sender : Nat}
    (hs : sender < nodes) {frame : Frame}
    (hf : ∀ node < nodes, (Event.deliver node frame).Fit nodes) {outcome : TransmitOutcome}
    (h : m.transmit sender frame = .ok (m', outcome)) :
    ∃ reached : List Nat, reached.Nodup ∧
      (∀ node, node ∈ reached ↔ node < nodes ∧ m.Hears sender node) ∧
      Goes nodes held m held m'
        (reached.map fun node => (Event.deliver node frame).packets).sum 0 0 := by
  rcases spreads_transmit hm hs h with ⟨hp, rfl⟩ | ⟨here, t, inFlight, hp, hspread, rfl⟩
  · refine ⟨[], List.nodup_nil, fun node => ⟨nofun, ?_⟩, .refl hm⟩
    rintro ⟨-, here, hhere, -⟩
    rw [hp] at hhere
    cases hhere
  · refine ⟨(List.range nodes).filter fun node => (Channel.hearingDistance m.channel.maxRange
      m.positions sender here ⟨node, Address.ofNode node⟩).isSome, List.nodup_range.filter _,
      fun node => ?_, ?_⟩
    · rw [List.mem_filter, List.mem_range, Hears, hp]
      simp
    · have hhear : Channel.hearers m.channel.maxRange m.positions sender here m.channel.endpoints
          = ((List.range nodes).filter fun node => (Channel.hearingDistance m.channel.maxRange
            m.positions sender here ⟨node, Address.ofNode node⟩).isSome).map
              fun node => ⟨node, Address.ofNode node⟩ := by
        rw [Channel.hearers, hm.listeners, List.filter_map]
        rfl
      rw [hhear] at hspread
      refine ⟨⟨hm.few, hspread.ordered, hm.listeners, hm.hops, fun e he => ?_⟩, 0, ?_,
        hspread.grows, hspread.marked, Nat.le_refl _⟩
      · rcases hspread.events e he with ⟨x, hx, hex⟩ | ⟨listener, hl, hel⟩
        · rw [hex]
          exact hm.events x hx
        · obtain ⟨node, hn, rfl⟩ := List.mem_map.1 hl
          rw [hel]
          exact hf node (List.mem_range.1 (List.mem_of_mem_filter hn))
      · dsimp only
        rw [hspread.packets, List.map_map, Multiset.map_zero, add_zero, add_zero, add_assoc]
        rfl

theorem Goes.transmit_control (hm : m.Fit nodes) {sender : Nat} (hs : sender < nodes)
    {frame : Frame} (hf : frame.kind ≠ .data) {outcome : TransmitOutcome}
    (h : m.transmit sender frame = .ok (m', outcome)) : Goes nodes held m held m' 0 0 0 := by
  obtain ⟨reached, -, -, hgo⟩ := Goes.transmit held hm hs
    (fun node hn => ⟨hn, fun hd => absurd hd hf⟩) h
  have hzero : ∀ node, (Event.deliver node frame).packets = 0 := fun node =>
    if_neg fun hd => hf hd.1
  simpa only [hzero, List.map_const', List.sum_replicate, nsmul_zero] using hgo

/-- A data frame carries its packet to the station that it is sent to, and to no other one. -/
theorem Goes.transmit_data (hm : m.Fit nodes) {sender hop : Nat} (hs : sender < nodes)
    (hh : hop < nodes) (hear : m.Hears sender hop) {frame : Frame} (hf : frame.Plain)
    (hr : frame.receiver = Address.ofNode hop) {outcome : TransmitOutcome}
    (h : m.transmit sender frame = .ok (m', outcome)) :
    Goes nodes held m held m' {frame.packet} 0 0 := by
  obtain ⟨reached, hnodup, hmem, hgo⟩ := Goes.transmit held hm hs
    (fun node hn => ⟨hn, fun _ => ⟨hf, hop, hh, hr⟩⟩) h
  have hothers : ∀ node, node ≠ hop → node ∈ reached → (Event.deliver node frame).packets = 0 := by
    intro node hne hn
    refine if_neg fun hd => hne ?_
    have hlt := ((hmem node).1 hn).1
    have hfew := hm.few
    exact Address.ofNode_injective (by omega) (by omega) (hd.2.symm.trans hr)
  have hsum : (reached.map fun node => (Event.deliver node frame).packets).sum
      = {frame.packet} := by
    rw [List.sum_map_eq_nsmul_single hop _ hothers,
      List.count_eq_one_of_mem hnodup ((hmem hop).2 ⟨hh, hear⟩), one_nsmul]
    exact if_pos ⟨hf.data, hr⟩
  rwa [hsum] at hgo

end Medium

end SlotNet
