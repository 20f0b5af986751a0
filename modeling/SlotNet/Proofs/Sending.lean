import SlotNet.Proofs.Handlers
import SlotNet.Proofs.QueueOrder

/-!
# How a station uses its slot

A station that may send drops frames that are too old or have no way to go (`Sheds`), or it puts the
oldest frame of one queue on the air, to the station that is next for it, and will go on when the air
is free again (`Airs`). `continueSlot_spec` says that it does nothing else.

`handle_sent` counts: while the network handles an event, as many frames are counted as the handler
says that stations sent, and no reservation and no step.
-/

namespace SlotNet

/-! ## Counting -/

namespace Stats

/-- What is counted of reservations and of steps. -/
def duties (s : Stats) : Nat × Nat × Nat :=
  (s.reservationMessages, s.malformedReservations, s.envSteps)

/-- So many frames are counted as sent, and no reservation and no step. -/
structure Sent (count : Nat) (s s' : Stats) : Prop where
  framesSent : s'.framesSent = s.framesSent + count
  duties : s'.duties = s.duties

variable {s s' s'' : Stats} {count count' : Nat}

theorem Sent.refl (s : Stats) : Sent 0 s s := ⟨rfl, rfl⟩

theorem Sent.trans (h : Sent count s s') (h' : Sent count' s' s'') :
    Sent (count + count') s s'' :=
  ⟨by rw [h'.framesSent, h.framesSent, Nat.add_assoc], h'.duties.trans h.duties⟩

theorem sent_of_map {n : Except Fault Nat} {f : Nat → Stats} (h : n.map f = .ok s')
    (hf : ∀ n, (f n).framesSent = s.framesSent ∧ (f n).duties = s.duties) : Sent 0 s s' := by
  obtain ⟨n, -, rfl⟩ := Fault.map_eq_ok.1 h
  exact ⟨(hf n).1, (hf n).2⟩

theorem sent_recordTransmission {bytes : Nat} {isData : Bool}
    (h : s.recordTransmission bytes isData = .ok s') : Sent 1 s s' := by
  obtain ⟨a, ha, h⟩ := Fault.bind_eq_ok.1 h
  obtain ⟨b, -, h⟩ := Fault.bind_eq_ok.1 h
  obtain ⟨rfl, -⟩ := Count.add_eq_ok ha
  cases isData with
  | true =>
    cases h
    exact ⟨rfl, rfl⟩
  | false =>
    obtain ⟨c, -, h⟩ := Fault.bind_eq_ok.1 h
    cases h
    exact ⟨rfl, rfl⟩

theorem sent_recordDelivery {bytes : Nat} {delay : Time}
    (h : s.recordDelivery bytes delay = .ok s') : Sent 0 s s' := by
  obtain ⟨a, -, h⟩ := Fault.bind_eq_ok.1 h
  obtain ⟨b, -, h⟩ := Fault.bind_eq_ok.1 h
  obtain ⟨c, -, h⟩ := Fault.bind_eq_ok.1 h
  cases h
  exact ⟨rfl, rfl⟩

theorem sent_recordDrops {drops : List Drop} (h : s.recordDrops drops = .ok s') : Sent 0 s s' := by
  induction drops generalizing s with
  | nil =>
    cases h
    exact .refl _
  | cons d drops ih =>
    obtain ⟨t, ht, h⟩ := Fault.bind_eq_ok.1 h
    replace ht : s.recordDrop d.reason = .ok t := ht
    refine Sent.trans ?_ (ih h)
    unfold recordDrop at ht
    split at ht <;> exact sent_of_map ht fun _ => ⟨rfl, rfl⟩

end Stats

namespace Channel

variable {frame : Frame} {underWay : List InFlight} {s s' : Spread}

theorem sent_deliver {sender : Address} {listener : Endpoint} {distance : Float}
    (h : deliver underWay sender frame listener distance s = .ok s') : s.stats.Sent 0 s'.stats := by
  unfold deliver at h
  dsimp only at h
  obtain ⟨stats, h1, h⟩ := Fault.bind_eq_ok.1 h
  obtain ⟨⟨id, events⟩, -, h⟩ := Fault.bind_eq_ok.1 h
  have hfirst : s.stats.Sent 0 stats := Stats.sent_of_map h1 fun _ => ⟨rfl, rfl⟩
  split at h
  · cases h
    exact hfirst
  · obtain ⟨stats', h2, h⟩ := Fault.bind_eq_ok.1 h
    obtain ⟨stats'', h3, h⟩ := Fault.bind_eq_ok.1 h
    cases h
    have hown : stats.Sent 0 stats' := Stats.sent_of_map h2 fun _ => ⟨rfl, rfl⟩
    have hcollision : stats'.Sent 0 stats'' := Stats.sent_of_map h3 fun _ => ⟨rfl, rfl⟩
    exact hfirst.trans (hown.trans hcollision)

theorem sent_spread {maxRange : Float} {positions : List Point} {sender : Endpoint} {here : Point}
    {listeners : List Endpoint}
    (h : spread maxRange positions underWay sender here frame listeners s = .ok s') :
    s.stats.Sent 0 s'.stats := by
  induction listeners generalizing s with
  | nil =>
    cases h
    exact .refl _
  | cons listener listeners ih =>
    obtain ⟨t, ht, h⟩ := Fault.bind_eq_ok.1 h
    cases hd : hearingDistance maxRange positions sender.node here listener with
    | none =>
      simp only [hd] at ht
      cases ht
      exact ih h
    | some distance =>
      simp only [hd] at ht
      exact (sent_deliver ht).trans (ih h)

end Channel

namespace Medium

/-- So many frames are counted as sent; the routes and the rate on the link stay, and numbers of frames
only grow. -/
structure Sent (count : Nat) (m m' : Medium) : Prop where
  counted : m.stats.Sent count m'.stats
  routes : m'.routes = m.routes
  dataRate : m'.dataRate = m.dataRate
  nextUid : m.nextUid ≤ m'.nextUid

variable {m m' m'' : Medium} {count count' : Nat}

theorem Sent.refl (m : Medium) : Sent 0 m m := ⟨.refl _, rfl, rfl, Nat.le_refl _⟩

theorem Sent.trans (h : Sent count m m') (h' : Sent count' m' m'') : Sent (count + count') m m'' :=
  ⟨h.counted.trans h'.counted, h'.routes.trans h.routes, h'.dataRate.trans h.dataRate,
    h.nextUid.trans h'.nextUid⟩

theorem Sent.ofStats {stats : Stats} (h : m.stats.Sent count stats) :
    Sent count m { m with stats } := ⟨h, rfl, rfl, Nat.le_refl _⟩

theorem sent_schedule {delay : Time} {event : Event} (h : m.schedule delay event = .ok m') :
    Sent 0 m m' := by
  rw [schedule_ok h]
  exact ⟨.refl _, rfl, rfl, Nat.le_refl _⟩

theorem sent_transmit {sender : Nat} {frame : Frame} {o : TransmitOutcome}
    (h : m.transmit sender frame = .ok (m', o)) : Sent 0 m m' := by
  obtain ⟨⟨c, events, stats, o'⟩, ht, h⟩ := Fault.bind_eq_ok.1 h
  cases h
  rcases Channel.transmit_cases ht with ⟨-, -, rfl⟩ | ⟨endpoint, here, s, -, -, hs, -, -, rfl⟩
  · exact ⟨.refl _, rfl, rfl, Nat.le_refl _⟩
  · exact ⟨Channel.sent_spread hs, rfl, rfl, Nat.le_refl _⟩

end Medium

/-! ## Stations -/

/-- The queue that a slot empties. -/
def QueueKind.ofSlot (control : Bool) : QueueKind := if control then .control else .data

theorem QueueKind.decide_ofSlot (control : Bool) :
    decide (QueueKind.ofSlot control = .control) = control := by
  cases control <;> rfl

namespace Station

open Medium (Does)

/-- Frames are dropped from the queues and counted. -/
structure Sheds (s : Station) (m : Medium) (s' : Station) (m' : Medium) : Prop where
  station : s' = { s with queue := s'.queue }
  queue : s.queue.Sheds s'.queue
  medium : m' = { m with stats := m'.stats }
  counted : m.stats.Sent 0 m'.stats

/-- A queued frame as a station sends it. -/
def aired (s : Station) (item : QueueItem) (receiver : Address) : Frame :=
  { item.frame with transmitter := s.address, receiver }

/-- The frame that is the oldest one of a queue, once those that have to be dropped are gone, goes on the
air. It ends in time, and then the station goes on with its slot. -/
structure Airs (s : Station) (m : Medium) (kind : QueueKind) (slotEnd : Time) (item : QueueItem)
    (receiver : Address) (s' : Station) (m' : Medium) : Prop where
  station : s' = { s with queue := s'.queue }
  taken : (item :: s'.queue.items kind).Sublist (s.queue.items kind)
  others : ∀ k, k ≠ kind → (s'.queue.items k).Sublist (s.queue.items k)
  address : s.receiverOf m kind item = some receiver
  fits : m.now + Timing.airtime (s.aired item receiver).size m.dataRate ≤ slotEnd
  does : ∃ stats m₁ o, m.stats.Sent 1 stats ∧
    Medium.transmit { m with stats } s.node (s.aired item receiver) = .ok (m₁, o) ∧
    m₁.schedule (Timing.airtime (s.aired item receiver).size m.dataRate)
      (.continueSlot s.node slotEnd (kind = .control)) = .ok m'

variable {s s' s'' : Station} {m m' m'' : Medium} {kind : QueueKind}

theorem Sheds.refl (s : Station) (m : Medium) : s.Sheds m s m := ⟨rfl, .refl _, rfl, .refl _⟩

theorem Sheds.node (h : s.Sheds m s' m') : s'.node = s.node := by rw [h.station]

theorem Sheds.address (h : s.Sheds m s' m') : s'.address = s.address := by rw [h.station]

theorem Sheds.now (h : s.Sheds m s' m') : m'.now = m.now := by rw [h.medium]; rfl

theorem Sheds.trans (h : s.Sheds m s' m') (h' : s'.Sheds m' s'' m'') : s.Sheds m s'' m'' where
  station := by rw [h'.station, h.station]
  queue := h.queue.trans h'.queue
  medium := by rw [h'.medium, h.medium]
  counted := h.counted.trans h'.counted

theorem Sheds.sent (h : s.Sheds m s' m') : Medium.Sent 0 m m' := by
  rw [h.medium]
  exact .ofStats h.counted

theorem Sheds.ofQueue {queue : TransmitQueue} {stats : Stats} (hq : s.queue.Sheds queue)
    (hstats : m.stats.Sent 0 stats) : s.Sheds m { s with queue } { m with stats } :=
  ⟨rfl, hq, rfl, hstats⟩

theorem Sheds.receiverOf (h : s.Sheds m s' m') (kind : QueueKind) (item : QueueItem) :
    s'.receiverOf m' kind item = s.receiverOf m kind item := by
  rw [h.station, h.medium]
  cases kind <;> rfl

theorem peek_sheds {head : Option QueueItem} (h : s.peek m kind = .ok (s', m', head)) :
    s.Sheds m s' m' ∧ s'.queue.Fresh m.now ∧ (s'.queue.items kind).head? = head := by
  obtain ⟨⟨queue, drops, head'⟩, h1, h⟩ := Fault.bind_eq_ok.1 h
  obtain ⟨stats, h2, h⟩ := Fault.bind_eq_ok.1 h
  cases h
  obtain ⟨hq, hfresh, hhead⟩ := TransmitQueue.peek_sheds h1
  exact ⟨.ofQueue hq (Stats.sent_recordDrops h2), hfresh, hhead⟩

theorem nextToSend_sheds {fuel : Nat} {next : Option (QueueItem × Address)}
    (h : nextToSend kind fuel s m = .ok (s', m', next)) :
    s.Sheds m s' m' ∧ ∀ item address, next = some (item, address) →
      s'.queue.Fresh m.now ∧ (s'.queue.items kind).head? = some item ∧
        s'.receiverOf m' kind item = some address := by
  induction fuel generalizing s m with
  | zero =>
    cases h
    exact ⟨.refl _ _, nofun⟩
  | succ fuel ih =>
    unfold nextToSend at h
    obtain ⟨⟨s₁, m₁, head⟩, h1, h⟩ := Fault.bind_eq_ok.1 h
    obtain ⟨hsheds, hfresh, hhead⟩ := peek_sheds h1
    cases head with
    | none =>
      cases h
      exact ⟨hsheds, nofun⟩
    | some item =>
      dsimp only at h
      cases hr : s₁.receiverOf m₁ kind item with
      | some address =>
        rw [hr] at h
        cases h
        refine ⟨hsheds, fun item' address' he => ?_⟩
        cases he
        exact ⟨hfresh, hhead, hr⟩
      | none =>
        rw [hr] at h
        obtain ⟨⟨queue, found⟩, h2, h⟩ := Fault.bind_eq_ok.1 h
        obtain ⟨stats, h3, h⟩ := Fault.bind_eq_ok.1 h
        have hremoved : s₁.Sheds m₁ { s₁ with queue } { m₁ with stats } :=
          .ofQueue (TransmitQueue.remove_sheds h2) (Stats.sent_of_map h3 fun _ => ⟨rfl, rfl⟩)
        obtain ⟨hrest, hnext⟩ := ih h
        refine ⟨hsheds.trans (hremoved.trans hrest), fun item' address he => ?_⟩
        rw [← hsheds.now]
        exact hnext item' address he

/-- The oldest frame of a queue from which nothing is to be dropped goes on the air. -/
theorem sendHead_airs {item : QueueItem} {receiver : Address} {slotEnd : Time}
    (hfresh : s.queue.Fresh m.now) (hhead : (s.queue.items kind).head? = some item)
    (hreceiver : s.receiverOf m kind item = some receiver)
    (hfits : m.now + Timing.airtime item.frame.size m.dataRate ≤ slotEnd) {sent : Option Frame}
    (h : s.sendHead m kind receiver (Timing.airtime item.frame.size m.dataRate) slotEnd
      = .ok (s', m', sent)) :
    sent = some (s.aired item receiver) ∧ s.Airs m kind slotEnd item receiver s' m' := by
  unfold sendHead at h
  obtain ⟨⟨s₁, m₁, head⟩, h1, h⟩ := Fault.bind_eq_ok.1 h
  obtain ⟨⟨queue, drops, head'⟩, h2, h1⟩ := Fault.bind_eq_ok.1 h1
  obtain ⟨stats, h3, h1⟩ := Fault.bind_eq_ok.1 h1
  cases h1
  obtain ⟨hfirst, htail, hothers⟩ := hfresh.dequeue h2
  rw [hhead] at hfirst
  subst hfirst
  obtain ⟨stats', h4, h⟩ := Fault.bind_eq_ok.1 h
  obtain ⟨⟨m₂, o⟩, h5, h⟩ := Fault.bind_eq_ok.1 h
  obtain ⟨m₃, h6, h⟩ := Fault.bind_eq_ok.1 h
  cases h
  have hcounted : m.stats.Sent 1 stats' :=
    (Stats.sent_recordDrops h3).trans (Stats.sent_recordTransmission h4)
  refine ⟨rfl, rfl, ?_, fun k hk => ?_, hreceiver, hfits, stats', m₂, o, hcounted, h5, h6⟩
  · obtain ⟨rest, hi⟩ := List.head?_eq_some_iff.1 hhead
    rw [htail, hi]
    exact .refl _
  · rw [hothers k hk]

theorem Airs.after {slotEnd : Time} {item : QueueItem} {receiver : Address}
    (h : s.Sheds m s' m') (h' : s'.Airs m' kind slotEnd item receiver s'' m'') :
    s.Airs m kind slotEnd item receiver s'' m'' ∧
      s'.aired item receiver = s.aired item receiver := by
  have haired : s'.aired item receiver = s.aired item receiver := by rw [aired, aired, h.address]
  have hrate : m'.dataRate = m.dataRate := h.sent.dataRate
  obtain ⟨stats, m₁, o, hcounted, hsend, hnext⟩ := h'.does
  have hfits := h'.fits
  rw [haired, hrate, h.now] at hfits
  rw [haired, hrate, h.node] at hnext
  rw [haired, h.node, show ({ m' with stats } : Medium) = { m with stats } by rw [h.medium]] at hsend
  refine ⟨⟨by rw [h'.station, h.station], h'.taken.trans (h.queue.items kind),
    fun k hk => (h'.others k hk).trans (h.queue.items k), ?_, hfits, stats, m₁, o,
    h.counted.trans hcounted, hsend, hnext⟩, haired⟩
  rw [← h.receiverOf]
  exact h'.address

/-- What a station does with its slot. -/
def Uses (s : Station) (m : Medium) (slotEnd : Time) (control : Bool) (s' : Station) (m' : Medium) :
    Option Frame → Prop
  | none => s.Sheds m s' m'
  | some frame => ∃ item receiver, frame = s.aired item receiver ∧
      s.Airs m (QueueKind.ofSlot control) slotEnd item receiver s' m'

theorem continueSlot_spec {slotEnd : Time} {control : Bool} {sent : Option Frame}
    (h : s.continueSlot m slotEnd control = .ok (s', m', sent)) :
    s.Uses m slotEnd control s' m' sent := by
  unfold continueSlot at h
  obtain ⟨⟨s₁, m₁, next⟩, h1, h⟩ := Fault.bind_eq_ok.1 h
  obtain ⟨hsheds, hnext⟩ := nextToSend_sheds h1
  cases next with
  | none =>
    cases h
    exact hsheds
  | some next =>
    obtain ⟨item, receiver⟩ := next
    obtain ⟨hfresh, hhead, hreceiver⟩ := hnext item receiver rfl
    obtain ⟨finish, h2, h⟩ := Fault.bind_eq_ok.1 h
    split at h
    · cases h
      exact hsheds
    · rename_i hend
      obtain rfl := (Time.add_eq_ok h2).1
      rw [← hsheds.now] at hfresh
      obtain ⟨rfl, hairs⟩ :=
        sendHead_airs hfresh hhead hreceiver (Nat.le_of_not_lt hend) h
      obtain ⟨hairs, haired⟩ := hairs.after hsheds
      exact ⟨item, receiver, haired, hairs⟩

theorem startSlot_spec {duration : Time} {control : Bool} {sent : Option Frame}
    (h : s.startSlot m duration control = .ok (s', m', sent)) :
    s.Uses m (m.now + duration) control s' m' sent := by
  obtain ⟨slotEnd, h1, h⟩ := Fault.bind_eq_ok.1 h
  obtain rfl := (Time.add_eq_ok h1).1
  exact continueSlot_spec h

theorem Airs.sent {slotEnd : Time} {item : QueueItem} {receiver : Address}
    (h : s.Airs m kind slotEnd item receiver s' m') : Medium.Sent 1 m m' := by
  obtain ⟨stats, m₁, o, hcounted, hsend, hnext⟩ := h.does
  exact (Medium.Sent.ofStats hcounted).trans
    ((Medium.sent_transmit hsend).trans (Medium.sent_schedule hnext))

theorem Uses.sent {slotEnd : Time} {control : Bool} {sent : Option Frame}
    (h : s.Uses m slotEnd control s' m' sent) : Medium.Sent sent.toList.length m m' := by
  cases sent with
  | none => exact Sheds.sent h
  | some frame =>
    obtain ⟨item, receiver, -, hairs⟩ := h
    exact hairs.sent

/-! ## Queueing and receiving -/

theorem enqueue_sent {frame : Frame} {result : Except EnqueueError QueueKind}
    (h : s.enqueue m frame = .ok (s', m', result)) : Medium.Sent 0 m m' := by
  obtain ⟨⟨queue, drops, result'⟩, h1, h⟩ := Fault.bind_eq_ok.1 h
  obtain ⟨stats, h2, h⟩ := Fault.bind_eq_ok.1 h
  cases h
  exact .ofStats (Stats.sent_recordDrops h2)

theorem receive_sent {frame : Frame} {what : Received}
    (h : s.receive m frame = .ok (s', m', what)) : Medium.Sent 0 m m' := by
  unfold receive at h
  split at h
  · cases h
    exact .refl m
  split at h
  · cases h
    exact .refl m
  split at h
  · cases h
    exact .refl m
  obtain ⟨stats, h1, h⟩ := Fault.bind_eq_ok.1 h
  have hcount : Medium.Sent 0 m { m with stats } :=
    .ofStats (Stats.sent_of_map h1 fun _ => ⟨rfl, rfl⟩)
  split at h
  · obtain ⟨stats', h2, h⟩ := Fault.bind_eq_ok.1 h
    cases h
    have hcount' : Medium.Sent 0 { m with stats } { m with stats := stats' } :=
      .ofStats (Stats.sent_recordDelivery h2)
    exact hcount.trans hcount'
  · obtain ⟨⟨s₁, m₁, result⟩, h2, h⟩ := Fault.bind_eq_ok.1 h
    cases result <;> cases h <;> exact hcount.trans (enqueue_sent h2)

end Station

theorem Traffic.arrive_sent {node : Nat} {t t' : Traffic} {s s' : Station} {m m' : Medium}
    {destination : Option Nat} (h : t.arrive s m node = .ok (t', s', m', destination)) :
    Medium.Sent 0 m m' := by
  obtain ⟨m₁, h1, h⟩ := arrive_cases h
  have hfirst : Medium.Sent 0 m m₁ := by
    rcases h1 with rfl | ⟨gap, -, h1⟩
    · exact .refl m₁
    · exact Medium.sent_schedule h1
  rcases h with ⟨-, rfl, rfl⟩ | ⟨d, stats, result, -, h2, h3⟩
  · exact hfirst
  · have hcount : Medium.Sent 0 m₁ { m₁ with stats } :=
      .ofStats (Stats.sent_of_map h2 fun _ => ⟨rfl, rfl⟩)
    have huid : Medium.Sent 0 { m₁ with stats } ({ m₁ with stats } : Medium).takeUid.2 :=
      ⟨.refl _, rfl, rfl, Nat.le_succ _⟩
    exact hfirst.trans (hcount.trans (huid.trans (Station.enqueue_sent h3)))

/-! ## The network -/

def Handled.sent : Handled → List Frame
  | .granted grants => grants.filterMap (·.sent)
  | .continued sent => sent.toList
  | _ => []

namespace Network

variable {n n' : Network} {node : Nat}

theorem grant_sent {duration : Time} {control : Bool} {grants : List Grant}
    (h : n.grant node duration control = .ok (n', grants)) :
    n.medium.Sent (grants.filterMap (·.sent)).length n'.medium := by
  obtain ⟨⟨n₁, result⟩, h1, h⟩ := Fault.bind_eq_ok.1 h
  cases h
  rcases onStation_cases h1 with ⟨rfl, rfl, -⟩ | ⟨s, s', m, sent, -, ha, rfl, rfl⟩
  · exact .refl _
  · have hone := (Station.startSlot_spec ha).sent
    cases sent <;> exact hone

theorem grantAll_sent {duration : Time} {control : Bool} {members : List Nat}
    {grants : List Grant} (h : n.grantAll duration control members = .ok (n', grants)) :
    n.medium.Sent (grants.filterMap (·.sent)).length n'.medium := by
  induction members generalizing n grants with
  | nil =>
    cases h
    exact .refl _
  | cons node members ih =>
    obtain ⟨⟨n₁, first⟩, h1, h⟩ := Fault.bind_eq_ok.1 h
    obtain ⟨⟨n₂, more⟩, h2, h⟩ := Fault.bind_eq_ok.1 h
    cases h
    rw [List.filterMap_append, List.length_append]
    exact (grant_sent h1).trans (ih h2)

theorem runSlot_sent {slot : Nat} {grants : List Grant} (h : n.runSlot slot = .ok (n', grants)) :
    n.medium.Sent (grants.filterMap (·.sent)).length n'.medium := by
  rcases runSlot_cases h with ⟨-, rfl, rfl⟩ | ⟨n₁, delay, next, m, -, h1, -, h3, rfl⟩
  · exact .refl _
  · exact (grantAll_sent h1).trans (Medium.sent_schedule h3)

theorem merge_sent {message : List UInt8} {observer : Nat} {result : Except StatusError Nat}
    (h : n.merge message observer = .ok (n', result)) : n.medium.Sent 0 n'.medium := by
  obtain ⟨-, stats, hstats, rfl⟩ := merge_cases h
  rcases hstats with rfl | ⟨conflicts, hstats⟩
  · exact .refl _
  · exact .ofStats (Stats.sent_of_map hstats fun _ => ⟨rfl, rfl⟩)

theorem handle_sent {event : Event} {handled : Handled}
    (h : n.handle event = .ok (n', handled)) : n.medium.Sent handled.sent.length n'.medium := by
  cases event with
  | startFrame =>
    obtain ⟨⟨n₁, grants⟩, h1, h⟩ := Fault.map_eq_ok.1 h
    cases h
    have hslot := runSlot_sent h1
    exact ⟨⟨hslot.counted.framesSent, hslot.counted.duties⟩, hslot.routes, hslot.dataRate,
      hslot.nextUid⟩
  | runSlot slot =>
    obtain ⟨⟨n₁, grants⟩, h1, h⟩ := Fault.map_eq_ok.1 h
    cases h
    exact runSlot_sent h1
  | continueSlot node slotEnd control =>
    rcases continueSlot_cases h with ⟨rfl, rfl⟩ | ⟨s, s', m, sent, -, ha, rfl, rfl⟩
    · exact .refl _
    · exact (Station.continueSlot_spec ha).sent
  | deliver receiver frame =>
    rcases deliver_cases h with ⟨rfl, rfl, -⟩ | ⟨s, s', m, what, -, ha, hwhat⟩
    · exact .refl _
    have hone := Station.receive_sent ha
    rcases hwhat with ⟨content, result, -, rfl, hmerge⟩ | ⟨rfl, rfl⟩
    · exact hone.trans (merge_sent hmerge)
    · exact hone
  | envStep =>
    cases h
    exact .refl _
  | arrival node =>
    rcases arrive_cases h with ⟨rfl, rfl⟩ | ⟨s, s', m, traffic, destination, -, ha, rfl, rfl⟩
    · exact .refl _
    · exact Traffic.arrive_sent ha

end Network

end SlotNet
