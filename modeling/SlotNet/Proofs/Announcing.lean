import SlotNet.Medium
import SlotNet.Proofs.Channel

/-!
# Announcing a view

A status message goes on the air as one frame to everybody, and is counted. It can only fail where a counter or
the clock would run over. `HasRoom` says that none does, however many listeners there are and whatever is under
way, and then the message is announced (`Medium.announce_of_room`).
-/

namespace SlotNet

/-- Puts the status message of a node on the air, and counts it. -/
def Medium.announce (m : Medium) (node : Nat) (message : List UInt8) :
    Except Fault (Medium × TransmitOutcome) := do
  let (uid, m) := m.takeUid
  let frame : Frame :=
    { uid, kind := .reservation, transmitter := .ofNode node, receiver := .broadcast, source := node
      destination := node, createdAt := m.now, payload := .bytes message }
  let stats ← m.stats.recordTransmission frame.size false
  let stats ← stats.recordReservation
  Medium.transmit { m with stats } node frame

theorem Count.add_of_lt {a b : Nat} (h : a + b < Count.limit) : Count.add a b = .ok (a + b) := if_pos h

namespace Stats

variable {s : Stats}

theorem recordCancelled_of_lt {count : Nat} (h : s.cancelledDeliveries + count < Count.limit) :
    s.recordCancelled count = .ok { s with cancelledDeliveries := s.cancelledDeliveries + count } := by
  rw [recordCancelled, Count.add_of_lt h]
  rfl

theorem recordCollision_of_lt (h : s.collisions + 1 < Count.limit) :
    s.recordCollision = .ok { s with collisions := s.collisions + 1 } := by
  rw [recordCollision, Count.add_of_lt h]
  rfl

theorem recordReservation_of_lt (h : s.reservationMessages + 1 < Count.limit) :
    ∃ s', s.recordReservation = .ok s' ∧ s'.collisions = s.collisions ∧
      s'.cancelledDeliveries = s.cancelledDeliveries :=
  ⟨_, Fault.map_eq_ok.2 ⟨_, Count.add_of_lt h, rfl⟩, rfl, rfl⟩

theorem recordTransmission_of_lt {bytes : Nat} (hframes : s.framesSent + 1 < Count.limit)
    (hbytes : s.totalBytes + bytes < Count.limit) (hcontrol : s.nonDataBytes + bytes < Count.limit) :
    ∃ s', s.recordTransmission bytes false = .ok s' ∧ s'.reservationMessages = s.reservationMessages ∧
      s'.collisions = s.collisions ∧ s'.cancelledDeliveries = s.cancelledDeliveries :=
  ⟨_, Fault.bind_eq_ok.2 ⟨_, Count.add_of_lt hframes, Fault.bind_eq_ok.2 ⟨_, Count.add_of_lt hbytes,
    Fault.bind_eq_ok.2 ⟨_, Count.add_of_lt hcontrol, rfl⟩⟩⟩, rfl, rfl, rfl⟩

end Stats

theorem EventQueue.schedule_of_lt {ε : Type} {q : EventQueue ε} {delay : Time} (event : ε)
    (h : q.now + delay < Time.limit) : q.schedule delay event = .ok (q.scheduleAt (q.now + delay) event) := by
  rw [schedule, Time.add, if_pos h]
  rfl

theorem Binary.clamp_le (whole : Nat → Nat → Nat) (limit : Nat) (x : Binary) :
    clamp whole limit x ≤ limit := by
  unfold clamp
  split
  · exact Nat.zero_le _
  · exact Nat.zero_le _
  · exact Nat.zero_le _
  · exact Nat.le_refl _
  · exact Nat.min_le_left _ _

theorem Timing.propagationDelay_le (metres : Float) : propagationDelay metres ≤ longest :=
  Binary.clamp_le _ _ _

/-! ## On the channel -/

namespace Channel

/-- The counters and the clock of a transmission have room for some more listeners, each of which may run into
so many deliveries. -/
structure Spread.HasRoom (s : Spread) (listeners underWay : Nat) : Prop where
  collisions : s.stats.collisions + listeners < Count.limit
  cancelled : s.stats.cancelledDeliveries + listeners * (underWay + 1) < Count.limit
  clock : s.events.now + Timing.longest < Time.limit

variable {underWay : List InFlight} {sender : Address} {frame : Frame}

theorem cancelAll_le (q : EventQueue Event) (hit : List InFlight) : (cancelAll q hit).1 ≤ hit.length := by
  induction hit generalizing q with
  | nil => exact Nat.le_refl 0
  | cons t rest ih =>
    have hrest := ih (q.cancel t.delivery).2
    rw [cancelAll_cons, List.length_cons]
    dsimp only
    split <;> omega

theorem deliver_of_room {s : Spread} {listeners : Nat} (h : s.HasRoom (listeners + 1) underWay.length)
    (listener : Endpoint) (distance : Float) :
    ∃ s', deliver underWay sender frame listener distance s = .ok s' ∧
      s'.HasRoom listeners underWay.length := by
  obtain ⟨hcollisions, hcancelled, hclock⟩ := h
  have hnow := congrArg EventQueue.now (cancelAll_spec s.events (overlapping underWay sender listener.address))
  have hfew : (cancelAll s.events (overlapping underWay sender listener.address)).1 ≤ underWay.length :=
    (cancelAll_le _ _).trans (List.length_filter_le _ _)
  rw [Nat.add_mul, Nat.one_mul] at hcancelled
  unfold deliver
  dsimp only at hnow ⊢
  generalize cancelAll s.events (overlapping underWay sender listener.address) = cut at hnow hfew ⊢
  obtain ⟨n, events⟩ := cut
  dsimp only at hnow hfew ⊢
  have hcount : s.stats.recordCancelled n = .ok (countHit s.stats n false) :=
    Stats.recordCancelled_of_lt (by omega)
  have hclock' : events.now + Timing.longest < Time.limit := hnow ▸ hclock
  have hschedule := EventQueue.schedule_of_lt (.deliver listener.node frame)
    (Nat.lt_of_le_of_lt (Nat.add_le_add_left (Timing.propagationDelay_le distance) events.now) hclock')
  by_cases hclear : (overlapping underWay sender listener.address).isEmpty = true
  · refine ⟨_, Fault.bind_eq_ok.2 ⟨_, hcount, Fault.bind_eq_ok.2 ⟨_, hschedule, if_pos hclear⟩⟩, ?_, ?_,
      hclock'⟩
    · show s.stats.collisions + listeners < Count.limit
      omega
    · show s.stats.cancelledDeliveries + n + listeners * (underWay.length + 1) < Count.limit
      omega
  · have hown : (countHit s.stats n false).recordCancelled 1 = .ok _ :=
      Stats.recordCancelled_of_lt (show s.stats.cancelledDeliveries + n + 1 < Count.limit by omega)
    have hcollided : Stats.recordCollision
        { s.stats with cancelledDeliveries := s.stats.cancelledDeliveries + n + 1 } = .ok _ :=
      Stats.recordCollision_of_lt (show s.stats.collisions + 1 < Count.limit by omega)
    refine ⟨_, Fault.bind_eq_ok.2 ⟨_, hcount, Fault.bind_eq_ok.2 ⟨_, hschedule, (if_neg hclear).trans
      (Fault.bind_eq_ok.2 ⟨_, hown, Fault.bind_eq_ok.2 ⟨_, hcollided, rfl⟩⟩)⟩⟩, ?_, ?_, hclock'⟩
    · show s.stats.collisions + 1 + listeners < Count.limit
      omega
    · show s.stats.cancelledDeliveries + n + 1 + listeners * (underWay.length + 1) < Count.limit
      omega

theorem spread_of_room {maxRange : Float} {positions : List Point} {sender : Endpoint} {here : Point}
    (listeners : List Endpoint) {s : Spread} (h : s.HasRoom listeners.length underWay.length) :
    ∃ s', spread maxRange positions underWay sender here frame listeners s = .ok s' := by
  induction listeners generalizing s with
  | nil => exact ⟨s, rfl⟩
  | cons listener listeners ih =>
    unfold spread
    rw [List.foldlM_cons]
    cases hearingDistance maxRange positions sender.node here listener with
    | none =>
      obtain ⟨hcollisions, hcancelled, hclock⟩ := h
      rw [List.length_cons] at hcollisions hcancelled
      rw [Nat.add_mul] at hcancelled
      exact ih ⟨by omega, by omega, hclock⟩
    | some distance =>
      obtain ⟨s₁, hfirst, hroom⟩ := deliver_of_room h listener distance
      obtain ⟨s', hrest⟩ := ih hroom
      exact ⟨s', Fault.bind_eq_ok.2 ⟨s₁, hfirst, hrest⟩⟩

theorem Spread.HasRoom.mono {s : Spread} {listeners underWay underWay' : Nat}
    (h : s.HasRoom listeners underWay') (hle : underWay ≤ underWay') : s.HasRoom listeners underWay :=
  ⟨h.collisions, Nat.lt_of_le_of_lt (Nat.add_le_add_left
    (Nat.mul_le_mul_left listeners (Nat.succ_le_succ hle)) _) h.cancelled, h.clock⟩

theorem transmit_of_room {c : Channel} {events : EventQueue Event} {stats : Stats}
    (h : Spread.HasRoom ⟨events, stats, [], ⟨0, 0⟩⟩ c.endpoints.length c.inFlight.length)
    (sender : Nat) (frame : Frame) (positions : List Point) :
    ∃ sent, c.transmit sender frame events positions stats = .ok sent := by
  unfold transmit
  split
  · obtain ⟨s, hs⟩ := spread_of_room c.endpoints (h.mono (List.length_filter_le _ _))
    exact ⟨_, Fault.bind_eq_ok.2 ⟨s, hs, rfl⟩⟩
  · exact ⟨_, rfl⟩

end Channel

/-! ## From a node -/

namespace Medium

/-- The counters and the clock have room for the transmission of a status message. -/
structure HasRoom (m : Medium) (size : Nat) : Prop where
  frames : m.stats.framesSent + 1 < Count.limit
  total : m.stats.totalBytes + size < Count.limit
  control : m.stats.nonDataBytes + size < Count.limit
  messages : m.stats.reservationMessages + 1 < Count.limit
  collisions : m.stats.collisions + m.channel.endpoints.length < Count.limit
  cancelled : m.stats.cancelledDeliveries
    + m.channel.endpoints.length * (m.channel.inFlight.length + 1) < Count.limit
  clock : m.now + Timing.longest < Time.limit

theorem announce_of_room {m : Medium} (node : Nat) {message : List UInt8}
    (h : m.HasRoom (message.length + Frame.overhead)) : ∃ sent, m.announce node message = .ok sent := by
  obtain ⟨counted, hcounted, hmessages, hcollisions, hcancelled⟩ :=
    Stats.recordTransmission_of_lt h.frames h.total h.control
  obtain ⟨stats, hstats, hcollisions', hcancelled'⟩ :=
    counted.recordReservation_of_lt (hmessages ▸ h.messages)
  have hroom : Channel.Spread.HasRoom ⟨m.events, stats, [], ⟨0, 0⟩⟩ m.channel.endpoints.length
      m.channel.inFlight.length := by
    refine ⟨?_, ?_, h.clock⟩
    · rw [hcollisions', hcollisions]
      exact h.collisions
    · rw [hcancelled', hcancelled]
      exact h.cancelled
  obtain ⟨sent, hsent⟩ := Channel.transmit_of_room hroom node _ m.positions
  exact ⟨_, Fault.bind_eq_ok.2 ⟨counted, hcounted, Fault.bind_eq_ok.2 ⟨stats, hstats,
    Fault.bind_eq_ok.2 ⟨sent, hsent, rfl⟩⟩⟩⟩

end Medium

end SlotNet
