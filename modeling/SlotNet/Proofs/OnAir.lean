import SlotNet.Proofs.Announcing
import SlotNet.Proofs.Stranding

/-!
# One frame on the air

When a station sends a frame (`Medium.air`), one frame is counted, it is delivered to the nodes that hear it,
and one event is scheduled with which the station goes on when the frame has ended; nothing else is scheduled
(`air_once`). This fails only where a counter or the clock would run over (`exists_air`).
-/

namespace SlotNet

/-! ## What is scheduled -/

namespace EventQueue

variable {ε : Type} {q q' q'' : EventQueue ε} {events events' : List ε}

/-- All events that are scheduled, cancelled or not. -/
def planned (q : EventQueue ε) : List ε := q.entries.map (·.event)

/-- These events are scheduled and no others, and the clock stays. -/
structure Schedules (events : List ε) (q q' : EventQueue ε) : Prop where
  now : q'.now = q.now
  planned : q'.planned.Perm (events ++ q.planned)

theorem Schedules.refl (q : EventQueue ε) : Schedules [] q q := ⟨rfl, .refl _⟩

theorem Schedules.trans (h : Schedules events q q') (h' : Schedules events' q' q'') :
    Schedules (events' ++ events) q q'' := by
  refine ⟨h'.now.trans h.now, h'.planned.trans ?_⟩
  rw [List.append_assoc]
  exact h.planned.append_left events'

theorem schedules_cancel (q : EventQueue ε) (id : Nat) : Schedules [] q (q.cancel id).2 := by
  refine ⟨rfl, .of_eq ?_⟩
  rw [planned, cancel, List.map_map]
  exact List.map_congr_left fun e _ => event_cancelEntry id e

theorem schedules_schedule {delay : Time} {event : ε} {id : Nat}
    (h : q.schedule delay event = .ok (id, q')) : Schedules [event] q q' := by
  rw [(schedule_ok h).2]
  exact ⟨rfl, (insert_perm _ _).map _⟩

end EventQueue

open EventQueue (Schedules)

namespace Channel

variable {frame : Frame} {underWay : List InFlight} {s s' : Spread}

theorem schedules_cancelAll (q : EventQueue Event) (hit : List InFlight) :
    Schedules [] q (cancelAll q hit).2 := by
  induction hit generalizing q with
  | nil => exact .refl q
  | cons t rest ih =>
    rw [cancelAll_cons]
    exact (EventQueue.schedules_cancel q t.delivery).trans (ih _)

theorem schedules_deliver {sender : Address} {listener : Endpoint} {distance : Float}
    (h : deliver underWay sender frame listener distance s = .ok s') :
    Schedules [.deliver listener.node frame] s.events s'.events := by
  unfold deliver at h
  dsimp only at h
  obtain ⟨stats, -, h⟩ := Fault.bind_eq_ok.1 h
  obtain ⟨⟨id, events⟩, hschedule, h⟩ := Fault.bind_eq_ok.1 h
  have hevents := (schedules_cancelAll s.events _).trans (EventQueue.schedules_schedule hschedule)
  split at h
  · cases h
    exact hevents
  · obtain ⟨stats', -, h⟩ := Fault.bind_eq_ok.1 h
    obtain ⟨stats'', -, h⟩ := Fault.bind_eq_ok.1 h
    cases h
    exact hevents.trans (EventQueue.schedules_cancel events id)

theorem schedules_spread {maxRange : Float} {positions : List Point} {sender : Endpoint} {here : Point}
    {listeners : List Endpoint}
    (h : spread maxRange positions underWay sender here frame listeners s = .ok s') :
    ∃ receivers : List Nat, Schedules (receivers.map (.deliver · frame)) s.events s'.events := by
  induction listeners generalizing s with
  | nil =>
    cases h
    exact ⟨[], .refl _⟩
  | cons listener listeners ih =>
    obtain ⟨t, ht, h⟩ := Fault.bind_eq_ok.1 h
    obtain ⟨receivers, hrest⟩ := ih h
    cases hd : hearingDistance maxRange positions sender.node here listener with
    | none =>
      simp only [hd] at ht
      cases ht
      exact ⟨receivers, hrest⟩
    | some distance =>
      simp only [hd] at ht
      refine ⟨receivers ++ [listener.node], ?_⟩
      rw [List.map_append]
      exact (schedules_deliver ht).trans hrest

end Channel

/-! ## Counters with room -/

namespace Stats

theorem exists_recordTransmission {s : Stats} {bytes : Nat} (isData : Bool)
    (hframes : s.framesSent + 1 < Count.limit) (hbytes : s.totalBytes + bytes < Count.limit)
    (hcontrol : s.nonDataBytes + bytes < Count.limit) :
    ∃ s', s.recordTransmission bytes isData = .ok s' ∧ s'.collisions = s.collisions ∧
      s'.cancelledDeliveries = s.cancelledDeliveries := by
  cases isData with
  | false =>
    obtain ⟨s', hs', -, hcounts⟩ := recordTransmission_of_lt hframes hbytes hcontrol
    exact ⟨s', hs', hcounts⟩
  | true =>
    exact ⟨_, Fault.bind_eq_ok.2 ⟨_, Count.add_of_lt hframes, Fault.bind_eq_ok.2 ⟨_, Count.add_of_lt hbytes,
      rfl⟩⟩, rfl, rfl⟩

end Stats

/-! ## From a node -/

namespace Medium

variable {m m' : Medium} {node : Nat} {slotEnd : Time} {control : Bool} {frame : Frame}

/-- A frame is counted and put on the air, and its station goes on when it has ended. -/
def air (m : Medium) (node : Nat) (slotEnd : Time) (control : Bool) (frame : Frame) :
    Except Fault Medium := do
  let stats ← m.stats.recordTransmission frame.size frame.isData
  let (m', _) ← Medium.transmit { m with stats } node frame
  m'.schedule (Timing.airtime frame.size m.dataRate) (.continueSlot node slotEnd control)

theorem schedules_transmit {o : TransmitOutcome} (h : m.transmit node frame = .ok (m', o)) :
    ∃ receivers : List Nat, Schedules (receivers.map (.deliver · frame)) m.events m'.events := by
  obtain ⟨⟨c, events, stats, o'⟩, ht, h⟩ := Fault.bind_eq_ok.1 h
  cases h
  rcases Channel.transmit_cases ht with ⟨-, rfl, -⟩ | ⟨endpoint, here, s, -, -, hs, -, rfl, -⟩
  · exact ⟨[], .refl _⟩
  · exact Channel.schedules_spread hs

/-- One frame is counted, and one continuation is scheduled besides the deliveries of the frame. -/
theorem air_once (h : m.air node slotEnd control frame = .ok m') :
    m'.stats.framesSent = m.stats.framesSent + 1 ∧ m'.stats.noRouteDrops = m.stats.noRouteDrops ∧
      ∃ receivers : List Nat, Schedules
        (.continueSlot node slotEnd control :: receivers.map (.deliver · frame)) m.events m'.events := by
  obtain ⟨stats, hcount, h⟩ := Fault.bind_eq_ok.1 h
  obtain ⟨⟨m₁, o⟩, hsend, h⟩ := Fault.bind_eq_ok.1 h
  obtain ⟨receivers, hreceivers⟩ := schedules_transmit hsend
  obtain ⟨⟨id, events⟩, hschedule, rfl⟩ := Fault.map_eq_ok.1 h
  have hsent : m₁.stats.framesSent = m.stats.framesSent + 1 :=
    (sent_transmit hsend).counted.framesSent.trans (Stats.sent_recordTransmission hcount).framesSent
  have hdrops : m₁.stats.noRouteDrops = m.stats.noRouteDrops :=
    (noRouteDrops_transmit hsend).trans
      (Stats.noRouteDrops_of_tally (Stats.tally_recordTransmission hcount))
  exact ⟨hsent, hdrops, receivers, hreceivers.trans (EventQueue.schedules_schedule hschedule)⟩

/-- The counters and the clock have room for the transmission of a frame of this size. -/
structure CanAir (m : Medium) (size : Nat) : Prop where
  frames : m.stats.framesSent + 1 < Count.limit
  total : m.stats.totalBytes + size < Count.limit
  control : m.stats.nonDataBytes + size < Count.limit
  collisions : m.stats.collisions + m.channel.endpoints.length < Count.limit
  cancelled : m.stats.cancelledDeliveries
    + m.channel.endpoints.length * (m.channel.inFlight.length + 1) < Count.limit
  clock : m.now + Timing.longest < Time.limit

theorem exists_air (h : m.CanAir frame.size)
    (hends : m.now + Timing.airtime frame.size m.dataRate < Time.limit) (node : Nat) (slotEnd : Time)
    (control : Bool) : ∃ m', m.air node slotEnd control frame = .ok m' := by
  obtain ⟨stats, hcount, hcollisions, hcancelled⟩ :=
    Stats.exists_recordTransmission frame.isData h.frames h.total h.control
  have hroom : Channel.Spread.HasRoom ⟨m.events, stats, [], ⟨0, 0⟩⟩ m.channel.endpoints.length
      m.channel.inFlight.length :=
    ⟨hcollisions ▸ h.collisions, hcancelled ▸ h.cancelled, h.clock⟩
  obtain ⟨sent, hsent⟩ := Channel.transmit_of_room hroom node frame m.positions
  obtain ⟨⟨m₁, o⟩, hsend⟩ : ∃ r, Medium.transmit { m with stats } node frame = .ok r :=
    ⟨_, Fault.bind_eq_ok.2 ⟨sent, hsent, rfl⟩⟩
  obtain ⟨receivers, hevents⟩ := schedules_transmit hsend
  have hnow : m₁.events.now = m.events.now := hevents.now
  have hschedule := EventQueue.schedule_of_lt (Event.continueSlot node slotEnd control)
    (show m₁.events.now + Timing.airtime frame.size m.dataRate < Time.limit from hnow ▸ hends)
  exact ⟨_, Fault.bind_eq_ok.2 ⟨stats, hcount, Fault.bind_eq_ok.2 ⟨_, hsend,
    Fault.map_eq_ok.2 ⟨_, hschedule, rfl⟩⟩⟩⟩

end Medium

end SlotNet
