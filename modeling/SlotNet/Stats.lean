import SlotNet.TransmitQueue

/-!
# Counters of a run

What a run counts, and the figures derived from it.
-/

namespace SlotNet

/-- The counters of a run. -/
structure Stats where
  /-- Frames put on the air. -/
  framesSent : Nat := 0
  /-- Bytes put on the air. -/
  totalBytes : Nat := 0
  /-- Bytes of control frames put on the air. -/
  nonDataBytes : Nat := 0
  /-- Payload bytes that the nodes made. -/
  offeredDataBytes : Nat := 0
  /-- Bytes of data frames received by the stations they were sent to. -/
  receivedDataBytes : Nat := 0
  /-- Packets that reached their destination. -/
  deliveredPackets : Nat := 0
  /-- Payload bytes that reached their destination. -/
  deliveredBytes : Nat := 0
  /-- Nanoseconds that the delivered packets were under way, summed up. -/
  totalDelayNs : Nat := 0
  /-- Receptions that met another one under way. -/
  collisions : Nat := 0
  /-- Deliveries cancelled by collisions. -/
  cancelledDeliveries : Nat := 0
  expiredDrops : Nat := 0
  queueFullDrops : Nat := 0
  oversizedDrops : Nat := 0
  /-- Data frames dropped because no way to their destination was known. -/
  noRouteDrops : Nat := 0
  reservationMessages : Nat := 0
  /-- Status messages that could not be read. -/
  malformedReservations : Nat := 0
  /-- Own claims lost to a neighbour. -/
  reservationConflicts : Nat := 0
  framesCompleted : Nat := 0
  envSteps : Nat := 0
  agentErrors : Nat := 0
  deriving DecidableEq, Repr

namespace Stats

/-- The counters with their names in reports, in order. -/
def fields (s : Stats) : List (String × Nat) :=
  [("frames_sent", s.framesSent), ("total_bytes", s.totalBytes),
   ("non_data_bytes", s.nonDataBytes), ("offered_data_bytes", s.offeredDataBytes),
   ("received_data_bytes", s.receivedDataBytes), ("delivered_packets", s.deliveredPackets),
   ("delivered_bytes", s.deliveredBytes), ("total_delay_ns", s.totalDelayNs),
   ("collisions", s.collisions), ("cancelled_deliveries", s.cancelledDeliveries),
   ("expired_drops", s.expiredDrops), ("queue_full_drops", s.queueFullDrops),
   ("oversized_drops", s.oversizedDrops), ("no_route_drops", s.noRouteDrops),
   ("reservation_messages", s.reservationMessages),
   ("malformed_reservations", s.malformedReservations),
   ("reservation_conflicts", s.reservationConflicts), ("frames_completed", s.framesCompleted),
   ("env_steps", s.envSteps), ("agent_errors", s.agentErrors)]

/-! ## Counting -/

/-- A frame was put on the air. -/
def recordTransmission (s : Stats) (bytes : Nat) (isData : Bool) : Except Fault Stats := do
  let framesSent ← Count.add s.framesSent 1
  let totalBytes ← Count.add s.totalBytes bytes
  let nonDataBytes ← if isData then .ok s.nonDataBytes else Count.add s.nonDataBytes bytes
  return { s with framesSent, totalBytes, nonDataBytes }

def recordDelivery (s : Stats) (payloadBytes : Nat) (delay : Time) : Except Fault Stats := do
  let deliveredPackets ← Count.add s.deliveredPackets 1
  let deliveredBytes ← Count.add s.deliveredBytes payloadBytes
  let totalDelayNs ← Count.add s.totalDelayNs delay.low64
  return { s with deliveredPackets, deliveredBytes, totalDelayNs }

def recordDrop (s : Stats) : DropReason → Except Fault Stats
  | .expired => (Count.add s.expiredDrops 1).map fun n => { s with expiredDrops := n }
  | .queueFull => (Count.add s.queueFullDrops 1).map fun n => { s with queueFullDrops := n }
  | .tooLarge => (Count.add s.oversizedDrops 1).map fun n => { s with oversizedDrops := n }

def recordDrops (s : Stats) (drops : List Drop) : Except Fault Stats :=
  drops.foldlM (fun s d => s.recordDrop d.reason) s

/-- A frame had no way to go. -/
def recordNoRoute (s : Stats) : Except Fault Stats :=
  (Count.add s.noRouteDrops 1).map fun n => { s with noRouteDrops := n }

/-- The nodes made payload. -/
def recordOffer (s : Stats) (bytes : Nat) : Except Fault Stats :=
  (Count.add s.offeredDataBytes bytes).map fun n => { s with offeredDataBytes := n }

/-- A station received a data frame that was sent to it. -/
def recordReception (s : Stats) (bytes : Nat) : Except Fault Stats :=
  (Count.add s.receivedDataBytes bytes).map fun n => { s with receivedDataBytes := n }

def recordCancelled (s : Stats) (count : Nat) : Except Fault Stats :=
  (Count.add s.cancelledDeliveries count).map fun n => { s with cancelledDeliveries := n }

def recordCollision (s : Stats) : Except Fault Stats :=
  (Count.add s.collisions 1).map fun n => { s with collisions := n }

/-- A status message was sent. -/
def recordReservation (s : Stats) : Except Fault Stats :=
  (Count.add s.reservationMessages 1).map fun n => { s with reservationMessages := n }

def recordMalformed (s : Stats) : Except Fault Stats :=
  (Count.add s.malformedReservations 1).map fun n => { s with malformedReservations := n }

/-- Own claims were lost. -/
def recordConflicts (s : Stats) (count : Nat) : Except Fault Stats :=
  (Count.add s.reservationConflicts count).map fun n => { s with reservationConflicts := n }

/-- The agent's choice was carried out. -/
def recordEnvStep (s : Stats) : Except Fault Stats :=
  (Count.add s.envSteps 1).map fun n => { s with envSteps := n }

def recordAgentError (s : Stats) : Except Fault Stats :=
  (Count.add s.agentErrors 1).map fun n => { s with agentErrors := n }

/-! ## Figures -/

def real (n : Nat) : Float := n.toUInt64.toFloat

/-- Delivered payload in bits per second over a time. -/
def throughput (s : Stats) (elapsed : Time) : Float :=
  if elapsed.seconds ≤ 0.0 then 0.0 else real s.deliveredBytes * 8.0 / elapsed.seconds

/-- The mean time under way of the delivered packets, cut to whole nanoseconds. -/
def averageDelay (s : Stats) : Time :=
  if s.deliveredPackets = 0 then 0 else s.totalDelayNs / s.deliveredPackets

/-- The part of the offered payload that was delivered. -/
def deliveryRatio (s : Stats) : Float :=
  if s.offeredDataBytes = 0 then 0.0 else real s.deliveredBytes / real s.offeredDataBytes

/-- The part of the bytes on air that was control. -/
def controlOverhead (s : Stats) : Float :=
  if s.totalBytes = 0 then 0.0 else real s.nonDataBytes / real s.totalBytes

end Stats

end SlotNet
