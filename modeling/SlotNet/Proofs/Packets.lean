import Mathlib.Algebra.Order.Group.Multiset
import Mathlib.Algebra.BigOperators.Group.Multiset.Basic
import SlotNet.Station
import SlotNet.Proofs.Channel

/-!
# Packets and what becomes of them

A packet is what data frames carry from node to node. `Moves` is the balance of a piece of a run: the
packets held and under way before it, and those that come in, are those held and under way after it,
those that come out, and those that are lost; and the counters have grown by as much. `Moves.trans`
puts two pieces together.
-/

namespace SlotNet

/-- What a data frame carries, whichever station it goes to next. -/
structure Packet where
  uid : Nat
  source : Nat
  destination : Nat
  createdAt : Time
  size : Nat
  deriving DecidableEq, Repr

def Frame.packet (f : Frame) : Packet :=
  ⟨f.uid, f.source, f.destination, f.createdAt, f.payload.size⟩

/-- Is it a frame of application data? -/
structure Frame.Plain (f : Frame) : Prop where
  data : f.kind = .data
  blank : ∃ size, f.payload = .blank size

/-- How a packet is lost. -/
inductive Loss where
  | dropped (reason : DropReason)
  | noRoute
  deriving DecidableEq, Repr

/-- What arrives with an event: the packet of a data frame, if its receiver is the station that the
frame was sent to. -/
def Event.packets : Event → Multiset Packet
  | .deliver receiver frame =>
    if frame.kind = .data ∧ frame.receiver = Address.ofNode receiver then {frame.packet} else 0
  | _ => 0

/-- What is under way with some events, cancelled or not. -/
def packetsOf (entries : List (Entry Event)) : Multiset Packet :=
  (entries.map (·.event.packets)).sum

def markedIn (entries : List (Entry Event)) : Nat := entries.countP (·.cancelled)

section Entries

variable {e : Entry Event} {l l' : List (Entry Event)}

@[simp] theorem packetsOf_nil : packetsOf [] = 0 := rfl

@[simp] theorem packetsOf_cons : packetsOf (e :: l) = e.event.packets + packetsOf l := by
  rw [packetsOf, List.map_cons, List.sum_cons, ← packetsOf]

@[simp] theorem packetsOf_append : packetsOf (l ++ l') = packetsOf l + packetsOf l' := by
  rw [packetsOf, List.map_append, List.sum_append, ← packetsOf, ← packetsOf]

theorem packetsOf_perm (h : l.Perm l') : packetsOf l = packetsOf l' := (h.map _).sum_eq

theorem packetsOf_map_of_event {f : Entry Event → Entry Event} (hf : ∀ e, (f e).event = e.event) :
    packetsOf (l.map f) = packetsOf l := by
  rw [packetsOf, List.map_map, packetsOf]
  exact congrArg List.sum (List.map_congr_left fun e _ => congrArg Event.packets (hf e))

theorem packetsOf_filter_add (l : List (Entry Event)) :
    packetsOf (l.filter (!·.cancelled)) + packetsOf (l.filter (·.cancelled)) = packetsOf l := by
  induction l with
  | nil => rfl
  | cons e l ih =>
    cases hc : e.cancelled
    · simp [hc, ← ih, add_assoc]
    · simp [hc, ← ih, add_left_comm]

@[simp] theorem markedIn_cons : markedIn (e :: l) = e.cancelled.toNat + markedIn l := by
  rw [markedIn, List.countP_cons, ← markedIn, Nat.add_comm]
  cases e.cancelled <;> rfl

@[simp] theorem markedIn_append : markedIn (l ++ l') = markedIn l + markedIn l' :=
  List.countP_append

theorem markedIn_perm (h : l.Perm l') : markedIn l = markedIn l' := h.countP_eq _

end Entries

namespace Stats

/-- How many packets were lost in a way. -/
def lossCount (s : Stats) : Loss → Nat
  | .dropped .expired => s.expiredDrops
  | .dropped .queueFull => s.queueFullDrops
  | .dropped .tooLarge => s.oversizedDrops
  | .noRoute => s.noRouteDrops

/-- The counters of packets and of cancelled deliveries. -/
def tally (s : Stats) : List Nat :=
  [s.expiredDrops, s.queueFullDrops, s.oversizedDrops, s.noRouteDrops, s.deliveredPackets,
    s.deliveredBytes, s.offeredDataBytes, s.cancelledDeliveries]

variable {s s' : Stats}

/-! Counting other things -/

theorem tally_recordTransmission {bytes : Nat} {isData : Bool}
    (h : s.recordTransmission bytes isData = .ok s') : s'.tally = s.tally := by
  unfold recordTransmission at h
  obtain ⟨n, -, h⟩ := Fault.bind_eq_ok.1 h
  obtain ⟨n', -, h⟩ := Fault.bind_eq_ok.1 h
  split at h
  all_goals
    obtain ⟨n'', -, h⟩ := Fault.bind_eq_ok.1 h
    cases h
    rfl

theorem tally_of_map {count : Except Fault Nat} {f : Nat → Stats} (h : count.map f = .ok s')
    (hf : ∀ n, (f n).tally = s.tally) : s'.tally = s.tally := by
  obtain ⟨n, -, rfl⟩ := Fault.map_eq_ok.1 h
  exact hf n

theorem tally_recordReception {bytes : Nat} (h : s.recordReception bytes = .ok s') :
    s'.tally = s.tally := tally_of_map h fun _ => rfl

theorem tally_recordReservation (h : s.recordReservation = .ok s') : s'.tally = s.tally :=
  tally_of_map h fun _ => rfl

theorem tally_recordMalformed (h : s.recordMalformed = .ok s') : s'.tally = s.tally :=
  tally_of_map h fun _ => rfl

theorem tally_recordConflicts {count : Nat} (h : s.recordConflicts count = .ok s') :
    s'.tally = s.tally := tally_of_map h fun _ => rfl

theorem tally_recordEnvStep (h : s.recordEnvStep = .ok s') : s'.tally = s.tally :=
  tally_of_map h fun _ => rfl

theorem tally_recordAgentError (h : s.recordAgentError = .ok s') : s'.tally = s.tally :=
  tally_of_map h fun _ => rfl

end Stats

/-- The losses that dropped frames are. -/
def lossesOf (drops : List Drop) : Multiset (Packet × Loss) :=
  (drops.map fun d => (d.item.frame.packet, Loss.dropped d.reason) : List (Packet × Loss))

/-- What the counters of a piece of a run have grown by. -/
structure Stats.Grows (s s' : Stats) (out : Multiset Packet) (lost : Multiset (Packet × Loss))
    (offered : Nat) : Prop where
  losses : ∀ l, s'.lossCount l = s.lossCount l + (lost.map Prod.snd).count l
  packets : s'.deliveredPackets = s.deliveredPackets + out.card
  bytes : s'.deliveredBytes = s.deliveredBytes + (out.map Packet.size).sum
  offered : s'.offeredDataBytes = s.offeredDataBytes + offered

namespace Stats

variable {s s' s'' : Stats} {out out' : Multiset Packet} {lost lost' : Multiset (Packet × Loss)}
  {offered offered' : Nat}

theorem Grows.trans (h : Grows s s' out lost offered) (h' : Grows s' s'' out' lost' offered') :
    Grows s s'' (out + out') (lost + lost') (offered + offered') where
  losses l := by
    rw [h'.losses, h.losses, Multiset.map_add, Multiset.count_add, Nat.add_assoc]
  packets := by rw [h'.packets, h.packets, Multiset.card_add, Nat.add_assoc]
  bytes := by rw [h'.bytes, h.bytes, Multiset.map_add, Multiset.sum_add, Nat.add_assoc]
  offered := by rw [h'.offered, h.offered, Nat.add_assoc]

theorem Grows.refl (s : Stats) : Grows s s 0 0 0 where
  losses l := by rw [Multiset.map_zero, Multiset.count_zero, Nat.add_zero]
  packets := rfl
  bytes := rfl
  offered := rfl

theorem grows_of_tally (h : s'.tally = s.tally) :
    Grows s s' 0 0 0 ∧ s'.cancelledDeliveries = s.cancelledDeliveries := by
  simp only [tally, List.cons.injEq, and_true] at h
  obtain ⟨h1, h2, h3, h4, h5, h6, h7, h8⟩ := h
  refine ⟨⟨fun l => ?_, h5, h6, h7⟩, h8⟩
  rw [Multiset.map_zero, Multiset.count_zero, Nat.add_zero]
  cases l with
  | dropped reason => cases reason <;> assumption
  | noRoute => exact h4

theorem grows_recordDrops {drops : List Drop} (h : s.recordDrops drops = .ok s') :
    Grows s s' 0 (lossesOf drops) 0 ∧ s'.cancelledDeliveries = s.cancelledDeliveries := by
  induction drops generalizing s with
  | nil =>
    cases h
    exact ⟨.refl _, rfl⟩
  | cons d drops ih =>
    obtain ⟨t, ht, h⟩ := Fault.bind_eq_ok.1 h
    replace ht : s.recordDrop d.reason = .ok t := ht
    obtain ⟨hrest, hc⟩ := ih h
    have hd : Grows s t 0 {(d.item.frame.packet, .dropped d.reason)} 0 ∧
        t.cancelledDeliveries = s.cancelledDeliveries := by
      unfold recordDrop at ht
      cases hr : d.reason <;> rw [hr] at ht <;> obtain ⟨n, hn, rfl⟩ := Fault.map_eq_ok.1 ht <;>
        obtain rfl := (Count.add_eq_ok hn).1 <;>
        exact ⟨⟨fun l => by
          cases l with
          | dropped reason => cases reason <;> simp [lossCount]
          | noRoute => simp [lossCount], rfl, rfl, rfl⟩, rfl⟩
    refine ⟨?_, hc.trans hd.2⟩
    have := hd.1.trans hrest
    rwa [zero_add, Multiset.singleton_add] at this

theorem grows_recordNoRoute {p : Packet} (h : s.recordNoRoute = .ok s') :
    Grows s s' 0 {(p, .noRoute)} 0 ∧ s'.cancelledDeliveries = s.cancelledDeliveries := by
  obtain ⟨n, hn, rfl⟩ := Fault.map_eq_ok.1 h
  obtain rfl := (Count.add_eq_ok hn).1
  refine ⟨⟨fun l => ?_, rfl, rfl, rfl⟩, rfl⟩
  cases l with
  | dropped reason => cases reason <;> simp [lossCount]
  | noRoute => simp [lossCount]

theorem grows_recordDelivery {p : Packet} {delay : Time}
    (h : s.recordDelivery p.size delay = .ok s') :
    Grows s s' {p} 0 0 ∧ s'.cancelledDeliveries = s.cancelledDeliveries := by
  unfold recordDelivery at h
  simp only [Fault.bind_eq_ok] at h
  obtain ⟨a, ha, b, hb, c, hc, h⟩ := h
  obtain rfl := (Count.add_eq_ok ha).1
  obtain rfl := (Count.add_eq_ok hb).1
  cases h
  exact ⟨⟨fun l => by cases l <;> simp [lossCount], by simp, by simp, rfl⟩, rfl⟩

theorem grows_recordOffer {bytes : Nat} (h : s.recordOffer bytes = .ok s') :
    Grows s s' 0 0 bytes ∧ s'.cancelledDeliveries = s.cancelledDeliveries := by
  obtain ⟨n, hn, rfl⟩ := Fault.map_eq_ok.1 h
  obtain rfl := (Count.add_eq_ok hn).1
  exact ⟨⟨fun l => by cases l <;> simp [lossCount], rfl, rfl, rfl⟩, rfl⟩

end Stats

end SlotNet
