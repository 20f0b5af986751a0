import SlotNet.Proofs.Medium

/-!
# What a station does with packets

One balance for each operation of a station. Packets come in by being made or by arriving, and come
out at their destination.
-/

namespace SlotNet.Station

open Medium (Goes)

/-- The station of a node that makes data only. -/
structure Fit (node : Nat) (s : Station) : Prop where
  node_eq : s.node = node
  address_eq : s.address = Address.ofNode node
  queue : s.queue.Fit

def held (s : Station) : Multiset Packet := s.queue.held

variable {nodes node : Nat} {s s' : Station} {m m' : Medium} {kind : QueueKind}

theorem Fit.setQueue (hs : s.Fit node) {queue : TransmitQueue} (hq : queue.Fit) :
    ({ s with queue }).Fit node := ⟨hs.node_eq, hs.address_eq, hq⟩

theorem fit_of_set {stations : List Station}
    (h : ∀ (k : Nat) (t : Station), stations[k]? = some t → t.Fit k) (hs : s.Fit node) (k : Nat)
    (t : Station) (ht : (stations.set node s)[k]? = some t) : t.Fit k := by
  rw [List.getElem?_set] at ht
  split at ht
  · rename_i hk
    obtain ⟨-, ht⟩ := Option.ite_none_right_eq_some.1 ht
    cases ht
    exact hk ▸ hs
  · exact h k t ht

/-! ## Queueing -/

theorem enqueue_goes (hs : s.Fit node) (hm : m.Fit nodes) {frame : Frame} (hf : frame.Plain)
    {result : Except EnqueueError QueueKind} (h : s.enqueue m frame = .ok (s', m', result)) :
    s'.Fit node ∧ Goes nodes s.held m s'.held m' {frame.packet} 0 0 := by
  obtain ⟨⟨queue, drops, result'⟩, h1, h⟩ := Fault.bind_eq_ok.1 h
  obtain ⟨stats, h2, h⟩ := Fault.bind_eq_ok.1 h
  cases h
  obtain ⟨hq, hb⟩ := TransmitQueue.enqueue_ok hs.queue hf h1
  refine ⟨hs.setQueue hq, .ofGrows hm (Stats.grows_recordDrops h2) ?_⟩
  rw [add_zero]
  exact hb

def made (s : Station) (m : Medium) (destination size : Nat) : Packet :=
  ⟨m.nextUid, s.node, destination, m.now, size⟩

theorem send_goes (hs : s.Fit node) (hm : m.Fit nodes) {destination size : Nat}
    {result : Except EnqueueError QueueKind}
    (h : s.send m destination size = .ok (s', m', result)) :
    s'.Fit node ∧ Goes nodes s.held m s'.held m' {s.made m destination size} 0 0 ∧
      m.nextUid < m'.nextUid := by
  have htake : Goes nodes s.held m s.held m.takeUid.2 0 0 0 := .takeUid hm
  obtain ⟨hs', hgo⟩ := enqueue_goes hs htake.1 ⟨rfl, size, rfl⟩ h
  refine ⟨hs', htake.step hgo, ?_⟩
  obtain ⟨-, lost, hmoves⟩ := hgo
  exact hmoves.nextUid

theorem peek_goes (hs : s.Fit node) (hm : m.Fit nodes) {head : Option QueueItem}
    (h : s.peek m kind = .ok (s', m', head)) :
    s'.Fit node ∧ Goes nodes s.held m s'.held m' 0 0 0 ∧ (s'.queue.items kind).head? = head := by
  obtain ⟨⟨queue, drops, head'⟩, h1, h⟩ := Fault.bind_eq_ok.1 h
  obtain ⟨stats, h2, h⟩ := Fault.bind_eq_ok.1 h
  cases h
  obtain ⟨hq, hb, hhead⟩ := TransmitQueue.peek_ok hs.queue h1
  refine ⟨hs.setQueue hq, .ofGrows hm (Stats.grows_recordDrops h2) ?_, hhead⟩
  rw [add_zero, add_zero]
  exact hb

theorem dequeue_goes (hs : s.Fit node) (hm : m.Fit nodes) {head : Option QueueItem}
    (h : s.dequeue m kind = .ok (s', m', head)) :
    s'.Fit node ∧
      Goes nodes s.held m (s'.held + TransmitQueue.headPackets head) m' 0 0 0 ∧
      (∀ item, head = some item → item.frame.Plain) ∧ ∃ stats, m' = { m with stats } := by
  obtain ⟨⟨queue, drops, head'⟩, h1, h⟩ := Fault.bind_eq_ok.1 h
  obtain ⟨stats, h2, h⟩ := Fault.bind_eq_ok.1 h
  cases h
  obtain ⟨hq, hb, hplain⟩ := TransmitQueue.dequeue_ok hs.queue h1
  refine ⟨hs.setQueue hq, .ofGrows hm (Stats.grows_recordDrops h2) ?_,
    fun item hi => (hplain item hi).2, stats, rfl⟩
  rw [add_zero, add_zero, add_right_comm]
  exact hb

/-! ## Sending -/

/-- Only packets without a way are lost, and the address found is that of a node in hearing. -/
theorem nextToSend_goes (hn : node < nodes) {fuel : Nat} (hs : s.Fit node) (hm : m.Fit nodes)
    {next : Option (QueueItem × Address)} (h : nextToSend kind fuel s m = .ok (s', m', next)) :
    s'.Fit node ∧ Goes nodes s.held m s'.held m' 0 0 0 ∧
      ∀ item address, next = some (item, address) →
        ∃ hop < nodes, m'.Hears node hop ∧ address = Address.ofNode hop := by
  induction fuel generalizing s m with
  | zero =>
    cases h
    exact ⟨hs, .refl hm, nofun⟩
  | succ fuel ih =>
    unfold nextToSend at h
    obtain ⟨⟨s₁, m₁, head⟩, h1, h⟩ := Fault.bind_eq_ok.1 h
    obtain ⟨hs₁, hgo₁, hhead⟩ := peek_goes hs hm h1
    have hm₁ := hgo₁.1
    cases head with
    | none =>
      cases h
      exact ⟨hs₁, hgo₁, nofun⟩
    | some item =>
      obtain ⟨rest, hi⟩ := List.head?_eq_some_iff.1 hhead
      obtain ⟨rfl, -, -⟩ := hs₁.queue.items_eq hi
      dsimp only at h
      cases hr : s₁.receiverOf m₁ .data item with
      | some address =>
        rw [hr] at h
        cases h
        refine ⟨hs₁, hgo₁, fun item' address' he => ?_⟩
        cases he
        obtain ⟨hop, hhop, rfl⟩ := Option.map_eq_some_iff.1 hr
        rw [hs₁.node_eq] at hhop
        obtain ⟨hlt, hear⟩ := hm₁.hops node hn _ hop hhop
        exact ⟨hop, hlt, hear, rfl⟩
      | none =>
        rw [hr] at h
        obtain ⟨⟨queue, found⟩, h2, h⟩ := Fault.bind_eq_ok.1 h
        obtain ⟨stats, h3, h⟩ := Fault.bind_eq_ok.1 h
        obtain ⟨hq, hb⟩ := TransmitQueue.remove_ok hs₁.queue hhead h2
        have hgo₂ : Goes nodes s₁.held m₁ queue.held { m₁ with stats } 0 0 0 :=
          .ofGrows hm₁ (Stats.grows_recordNoRoute (p := item.frame.packet) h3) (by
            rw [add_zero, add_zero]
            exact hb)
        obtain ⟨hs', hgo', hnext⟩ := ih (hs₁.setQueue hq) hgo₂.1 h
        exact ⟨hs', hgo₁.step (hgo₂.step hgo'), hnext⟩

theorem sendHead_goes (hn : node < nodes) (hs : s.Fit node) (hm : m.Fit nodes) {hop : Nat}
    (hh : hop < nodes) (hear : m.Hears node hop) {airtime slotEnd : Time} {sent : Option Frame}
    (h : s.sendHead m kind (Address.ofNode hop) airtime slotEnd = .ok (s', m', sent)) :
    s'.Fit node ∧ Goes nodes s.held m s'.held m' 0 0 0 := by
  unfold sendHead at h
  obtain ⟨⟨s₁, m₁, head⟩, h1, h⟩ := Fault.bind_eq_ok.1 h
  obtain ⟨hs₁, hgo₁, hplain, counted, rfl⟩ := dequeue_goes hs hm h1
  cases head with
  | none =>
    cases h
    rw [TransmitQueue.headPackets, Option.elim_none, add_zero] at hgo₁
    exact ⟨hs₁, hgo₁⟩
  | some item =>
    obtain ⟨stats, h2, h⟩ := Fault.bind_eq_ok.1 h
    obtain ⟨⟨m₂, outcome⟩, h3, h⟩ := Fault.bind_eq_ok.1 h
    obtain ⟨m₃, h4, h⟩ := Fault.bind_eq_ok.1 h
    cases h
    rw [hs₁.node_eq] at h3
    obtain ⟨hdata, size, hblank⟩ := hplain item rfl
    have hgo₂ : Goes nodes (s'.held + {item.frame.packet}) _ _ _ 0 0 0 :=
      .ofSame hgo₁.1 (Stats.tally_recordTransmission h2)
    let frame := { item.frame with transmitter := s'.address, receiver := Address.ofNode hop }
    have hgo₃ : Goes nodes s'.held _ s'.held m₂ {frame.packet} 0 0 :=
      .transmit_data hgo₂.1 hn hh hear ⟨hdata, size, hblank⟩ rfl h3
    have hgo₄ : Goes nodes s'.held m₂ s'.held m' 0 0 0 :=
      .schedule hgo₃.1 (by rfl) (by trivial) h4
    exact ⟨hs₁, hgo₁.step (hgo₂.step (hgo₃.spend.step hgo₄))⟩

theorem continueSlot_goes (hn : node < nodes) (hs : s.Fit node) (hm : m.Fit nodes)
    {slotEnd : Time} {control : Bool} {sent : Option Frame}
    (h : s.continueSlot m slotEnd control = .ok (s', m', sent)) :
    s'.Fit node ∧ Goes nodes s.held m s'.held m' 0 0 0 := by
  unfold continueSlot at h
  obtain ⟨⟨s₁, m₁, next⟩, h1, h⟩ := Fault.bind_eq_ok.1 h
  obtain ⟨hs₁, hgo₁, hnext⟩ := nextToSend_goes hn hs hm h1
  cases next with
  | none =>
    cases h
    exact ⟨hs₁, hgo₁⟩
  | some next =>
    obtain ⟨item, address⟩ := next
    obtain ⟨hop, hh, hear, rfl⟩ := hnext item address rfl
    obtain ⟨finish, -, h⟩ := Fault.bind_eq_ok.1 h
    split at h
    · cases h
      exact ⟨hs₁, hgo₁⟩
    · obtain ⟨hs', hgo'⟩ := sendHead_goes hn hs₁ hgo₁.1 hh hear h
      exact ⟨hs', hgo₁.step hgo'⟩

theorem startSlot_goes (hn : node < nodes) (hs : s.Fit node) (hm : m.Fit nodes)
    {duration : Time} {control : Bool} {sent : Option Frame}
    (h : s.startSlot m duration control = .ok (s', m', sent)) :
    s'.Fit node ∧ Goes nodes s.held m s'.held m' 0 0 0 := by
  obtain ⟨slotEnd, -, h⟩ := Fault.bind_eq_ok.1 h
  exact continueSlot_goes hn hs hm h

/-! ## Receiving -/

def arrived (frame : Frame) (what : Received) : Multiset Packet :=
  if what = .delivered then {frame.packet} else 0

theorem packets_of_ne {receiver : Nat} {frame : Frame}
    (h : frame.kind ≠ .data ∨ frame.receiver ≠ Address.ofNode receiver) :
    (Event.deliver receiver frame).packets = 0 :=
  if_neg fun hd => h.elim (absurd hd.1) (absurd hd.2)

/-- Packets come in with the frames that were sent to the station, and come out at their
destination. -/
theorem receive_goes (hs : s.Fit node) (hm : m.Fit nodes) {frame : Frame}
    (hf : (Event.deliver node frame).Fit nodes) {what : Received}
    (h : s.receive m frame = .ok (s', m', what)) :
    s'.Fit node ∧
      Goes nodes s.held m s'.held m' (Event.deliver node frame).packets (arrived frame what) 0 ∧
      (what = .delivered → frame.destination = node) := by
  have hidle : ∀ {what : Received}, what ≠ .delivered →
      (frame.kind ≠ .data ∨ frame.receiver ≠ Address.ofNode node) →
      s.Fit node ∧
        Goes nodes s.held m s.held m (Event.deliver node frame).packets (arrived frame what) 0 ∧
        (what = .delivered → frame.destination = node) := by
    intro what hw hne
    rw [packets_of_ne hne, arrived, if_neg hw]
    exact ⟨hs, .refl hm, fun hd => absurd hd hw⟩
  unfold receive at h
  rw [hs.address_eq, hs.node_eq] at h
  by_cases hother : frame.receiver ≠ Address.ofNode node ∧ ¬ frame.receiver.isBroadcast
  · rw [if_pos hother] at h
    cases h
    exact hidle (by decide) (.inr hother.1)
  rw [if_neg hother] at h
  by_cases hstatus : frame.payload.startsWith StatusMessage.marker
  · rw [if_pos hstatus] at h
    cases h
    refine hidle (by simp) (.inl fun hd => ?_)
    obtain ⟨-, size, hb⟩ := (hf.2 hd).1
    rw [hb] at hstatus
    cases hstatus
  rw [if_neg hstatus] at h
  by_cases hcontrol : ¬ frame.isData ∨ frame.receiver.isBroadcast
  · rw [if_pos hcontrol] at h
    cases h
    refine hidle (by decide) (.inl fun hd => ?_)
    obtain ⟨-, hop, hh, hr⟩ := hf.2 hd
    have hfew := hm.few
    rw [hr, Address.isBroadcast_ofNode (by omega)] at hcontrol
    simp [Frame.isData, hd] at hcontrol
  rw [if_neg hcontrol] at h
  obtain ⟨hdata, hb⟩ := not_or.1 hcontrol
  have hkind : frame.kind = .data := by simpa [Frame.isData] using hdata
  have hmine : frame.receiver = Address.ofNode node := by
    by_contra hne
    exact hother ⟨hne, hb⟩
  have hinn : (Event.deliver node frame).packets = {frame.packet} := if_pos ⟨hkind, hmine⟩
  obtain ⟨stats, h1, h⟩ := Fault.bind_eq_ok.1 h
  have hgo₁ : Goes nodes s.held m s.held { m with stats } 0 0 0 :=
    .ofSame hm (Stats.tally_recordReception h1)
  rw [hinn]
  by_cases hdest : frame.destination = node
  · rw [if_pos hdest] at h
    obtain ⟨stats', h2, h⟩ := Fault.bind_eq_ok.1 h
    cases h
    have hgo₂ : Goes nodes s.held { m with stats } s.held { m with stats := stats' }
        {frame.packet} {frame.packet} 0 :=
      .ofGrows hgo₁.1 (Stats.grows_recordDelivery (p := frame.packet) h2) (by
        rw [Multiset.map_zero, add_zero])
    exact ⟨hs, hgo₁.step hgo₂, fun _ => hdest⟩
  · rw [if_neg hdest] at h
    obtain ⟨⟨s₁, m₁, result⟩, h2, h⟩ := Fault.bind_eq_ok.1 h
    obtain ⟨hs₁, hgo₂⟩ := enqueue_goes hs hgo₁.1 (hf.2 hkind).1 h2
    cases result <;> cases h <;> exact ⟨hs₁, hgo₁.step hgo₂, nofun⟩

end SlotNet.Station
