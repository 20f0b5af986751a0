import SlotNet.Proofs.Effects
import SlotNet.Proofs.Simulation

/-!
# What the handlers send and schedule

For each handler what it may send and what it may schedule, as `Does`. Stations send data only, within
the slots that they are given, and only while a data slot runs; a control slot finds their queues empty
and makes them send nothing. A reservation is the only other thing that is sent (`Simulation.envStep_steps`).
-/

namespace SlotNet

/-! ## Counting -/

namespace Stats

variable {s s' : Stats}

theorem airing_of_map {count : Except Fault Nat} {f : Nat → Stats} (h : count.map f = .ok s')
    (hf : ∀ n, (f n).airing = s.airing) : s'.airing = s.airing := by
  obtain ⟨n, -, rfl⟩ := Fault.map_eq_ok.1 h
  exact hf n

theorem airing_recordTransmission {bytes : Nat} {isData : Bool}
    (h : s.recordTransmission bytes isData = .ok s') : s'.airing = s.airing := by
  obtain ⟨a, -, h⟩ := Fault.bind_eq_ok.1 h
  obtain ⟨b, -, h⟩ := Fault.bind_eq_ok.1 h
  cases isData with
  | true =>
    cases h
    rfl
  | false =>
    obtain ⟨c, -, h⟩ := Fault.bind_eq_ok.1 h
    cases h
    rfl

theorem airing_recordDelivery {bytes : Nat} {delay : Time}
    (h : s.recordDelivery bytes delay = .ok s') : s'.airing = s.airing := by
  obtain ⟨a, -, h⟩ := Fault.bind_eq_ok.1 h
  obtain ⟨b, -, h⟩ := Fault.bind_eq_ok.1 h
  obtain ⟨c, -, h⟩ := Fault.bind_eq_ok.1 h
  cases h
  rfl

theorem airing_recordDrops {drops : List Drop} (h : s.recordDrops drops = .ok s') :
    s'.airing = s.airing := by
  induction drops generalizing s with
  | nil =>
    cases h
    rfl
  | cons d drops ih =>
    obtain ⟨t, ht, h⟩ := Fault.bind_eq_ok.1 h
    replace ht : s.recordDrop d.reason = .ok t := ht
    refine (ih h).trans ?_
    unfold recordDrop at ht
    split at ht <;> exact airing_of_map ht fun _ => rfl

end Stats

theorem Timing.airtime_pos {bytes : Nat} (hb : 0 < bytes) (rate : Nat) :
    0 < Timing.airtime bytes rate := by
  unfold Timing.airtime
  split
  · decide
  · rename_i hr
    refine Nat.lt_min.2 ⟨by decide, Nat.div_pos ?_ (Nat.pos_of_ne_zero hr)⟩
    have hbits : 0 < bytes * 8 * Time.second :=
      Nat.mul_pos (Nat.mul_pos hb (by decide)) (by decide)
    omega

theorem Frame.size_pos (f : Frame) : 0 < f.size := Nat.lt_of_lt_of_le (by decide) (Nat.le_add_left _ _)

/-! ## Stations -/

namespace Station

open Medium (Does Quiet)

variable {node : Nat} {s s' : Station} {m m' : Medium} {kind : QueueKind}

theorem enqueue_quiet (hs : s.Fit node) {frame : Frame} (hf : frame.Plain)
    {result : Except EnqueueError QueueKind} (h : s.enqueue m frame = .ok (s', m', result)) :
    s'.Fit node ∧ Quiet m m' := by
  obtain ⟨⟨queue, drops, result'⟩, h1, h⟩ := Fault.bind_eq_ok.1 h
  obtain ⟨stats, h2, h⟩ := Fault.bind_eq_ok.1 h
  cases h
  exact ⟨hs.setQueue (TransmitQueue.enqueue_ok hs.queue hf h1).1,
    .ofStats (Stats.airing_recordDrops h2)⟩

theorem send_quiet (hs : s.Fit node) {destination size : Nat}
    {result : Except EnqueueError QueueKind}
    (h : s.send m destination size = .ok (s', m', result)) : s'.Fit node ∧ Quiet m m' := by
  obtain ⟨hs', hquiet⟩ := enqueue_quiet hs ⟨rfl, size, rfl⟩ h
  exact ⟨hs', (Does.ofStep .takeUid).trans hquiet⟩

theorem peek_quiet (hs : s.Fit node) {head : Option QueueItem}
    (h : s.peek m kind = .ok (s', m', head)) :
    s'.Fit node ∧ Quiet m m' ∧ (s'.queue.items kind).head? = head := by
  obtain ⟨⟨queue, drops, head'⟩, h1, h⟩ := Fault.bind_eq_ok.1 h
  obtain ⟨stats, h2, h⟩ := Fault.bind_eq_ok.1 h
  cases h
  obtain ⟨hq, -, hhead⟩ := TransmitQueue.peek_ok hs.queue h1
  exact ⟨hs.setQueue hq, .ofStats (Stats.airing_recordDrops h2), hhead⟩

theorem dequeue_quiet (hs : s.Fit node) {head : Option QueueItem}
    (h : s.dequeue m kind = .ok (s', m', head)) :
    s'.Fit node ∧ Quiet m m' ∧ ∀ item, head = some item → kind = .data ∧ item.frame.Plain := by
  obtain ⟨⟨queue, drops, head'⟩, h1, h⟩ := Fault.bind_eq_ok.1 h
  obtain ⟨stats, h2, h⟩ := Fault.bind_eq_ok.1 h
  cases h
  obtain ⟨hq, -, hplain⟩ := TransmitQueue.dequeue_ok hs.queue h1
  exact ⟨hs.setQueue hq, .ofStats (Stats.airing_recordDrops h2), hplain⟩

theorem nextToSend_quiet {fuel : Nat} (hs : s.Fit node) {next : Option (QueueItem × Address)}
    (h : nextToSend kind fuel s m = .ok (s', m', next)) :
    s'.Fit node ∧ Quiet m m' ∧ (next.isSome → kind = .data) := by
  induction fuel generalizing s m with
  | zero =>
    cases h
    exact ⟨hs, Does.refl _, nofun⟩
  | succ fuel ih =>
    unfold nextToSend at h
    obtain ⟨⟨s₁, m₁, head⟩, h1, h⟩ := Fault.bind_eq_ok.1 h
    obtain ⟨hs₁, hquiet, hhead⟩ := peek_quiet hs h1
    cases head with
    | none =>
      cases h
      exact ⟨hs₁, hquiet, nofun⟩
    | some item =>
      obtain ⟨rest, hi⟩ := List.head?_eq_some_iff.1 hhead
      obtain ⟨rfl, -, -⟩ := hs₁.queue.items_eq hi
      dsimp only at h
      cases hr : s₁.receiverOf m₁ .data item with
      | some address =>
        rw [hr] at h
        cases h
        exact ⟨hs₁, hquiet, fun _ => rfl⟩
      | none =>
        rw [hr] at h
        obtain ⟨⟨queue, found⟩, h2, h⟩ := Fault.bind_eq_ok.1 h
        obtain ⟨stats, h3, h⟩ := Fault.bind_eq_ok.1 h
        obtain ⟨hq, -⟩ := TransmitQueue.remove_ok hs₁.queue hhead h2
        obtain ⟨hs', hquiet', hnext⟩ := ih (hs₁.setQueue hq) h
        have hcount : Quiet m₁ { m₁ with stats } :=
          .ofStats (Stats.airing_of_map h3 fun _ => rfl)
        exact ⟨hs', hquiet.trans (hcount.trans hquiet'), hnext⟩

/-- What a station may send: plain data of its own. -/
def Sends (node : Nat) (sender : Nat) (frame : Frame) : Prop :=
  sender = node ∧ frame.Plain ∧ frame.transmitter = Address.ofNode node

/-- A station goes on with its slot after the frame, if that does not end later than the slot. -/
def Plans (node : Nat) (slotEnd time : Time) (event : Event) : Prop :=
  time ≤ slotEnd ∧ event = .continueSlot node slotEnd false

theorem sendHead_does (hs : s.Fit node) (hm : m.events.Ordered) {receiver : Address}
    {airtime slotEnd : Time} (hend : m.now + airtime ≤ slotEnd) {sent : Option Frame}
    (h : s.sendHead m kind receiver airtime slotEnd = .ok (s', m', sent)) :
    s'.Fit node ∧ Does (Sends node) (Plans node slotEnd) m m' := by
  unfold sendHead at h
  obtain ⟨⟨s₁, m₁, head⟩, h1, h⟩ := Fault.bind_eq_ok.1 h
  obtain ⟨hs₁, hquiet, hplain⟩ := dequeue_quiet hs h1
  cases head with
  | none =>
    cases h
    exact ⟨hs₁, hquiet.does⟩
  | some item =>
    obtain ⟨stats, h2, h⟩ := Fault.bind_eq_ok.1 h
    obtain ⟨⟨m₂, outcome⟩, h3, h⟩ := Fault.bind_eq_ok.1 h
    obtain ⟨m₃, h4, h⟩ := Fault.bind_eq_ok.1 h
    cases h
    obtain ⟨rfl, hdata, size, hblank⟩ := hplain item rfl
    rw [hs₁.node_eq] at h3 h4
    have hcount : Does (Sends node) (Plans node slotEnd) m₁ { m₁ with stats } :=
      .ofStep (.count (Stats.airing_recordTransmission h2))
    have hsend : Sends node node { item.frame with transmitter := s'.address, receiver } :=
      ⟨rfl, ⟨hdata, size, hblank⟩, hs₁.address_eq⟩
    have hdoes : Does (Sends node) (Plans node slotEnd) m m₂ :=
      hquiet.does.trans (hcount.trans (.ofStep (.transmit hsend h3)))
    refine ⟨hs₁, hdoes.trans (.ofStep (.schedule ⟨?_, rfl⟩ h4))⟩
    rw [(hdoes.clock hm).2]
    exact hend

/-- A station sends in data slots only, and only before their end. -/
theorem continueSlot_does (hs : s.Fit node) (hm : m.events.Ordered) {slotEnd : Time}
    {control : Bool} {sent : Option Frame}
    (h : s.continueSlot m slotEnd control = .ok (s', m', sent)) :
    s'.Fit node ∧
      Does (fun n f => control = false ∧ m.now < slotEnd ∧ Sends node n f)
        (fun t e => control = false ∧ m.now < slotEnd ∧ Plans node slotEnd t e) m m' := by
  unfold continueSlot at h
  obtain ⟨⟨s₁, m₁, next⟩, h1, h⟩ := Fault.bind_eq_ok.1 h
  obtain ⟨hs₁, hquiet, hkind⟩ := nextToSend_quiet hs h1
  cases next with
  | none =>
    cases h
    exact ⟨hs₁, hquiet.does⟩
  | some next =>
    obtain ⟨item, address⟩ := next
    obtain ⟨finish, h2, h⟩ := Fault.bind_eq_ok.1 h
    split at h
    · cases h
      exact ⟨hs₁, hquiet.does⟩
    · rename_i hend
      obtain rfl := (Time.add_eq_ok h2).1
      obtain ⟨ho, hnow⟩ := Does.clock hm hquiet
      have hair := Timing.airtime_pos item.frame.size_pos m₁.dataRate
      obtain ⟨hs', hdoes⟩ := sendHead_does hs₁ ho (Nat.le_of_not_lt hend) h
      have hcontrol : control = false := by
        cases control with
        | false => rfl
        | true => cases hkind rfl
      have hfits := Nat.le_of_not_lt hend
      rw [hnow] at hfits
      have hlt : m.now < slotEnd := Nat.lt_of_lt_of_le (Nat.lt_add_of_pos_right hair) hfits
      exact ⟨hs', hquiet.does.trans (hdoes.mono (fun _ _ hsend => ⟨hcontrol, hlt, hsend⟩)
        fun _ _ hplan => ⟨hcontrol, hlt, hplan⟩)⟩

theorem startSlot_does (hs : s.Fit node) (hm : m.events.Ordered) {duration : Time}
    {control : Bool} {sent : Option Frame}
    (h : s.startSlot m duration control = .ok (s', m', sent)) :
    s'.Fit node ∧ Does (fun n f => control = false ∧ Sends node n f)
      (fun t e => control = false ∧ Plans node (m.now + duration) t e) m m' := by
  obtain ⟨slotEnd, h1, h⟩ := Fault.bind_eq_ok.1 h
  obtain rfl := (Time.add_eq_ok h1).1
  obtain ⟨hs', hdoes⟩ := continueSlot_does hs hm h
  exact ⟨hs', hdoes.mono (fun _ _ hsend => ⟨hsend.1, hsend.2.2⟩)
    fun _ _ hplan => ⟨hplan.1, hplan.2.2⟩⟩

/-- A station that receives only counts and queues. Plain frames are no status messages. -/
theorem receive_quiet (hs : s.Fit node) {frame : Frame} (hf : frame.Sane) {what : Received}
    (h : s.receive m frame = .ok (s', m', what)) :
    s'.Fit node ∧ Quiet m m' ∧ ∀ content, what = .status content → ¬ frame.Plain := by
  unfold receive at h
  split at h
  · cases h
    exact ⟨hs, .refl m, fun content hc => by cases hc⟩
  split at h
  · rename_i hstatus
    cases h
    refine ⟨hs, .refl m, fun content _ hplain => ?_⟩
    obtain ⟨-, size, hb⟩ := hplain
    rw [hb] at hstatus
    cases hstatus
  split at h
  · cases h
    exact ⟨hs, .refl m, fun content hc => by cases hc⟩
  rename_i hcontrol
  have hkind : frame.kind = .data := by
    have hdata := (not_or.1 hcontrol).1
    simpa [Frame.isData] using hdata
  obtain ⟨stats, h1, h⟩ := Fault.bind_eq_ok.1 h
  have hcount : Quiet m { m with stats } := .ofStats (Stats.airing_of_map h1 fun _ => rfl)
  split at h
  · obtain ⟨stats', h2, h⟩ := Fault.bind_eq_ok.1 h
    cases h
    have hcount' : Quiet { m with stats } { m with stats := stats' } :=
      .ofStats (Stats.airing_recordDelivery h2)
    exact ⟨hs, hcount.trans hcount', fun content hc => by cases hc⟩
  · obtain ⟨⟨s₁, m₁, result⟩, h2, h⟩ := Fault.bind_eq_ok.1 h
    obtain ⟨hs₁, hquiet⟩ := enqueue_quiet hs (hf hkind) h2
    cases result <;> cases h <;> exact ⟨hs₁, hcount.trans hquiet, fun content hc => by cases hc⟩

end Station

theorem Traffic.arrive_does {node : Nat} {t t' : Traffic} {s s' : Station} {m m' : Medium}
    {destination : Option Nat} (hs : s.Fit node)
    (h : t.arrive s m node = .ok (t', s', m', destination)) :
    s'.Fit node ∧ Medium.Does (fun _ _ => False) (fun _ e => e = .arrival node) m m' := by
  obtain ⟨m₁, h1, h⟩ := arrive_cases h
  have hfirst : Medium.Does (fun _ _ => False) (fun _ e => e = .arrival node) m m₁ := by
    rcases h1 with rfl | ⟨gap, -, h1⟩
    · exact .refl m₁
    · exact .ofStep (.schedule rfl h1)
  rcases h with ⟨-, rfl, rfl⟩ | ⟨d, stats, result, -, h2, h3⟩
  · exact ⟨hs, hfirst⟩
  · obtain ⟨hs', hquiet⟩ := Station.send_quiet hs h3
    have hcount : Medium.Quiet m₁ { m₁ with stats } :=
      .ofStats (Stats.airing_of_map h2 fun _ => rfl)
    exact ⟨hs', hfirst.trans (Medium.Quiet.does (hcount.trans hquiet))⟩

/-! ## The network -/

namespace Network

open Medium (Does Quiet)

/-- Every station is fit for its node. -/
def Manned (n : Network) : Prop :=
  ∀ (node : Nat) (s : Station), n.stations[node]? = some s → s.Fit node

structure Works (sends : Nat → Frame → Prop) (plans : Time → Event → Prop) (n n' : Network) :
    Prop where
  manned : n'.Manned
  length : n'.stations.length = n.stations.length
  controller : n'.controller = n.controller
  does : Does sends plans n.medium n'.medium

variable {sends sends' : Nat → Frame → Prop} {plans plans' : Time → Event → Prop} {node : Nat}
  {n n' n'' : Network}

theorem Works.refl (hn : n.Manned) : Works sends plans n n := ⟨hn, rfl, rfl, .refl _⟩

theorem Works.trans (h : Works sends plans n n') (h' : Works sends plans n' n'') :
    Works sends plans n n'' :=
  ⟨h'.manned, h'.length.trans h.length, h'.controller.trans h.controller, h.does.trans h'.does⟩

theorem Works.mono (h : Works sends plans n n') (hs : ∀ a f, sends a f → sends' a f)
    (hp : ∀ t e, plans t e → plans' t e) : Works sends' plans' n n' :=
  ⟨h.manned, h.length, h.controller, h.does.mono hs hp⟩

theorem onStation_works {α : Type}
    {act : Station → Medium → Except Fault (Station × Medium × α)} {result : Option α}
    (hn : n.Manned) (h : n.onStation node act = .ok (n', result))
    (hact : ∀ s s' m r, s.Fit node → act s n.medium = .ok (s', m, r) →
      s'.Fit node ∧ Does sends plans n.medium m) : Works sends plans n n' := by
  rcases onStation_cases h with ⟨rfl, -, -⟩ | ⟨s, s', m, r, hs, ha, -, rfl⟩
  · exact .refl hn
  · obtain ⟨hs', hdoes⟩ := hact s s' m r (hn node s hs) ha
    exact ⟨Station.fit_of_set hn hs', List.length_set .., rfl, hdoes⟩

/-- What the stations that are given a slot may send, and how they go on. -/
def SlotSends (control : Bool) (members : List Nat) (sender : Nat) (frame : Frame) : Prop :=
  control = false ∧ ∃ node ∈ members, Station.Sends node sender frame

def SlotPlans (control : Bool) (members : List Nat) (slotEnd time : Time) (event : Event) : Prop :=
  control = false ∧ ∃ node ∈ members, Station.Plans node slotEnd time event

theorem grantAll_works {duration : Time} {control : Bool} {members : List Nat}
    {grants : List Grant} (hn : n.Manned) (ho : n.medium.events.Ordered)
    (h : n.grantAll duration control members = .ok (n', grants)) :
    Works (SlotSends control members) (SlotPlans control members (n.now + duration)) n n' := by
  induction members generalizing n grants with
  | nil =>
    cases h
    exact .refl hn
  | cons node members ih =>
    obtain ⟨⟨n₁, first⟩, h1, h⟩ := Fault.bind_eq_ok.1 h
    obtain ⟨⟨n₂, more⟩, h2, h⟩ := Fault.bind_eq_ok.1 h
    cases h
    obtain ⟨⟨n₃, sent⟩, h3, h1⟩ := Fault.bind_eq_ok.1 h1
    cases h1
    have hfirst : Works (fun a f => control = false ∧ Station.Sends node a f)
        (fun t e => control = false ∧ Station.Plans node (n.now + duration) t e) n n₁ :=
      onStation_works hn h3 fun s s' m r hs ha => Station.startSlot_does hs ho ha
    obtain ⟨ho₁, hnow⟩ := hfirst.does.clock ho
    have hrest := ih hfirst.manned ho₁ h2
    rw [show n₁.now = n.now from hnow] at hrest
    refine Works.trans
      (hfirst.mono (fun a f hs => ⟨hs.1, node, .head _, hs.2⟩) fun t e hp =>
        ⟨hp.1, node, .head _, hp.2⟩)
      (hrest.mono (fun a f hs => ?_) fun t e hp => ?_)
    · obtain ⟨hc, k, hk, hs⟩ := hs
      exact ⟨hc, k, .tail _ hk, hs⟩
    · obtain ⟨hc, k, hk, hp⟩ := hp
      exact ⟨hc, k, .tail _ hk, hp⟩

/-- The beginning of a slot: the stations that may send get it, and what follows is scheduled. -/
structure Opens (n : Network) (c : Controller) (slot : Nat) (n' : Network) : Prop where
  manned : n'.Manned
  length : n'.stations.length = n.stations.length
  controller : n'.controller = c
  does : ∃ m delay next, c.following slot = .ok (delay, next) ∧
    Does (SlotSends (Timing.isControlSlot c.nodeCount slot) (c.entitled slot))
      (SlotPlans (Timing.isControlSlot c.nodeCount slot) (c.entitled slot)
        (n.now + c.slotDuration slot)) n.medium m ∧
    m.schedule delay next = .ok n'.medium

theorem runSlot_opens {slot : Nat} {grants : List Grant} (hn : n.Manned)
    (ho : n.medium.events.Ordered) (hs : slot < n.controller.totalSlots)
    (h : n.runSlot slot = .ok (n', grants)) :
    n.Opens (n.controller.openSlot slot) slot n' := by
  rcases runSlot_cases h with ⟨hslot, -⟩ | ⟨n₁, delay, next, m, -, h1, h2, h3, rfl⟩
  · exact absurd hs (Nat.not_lt_of_le hslot)
  have hworks := grantAll_works (n := { n with controller := n.controller.openSlot slot }) hn ho h1
  exact ⟨hworks.manned, hworks.length, hworks.controller, n₁.medium, delay, next, h2, hworks.does, h3⟩

theorem runFrame_opens {grants : List Grant} (hn : n.Manned) (ho : n.medium.events.Ordered)
    (hs : 0 < n.controller.beginFrame.totalSlots) (h : n.runFrame = .ok (n', grants)) :
    n.Opens (n.controller.beginFrame.openSlot 0) 0 n' := by
  have hopens := runSlot_opens (n := { n with
    controller := n.controller.beginFrame
    medium := { n.medium with stats := { n.medium.stats with
      framesCompleted := n.controller.beginFrame.frameIndex - 1 } } }) hn ho hs h
  obtain ⟨m, delay, next, hfollowing, hdoes, hschedule⟩ := hopens.does
  have hcount : Quiet n.medium { n.medium with stats := { n.medium.stats with
      framesCompleted := n.controller.beginFrame.frameIndex - 1 } } := .ofStats rfl
  exact ⟨hopens.manned, hopens.length, hopens.controller, m, delay, next, hfollowing,
    hcount.does.trans hdoes, hschedule⟩

theorem continueSlot_works {slotEnd : Time} {control : Bool} {handled : Handled} (hn : n.Manned)
    (ho : n.medium.events.Ordered) (h : n.continueSlot node slotEnd control = .ok (n', handled)) :
    Works (fun a f => control = false ∧ n.now < slotEnd ∧ Station.Sends node a f)
      (fun t e => control = false ∧ n.now < slotEnd ∧ Station.Plans node slotEnd t e) n n' := by
  obtain ⟨⟨n₁, sent⟩, h1, h⟩ := Fault.bind_eq_ok.1 h
  cases h
  exact onStation_works hn h1 fun s s' m r hs ha => Station.continueSlot_does hs ho ha

theorem arrive_works {handled : Handled} (hn : n.Manned)
    (h : n.arrive node = .ok (n', handled)) :
    Works (fun _ _ => False) (fun _ e => e = .arrival node) n n' := by
  rcases arrive_cases h with ⟨rfl, -⟩ | ⟨s, s', m, t, destination, hs, ha, -, rfl⟩
  · exact .refl hn
  · obtain ⟨hs', hdoes⟩ := Traffic.arrive_does (hn node s hs) ha
    exact ⟨Station.fit_of_set hn hs', List.length_set .., rfl, hdoes⟩

/-- A frame that arrives is counted and queued, and the controller merges it if it is a status
message. -/
structure Takes (n : Network) (frame : Frame) (n' : Network) : Prop where
  manned : n'.Manned
  length : n'.stations.length = n.stations.length
  quiet : Quiet n.medium n'.medium
  controller : n'.controller = n.controller ∨
    (¬ frame.Plain ∧ ∃ content observer, n'.controller = (n.controller.merge content observer).1)

theorem deliver_takes {frame : Frame} {handled : Handled} (hn : n.Manned) (hf : frame.Sane)
    (h : n.deliver node frame = .ok (n', handled)) : n.Takes frame n' := by
  rcases deliver_cases h with ⟨rfl, -, -⟩ | ⟨s, s', m, what, hs, ha, hwhat⟩
  · exact ⟨hn, rfl, .refl _, .inl rfl⟩
  obtain ⟨hs', hquiet, hplain⟩ := Station.receive_quiet (hn node s hs) hf ha
  have hmanned := Station.fit_of_set hn hs'
  rcases hwhat with ⟨content, result, rfl, -, hmerge⟩ | ⟨-, rfl⟩
  · obtain ⟨-, stats, hstats, rfl⟩ := merge_cases hmerge
    have hairing : stats.airing = m.stats.airing := by
      rcases hstats with rfl | ⟨conflicts, hstats⟩
      · rfl
      · exact Stats.airing_of_map hstats fun _ => rfl
    have hcount : Quiet m { m with stats } := .ofStats hairing
    exact ⟨hmanned, List.length_set .., hquiet.trans hcount,
      .inr ⟨hplain content rfl, content, node, rfl⟩⟩
  · exact ⟨hmanned, List.length_set .., hquiet, .inl rfl⟩

end Network

end SlotNet
