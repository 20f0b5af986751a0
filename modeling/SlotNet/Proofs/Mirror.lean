import SlotNet.Proofs.Collision
import SlotNet.Proofs.Dispatch

/-!
# A run seen as an event loop

What the handlers of a run do to the queue, the channel and the counters is what an event loop that
broadcasts does (`Mirrors`), so that all that is known about its collisions holds of the run. `Extends`
says what a handler adds to the deliveries; `Mirrors.does` goes through its steps.
-/

namespace SlotNet

namespace Medium

/-- A node is in range of another one, and a signal takes so long. -/
def Reaches (m : Medium) (sender receiver : Nat) (delay : Time) : Prop :=
  sender ≠ receiver ∧ ∃ here there, m.positions[sender]? = some here ∧
    m.positions[receiver]? = some there ∧ ¬ m.channel.maxRange < Point.distance here there ∧
    delay = Timing.propagationDelay (Point.distance here there)

/-- The nodes that listen, each at its own address. -/
def Listens (nodes : Nat) (m : Medium) : Prop :=
  m.channel.endpoints = (List.range nodes).map fun node => ⟨node, Address.ofNode node⟩

/-- The delivery is one of a frame that may be sent, and the receiver is in range. -/
def Carries (m : Medium) (sends : Nat → Frame → Prop) (d : Delivery) : Prop :=
  ∃ sender receiver frame delay, sends sender frame ∧ m.Reaches sender receiver delay ∧
    d.time = m.now + delay ∧ d.event = .deliver receiver frame ∧
    d.sender = Address.ofNode sender ∧ d.receiver = Address.ofNode receiver

/-- Nothing is sent but this frame from this node. -/
def Only (node : Nat) (frame : Frame) (a : Nat) (f : Frame) : Prop := a = node ∧ f = frame

/-- What stays while an event is handled. -/
structure SamePlace (m m' : Medium) : Prop where
  now : m'.now = m.now
  positions : m'.positions = m.positions
  maxRange : m'.channel.maxRange = m.channel.maxRange
  endpoints : m'.channel.endpoints = m.channel.endpoints

variable {m m' m'' : Medium} {sends : Nat → Frame → Prop} {plans : Time → Event → Prop} {nodes : Nat}

theorem SamePlace.refl (m : Medium) : SamePlace m m := ⟨rfl, rfl, rfl, rfl⟩

theorem SamePlace.trans (h : SamePlace m m') (h' : SamePlace m' m'') : SamePlace m m'' :=
  ⟨h'.now.trans h.now, h'.positions.trans h.positions, h'.maxRange.trans h.maxRange,
    h'.endpoints.trans h.endpoints⟩

theorem SamePlace.reaches (h : SamePlace m m') {sender receiver : Nat} {delay : Time} :
    m'.Reaches sender receiver delay ↔ m.Reaches sender receiver delay := by
  unfold Reaches
  rw [h.positions, h.maxRange]

theorem SamePlace.carries (h : SamePlace m m') {d : Delivery} :
    m'.Carries sends d ↔ m.Carries sends d := by
  unfold Carries
  simp only [h.reaches, h.now]

theorem SamePlace.listens (h : SamePlace m m') (hm : m.Listens nodes) : m'.Listens nodes :=
  h.endpoints.trans hm

theorem Leads.samePlace (h : Leads plans m m') : SamePlace m m' :=
  ⟨h.now, h.positions, h.maxRange, h.endpoints⟩

theorem samePlace_transmit (hm : m.events.Ordered) {sender : Nat} {frame : Frame} {o : TransmitOutcome}
    (h : m.transmit sender frame = .ok (m', o)) : SamePlace m m' := by
  obtain ⟨⟨c, events, stats, o'⟩, ht, h⟩ := Fault.bind_eq_ok.1 h
  cases h
  rcases Channel.transmit_cases ht with
    ⟨rfl, rfl, -⟩ | ⟨endpoint, here, s, -, -, hs, rfl, rfl, -⟩
  · exact ⟨rfl, rfl, rfl, rfl⟩
  · exact ⟨(Channel.adds_spread hm hs).now, rfl, rfl, rfl⟩

theorem Step.samePlace (hm : m.events.Ordered) (h : Step sends plans m m') : SamePlace m m' := by
  cases h with
  | transmit hs h => exact samePlace_transmit hm h
  | _ => exact ⟨rfl, rfl, rfl, rfl⟩

theorem Does.samePlace (hm : m.events.Ordered) (h : Does sends plans m m') : SamePlace m m' := by
  induction h with
  | refl => exact .refl m
  | tail hbefore hstep ih => exact ih.trans (hstep.samePlace (Does.clock hm hbefore).1)

end Medium

namespace Loop

/-! ## The deliveries of a transmission -/

variable {l l' l'' : Loop} {sender : Endpoint} {here : Point} {frame : Frame} {positions : List Point}

theorem ids_deliveriesTo (l : Loop) (id : Nat) (listeners : List Endpoint) :
    (l.deliveriesTo sender here frame positions id listeners).map (·.id)
      = List.range' id (l.deliveriesTo sender here frame positions id listeners).length := by
  induction listeners generalizing id with
  | nil => rfl
  | cons listener rest ih =>
    unfold deliveriesTo
    cases Channel.hearingDistance l.channel.maxRange positions sender.node here listener with
    | none => exact ih id
    | some distance =>
      dsimp only
      rw [List.map_cons, ih, List.length_cons, List.range'_succ]

theorem mem_deliveriesTo {id : Nat} {listeners : List Endpoint} {d : Delivery}
    (h : d ∈ l.deliveriesTo sender here frame positions id listeners) :
    ∃ listener ∈ listeners, ∃ distance,
      Channel.hearingDistance l.channel.maxRange positions sender.node here listener = some distance ∧
      d.call = l.calls ∧ d.during = l.handling ∧
      d.time = l.events.now + Timing.propagationDelay distance ∧ d.sender = sender.address ∧
      d.receiver = listener.address ∧ d.event = .deliver listener.node frame := by
  induction listeners generalizing id with
  | nil => cases h
  | cons listener rest ih =>
    unfold deliveriesTo at h
    cases hd : Channel.hearingDistance l.channel.maxRange positions sender.node here listener with
    | none =>
      rw [hd] at h
      obtain ⟨x, hx, hrest⟩ := ih h
      exact ⟨x, .tail _ hx, hrest⟩
    | some distance =>
      rw [hd] at h
      rcases List.mem_cons.1 h with rfl | h
      · exact ⟨listener, .head _, distance, hd, rfl, rfl, rfl, rfl, rfl, rfl⟩
      · obtain ⟨x, hx, hrest⟩ := ih h
        exact ⟨x, .tail _ hx, hrest⟩

theorem exists_mem_deliveriesTo {id : Nat} {listeners : List Endpoint} {listener : Endpoint}
    (hl : listener ∈ listeners) {distance : Float}
    (hd : Channel.hearingDistance l.channel.maxRange positions sender.node here listener
      = some distance) :
    ∃ d ∈ l.deliveriesTo sender here frame positions id listeners,
      d.event = .deliver listener.node frame := by
  induction listeners generalizing id with
  | nil => cases hl
  | cons first rest ih =>
    unfold deliveriesTo
    rcases List.mem_cons.1 hl with rfl | hl
    · rw [hd]
      exact ⟨_, .head _, rfl⟩
    · cases Channel.hearingDistance l.channel.maxRange positions sender.node here first with
      | none => exact ih hl
      | some other =>
        exact (ih hl).imp fun d hd => ⟨.tail _ hd.1, hd.2⟩

theorem nextId_spread {underWay : List InFlight} {listeners : List Endpoint} {s s' : Channel.Spread}
    (hs : s.events.Ordered) (id : Nat)
    (h : Channel.spread l.channel.maxRange positions underWay sender here frame listeners s = .ok s') :
    s'.events.nextId
      = s.events.nextId + (l.deliveriesTo sender here frame positions id listeners).length := by
  induction listeners generalizing s id with
  | nil =>
    cases h
    rfl
  | cons listener rest ih =>
    obtain ⟨t, ht, h⟩ := Fault.bind_eq_ok.1 h
    unfold deliveriesTo
    cases hd : Channel.hearingDistance l.channel.maxRange positions sender.node here listener with
    | none =>
      simp only [hd] at ht
      cases ht
      exact ih hs id h
    | some distance =>
      simp only [hd] at ht
      obtain ⟨-, -, -, hord, -, hnext, -⟩ := Channel.deliver_ok hs ht
      rw [ih hord (id + 1) h, hnext, List.length_cons]
      omega

/-! ## The loop and the medium -/

/-- The loop has the events, the channel and the counters of the medium, and has written down every
delivery that waits. -/
structure Mirrors (l : Loop) (m : Medium) : Prop where
  sound : l.Sound
  resting : l.Resting
  events : l.events = m.events
  channel : l.channel = m.channel
  stats : l.stats = m.stats
  /-- Transmissions are numbered in their order, and each has one sender. -/
  paced : ∀ d ∈ l.deliveries, ∀ e ∈ l.deliveries, d.id < e.id →
    d.call ≤ e.call ∧ (d.call = e.call → d.sender = e.sender)
  known : ∀ e ∈ l.events.entries, e.event.isDelivery = true → ∃ d ∈ l.deliveries, d.id = e.id

/-- What a handler adds to the records. -/
structure Extends (sends : Nat → Frame → Prop) (m : Medium) (l l' : Loop) : Prop where
  handling : l'.handling = l.handling
  handed : l'.handed = l.handed
  nextId_le : l.events.nextId ≤ l'.events.nextId
  kept : ∀ d ∈ l.deliveries, d ∈ l'.deliveries
  new : ∀ d ∈ l'.deliveries, d ∈ l.deliveries ∨
    (l.events.nextId ≤ d.id ∧ d.during = l.handling ∧ m.Carries sends d)
  cancelled_mono : ∀ id ∈ l.cancelled, id ∈ l'.cancelled
  cancelled : ∀ id ∈ l'.cancelled, id ∈ l.cancelled ∨ ∃ e ∈ l'.events.entries, e.id = id
  present : ∀ e ∈ l.events.entries, ∃ x ∈ l'.events.entries, x.id = e.id

variable {m m' : Medium} {sends sends' : Nat → Frame → Prop} {plans : Time → Event → Prop} {nodes : Nat}

theorem Extends.refl (l : Loop) : Extends sends m l l :=
  ⟨rfl, rfl, Nat.le_refl _, fun _ => id, fun _ => .inl, fun _ => id, fun _ => .inl,
    fun e he => ⟨e, he, rfl⟩⟩

theorem Extends.trans (h : Extends sends m l l') (hm : m.SamePlace m')
    (h' : Extends sends m' l' l'') : Extends sends m l l'' where
  handling := h'.handling.trans h.handling
  handed := h'.handed.trans h.handed
  nextId_le := h.nextId_le.trans h'.nextId_le
  kept d hd := h'.kept d (h.kept d hd)
  new d hd := by
    rcases h'.new d hd with hd | ⟨hid, hduring, hcarries⟩
    · exact h.new d hd
    · exact .inr ⟨h.nextId_le.trans hid, hduring.trans h.handling, hm.carries.1 hcarries⟩
  cancelled_mono id hid := h'.cancelled_mono id (h.cancelled_mono id hid)
  cancelled id hid := by
    rcases h'.cancelled id hid with hid | hpresent
    · rcases h.cancelled id hid with hid | ⟨e, he, rfl⟩
      · exact .inl hid
      · exact .inr (h'.present e he)
    · exact .inr hpresent
  present e he := by
    obtain ⟨x, hx, hid⟩ := h.present e he
    obtain ⟨y, hy, hid'⟩ := h'.present x hx
    exact ⟨y, hy, hid'.trans hid⟩

theorem Extends.mono (h : Extends sends m l l') (hs : ∀ a f, sends a f → sends' a f) :
    Extends sends' m l l' := by
  refine { h with new := fun d hd => (h.new d hd).imp_right ?_ }
  rintro ⟨hid, hduring, sender, receiver, frame, delay, hsend, hrest⟩
  exact ⟨hid, hduring, sender, receiver, frame, delay, hs _ _ hsend, hrest⟩

theorem Mirrors.count (h : l.Mirrors m) {stats : Stats}
    (hc : stats.collisions = m.stats.collisions)
    (hd : stats.cancelledDeliveries = m.stats.cancelledDeliveries) :
    ({ l with stats }).Mirrors { m with stats } ∧ Extends sends m l { l with stats } := by
  rw [← h.stats] at hc hd
  have hstep : l.step (.count stats) = some { l with stats } := if_pos ⟨hc, hd⟩
  obtain ⟨hsound, hresting⟩ := h.sound.step h.resting hstep
  exact ⟨⟨hsound, hresting, h.events, h.channel, rfl, h.paced, h.known⟩, { Extends.refl l with }⟩

theorem Mirrors.scheduleAt (h : l.Mirrors m) {time : Time} {event : Event}
    (hevent : event.isDelivery = false) :
    let events := (m.events.scheduleAt time event).2
    ({ l with events }).Mirrors { m with events } ∧ Extends sends m l { l with events } := by
  have hsound := h.sound.scheduleAt time event
  rw [h.events] at hsound
  refine ⟨⟨hsound, h.resting, rfl, h.channel, h.stats, h.paced, fun e he hd => ?_⟩,
    { Extends.refl l with
      nextId_le := h.events ▸ Nat.le_succ _
      cancelled := fun _ => .inl
      present := fun e he => ?_ }⟩
  · rcases EventQueue.mem_scheduleAt.1 he with rfl | he
    · exact absurd hd (by rw [EventQueue.entryAt, hevent]; exact Bool.false_ne_true)
    · exact h.known e (h.events ▸ he) hd
  · exact ⟨e, EventQueue.mem_scheduleAt.2 (.inr (h.events ▸ he)), rfl⟩

theorem hearingDistance_some {maxRange distance : Float} {node : Nat} {listener : Endpoint}
    (h : Channel.hearingDistance maxRange positions node here listener = some distance) :
    node ≠ listener.node ∧ ∃ there, positions[listener.node]? = some there ∧
      ¬ maxRange < Point.distance here there ∧ distance = Point.distance here there := by
  unfold Channel.hearingDistance at h
  split at h
  · cases h
  · rename_i hne
    split at h
    · cases h
    · rename_i there hthere
      dsimp only at h
      split at h
      · cases h
      · rename_i hrange
        cases h
        exact ⟨fun he => hne he.symm, there, hthere, hrange, rfl⟩

theorem Mirrors.mem_deliveriesOf (h : l.Mirrors m) (hm : m.Listens nodes) {node : Nat}
    (hsend : sends node frame) {d : Delivery} (hd : d ∈ l.deliveriesOf node frame m.positions) :
    l.events.nextId ≤ d.id ∧ d.call = l.calls ∧ d.during = l.handling ∧
      d.sender = Address.ofNode node ∧ m.Carries sends d := by
  unfold deliveriesOf at hd
  rw [h.channel] at hd
  cases hf : m.channel.endpoints.find? (·.node == node) with
  | none =>
    rw [hf] at hd
    cases hd
  | some endpoint =>
    cases hp : m.positions[node]? with
    | none =>
      rw [hf, hp] at hd
      cases hd
    | some here =>
      simp only [hf, hp] at hd
      have haddress : ∀ e ∈ m.channel.endpoints, e.address = Address.ofNode e.node := by
        rw [hm]
        intro e he
        obtain ⟨k, -, rfl⟩ := List.mem_map.1 he
        rfl
      have hnode : endpoint.node = node := by simpa using List.find?_some hf
      have hid : d.id ∈ List.range' l.events.nextId _ :=
        ids_deliveriesTo l l.events.nextId m.channel.endpoints ▸ List.mem_map_of_mem hd
      obtain ⟨listener, hl, distance, hdist, hcall, hduring, htime, hsender, hreceiver, hevent⟩ :=
        mem_deliveriesTo hd
      obtain ⟨hne, there, hthere, hrange, rfl⟩ := hearingDistance_some hdist
      have hfrom : d.sender = Address.ofNode node := by
        rw [hsender, haddress endpoint (List.mem_of_find?_eq_some hf), hnode]
      rw [hnode] at hne
      rw [h.channel] at hrange
      rw [h.events] at htime
      exact ⟨(List.mem_range'_1.1 hid).1, hcall, hduring, hfrom, node, listener.node, frame, _, hsend,
        ⟨hne, here, there, hp, hthere, hrange, rfl⟩, htime, hevent, hfrom,
        hreceiver.trans (haddress listener hl)⟩

theorem Mirrors.exists_mem_deliveriesOf (h : l.Mirrors m) (hm : m.Listens nodes) {node receiver : Nat}
    {delay : Time} (hn : node < nodes) (hr : receiver < nodes)
    (hreaches : m.Reaches node receiver delay) (frame : Frame) :
    ∃ d ∈ l.deliveriesOf node frame m.positions, d.event = .deliver receiver frame := by
  obtain ⟨hne, here, there, hhere, hthere, hrange, -⟩ := hreaches
  have hfind := Channel.find?_listeners hn
  rw [← hm] at hfind
  have hmem : (⟨receiver, Address.ofNode receiver⟩ : Endpoint) ∈ m.channel.endpoints := by
    rw [hm]
    exact List.mem_map.2 ⟨receiver, List.mem_range.2 hr, rfl⟩
  unfold deliveriesOf
  rw [h.channel, hhere, hfind]
  rw [← h.channel] at hrange
  exact exists_mem_deliveriesTo hmem (Channel.hearingDistance_eq hne.symm hthere hrange)

theorem Mirrors.queue_transmit (h : l.Mirrors m) {node : Nat} {c : Channel}
    {events : EventQueue Event} {stats : Stats} {o : TransmitOutcome}
    (ht : m.channel.transmit node frame m.events m.positions m.stats = .ok (c, events, stats, o)) :
    m.events.nextId ≤ events.nextId ∧ (∀ e ∈ m.events.entries, ∃ x ∈ events.entries, x.id = e.id) ∧
      ∀ e ∈ events.entries, (∃ x ∈ m.events.entries, x.id = e.id ∧ x.event = e.event) ∨
        ∃ d ∈ l.deliveriesOf node frame m.positions, d.id = e.id := by
  have ho : m.events.Ordered := h.events ▸ h.sound.ordered
  rcases Channel.transmit_cases ht with
    ⟨-, rfl, -⟩ | ⟨endpoint, here, s, hf, hp, hs, -, rfl, -⟩
  · exact ⟨Nat.le_refl _, fun e he => ⟨e, he, rfl⟩, fun e he => .inl ⟨e, he, rfl, rfl⟩⟩
  · have hadds := Channel.adds_spread
      (s := ⟨m.events, m.stats, [], ⟨0, 0⟩⟩) ho hs
    refine ⟨hadds.nextId_le, fun e he => ?_, fun e he => ?_⟩
    · obtain ⟨b, hb, -⟩ := hadds.kept e he
      exact ⟨_, hb, rfl⟩
    · rcases hadds.origin e he with ⟨x, hx, b, rfl, -⟩ | ⟨hid, -⟩
      · exact .inl ⟨x, hx, rfl, rfl⟩
      · right
        rw [← h.channel] at hs
        have hnext := nextId_spread (s := ⟨m.events, m.stats, [], ⟨0, 0⟩⟩) ho m.events.nextId hs
        have hlt := hadds.ordered.lt_nextId e he
        rw [hnext] at hlt
        have hmem := List.mem_range'_1.2 ⟨hid, hlt⟩
        rw [← ids_deliveriesTo] at hmem
        obtain ⟨d, hd, hde⟩ := List.mem_map.1 hmem
        refine ⟨d, ?_, hde⟩
        unfold deliveriesOf
        rw [h.channel, h.events, hf, hp]
        rw [h.channel] at hd
        exact hd

theorem Mirrors.transmit (h : l.Mirrors m) (hm : m.Listens nodes) {node : Nat}
    {o : TransmitOutcome} (hsend : sends node frame) (ht : m.transmit node frame = .ok (m', o)) :
    ∃ l', l'.Mirrors m' ∧ Extends sends m l l' ∧
      (node < nodes → ∀ receiver < nodes, ∀ delay, m.Reaches node receiver delay →
        ∃ d ∈ l'.deliveries, l.events.nextId ≤ d.id ∧ d.event = .deliver receiver frame) := by
  obtain ⟨⟨c, events, stats, o'⟩, htransmit, hm'⟩ := Fault.bind_eq_ok.1 ht
  cases hm'
  have hstep : l.step (.transmit node frame m.positions) = some { l with
      channel := c
      events
      stats
      calls := l.calls + 1
      deliveries := l.deliveries ++ l.deliveriesOf node frame m.positions
      cancelled := l.cancelled ++ marks events
      reached := l.reached + o.reached } := by
    rw [step, h.channel, h.events, h.stats, htransmit]
  obtain ⟨hsound, hresting⟩ := h.sound.step h.resting hstep
  obtain ⟨hnext, hpresent, horigin⟩ := h.queue_transmit htransmit
  refine ⟨_, ⟨hsound, hresting, rfl, rfl, rfl, ?paced, ?known⟩,
    ⟨rfl, rfl, h.events ▸ hnext, fun d hd => List.mem_append_left _ hd, ?new,
      fun id hid => List.mem_append_left _ hid, ?cancelled, h.events ▸ hpresent⟩, ?reached⟩
  case paced =>
    -- an old delivery and a new one are of different transmissions
    intro d hd e he hlt
    rcases List.mem_append.1 hd with hd | hd <;> rcases List.mem_append.1 he with he | he
    · exact h.paced d hd e he hlt
    · have hcall := h.resting d hd
      obtain ⟨-, hcall', -⟩ := h.mem_deliveriesOf hm hsend he
      omega
    · obtain ⟨hid, -⟩ := h.mem_deliveriesOf hm hsend hd
      have hlt' := h.sound.delivery_lt e he
      omega
    · obtain ⟨-, hcall, -, hsender, -⟩ := h.mem_deliveriesOf hm hsend hd
      obtain ⟨-, hcall', -, hsender', -⟩ := h.mem_deliveriesOf hm hsend he
      exact ⟨Nat.le_of_eq (hcall.trans hcall'.symm), fun _ => hsender.trans hsender'.symm⟩
  case known =>
    intro e he hd
    rcases horigin e he with ⟨x, hx, hid, hevent⟩ | ⟨d, hmem, hid⟩
    · obtain ⟨d, hmem, hd'⟩ := h.known x (h.events ▸ hx) (hevent ▸ hd)
      exact ⟨d, List.mem_append_left _ hmem, hd'.trans hid⟩
    · exact ⟨d, List.mem_append_right _ hmem, hid⟩
  case new =>
    intro d hd
    rcases List.mem_append.1 hd with hd | hd
    · exact .inl hd
    · obtain ⟨hid, -, hduring, -, hcarries⟩ := h.mem_deliveriesOf hm hsend hd
      exact .inr ⟨hid, hduring, hcarries⟩
  case cancelled =>
    intro id hid
    rcases List.mem_append.1 hid with hid | hid
    · exact .inl hid
    · obtain ⟨e, he, -, hid⟩ := mem_marks.1 hid
      exact .inr ⟨e, he, hid⟩
  case reached =>
    intro hnode receiver hreceiver delay hreaches
    obtain ⟨d, hd, hevent⟩ := h.exists_mem_deliveriesOf hm hnode hreceiver hreaches frame
    exact ⟨d, List.mem_append_right _ hd, (h.mem_deliveriesOf hm hsend hd).1, hevent⟩

/-! ## What the handlers do -/

theorem Mirrors.step (h : l.Mirrors m) (hm : m.Listens nodes)
    (hplans : ∀ t e, plans t e → e.isDelivery = false) (hstep : Medium.Step sends plans m m') :
    ∃ l', l'.Mirrors m' ∧ Extends sends m l l' := by
  cases hstep with
  | count hair =>
    simp only [Stats.airing, Prod.mk.injEq] at hair
    exact ⟨_, h.count hair.1 hair.2.1⟩
  | takeUid => exact ⟨l, ⟨h.sound, h.resting, h.events, h.channel, h.stats, h.paced, h.known⟩, .refl l⟩
  | scheduleAt hplan => exact ⟨_, h.scheduleAt (hplans _ _ hplan)⟩
  | transmit hsend ht =>
    obtain ⟨l', hl', hextends, -⟩ := h.transmit hm hsend ht
    exact ⟨l', hl', hextends⟩

theorem Mirrors.does (h : l.Mirrors m) (hm : m.Listens nodes)
    (hplans : ∀ t e, plans t e → e.isDelivery = false) (hdoes : Medium.Does sends plans m m') :
    ∃ l', l'.Mirrors m' ∧ Extends sends m l l' := by
  induction hdoes with
  | refl => exact ⟨l, h, .refl l⟩
  | tail hbefore hstep ih =>
    obtain ⟨l₁, hl₁, hextends⟩ := ih
    have hplace := Medium.Does.samePlace (h.events ▸ h.sound.ordered) hbefore
    obtain ⟨l₂, hl₂, hextends'⟩ := hl₁.step (hplace.listens hm) hplans hstep
    exact ⟨l₂, hl₂, hextends.trans hplace hextends'⟩

/-- A broadcast reaches every node in range. -/
theorem Mirrors.broadcasts (h : l.Mirrors m) (hm : m.Listens nodes) {node : Nat}
    (hb : m.Broadcasts node m') :
    ∃ l' frame, l'.Mirrors m' ∧ frame.kind = .reservation ∧ frame.transmitter = Address.ofNode node ∧
      Extends (Medium.Only node frame) m l l' ∧
      (node < nodes → ∀ receiver < nodes, ∀ delay, m.Reaches node receiver delay →
        ∃ d ∈ l'.deliveries, l.events.nextId ≤ d.id ∧ d.event = .deliver receiver frame) := by
  obtain ⟨stats, stats', frame, m₁, o, hkind, htransmitter, hair, hsend, hair', rfl⟩ := hb
  simp only [Stats.airing, Prod.mk.injEq] at hair hair'
  have hplace : m.SamePlace { m with nextUid := m.nextUid + 1, stats } := ⟨rfl, rfl, rfl, rfl⟩
  obtain ⟨hl₁, hextends₁⟩ : ({ l with stats }).Mirrors { m with stats } ∧
      Extends (Medium.Only node frame) m l { l with stats } := h.count hair.1 hair.2.1
  have hl₁' : ({ l with stats } : Loop).Mirrors { m with nextUid := m.nextUid + 1, stats } :=
    ⟨hl₁.sound, hl₁.resting, hl₁.events, hl₁.channel, hl₁.stats, hl₁.paced, hl₁.known⟩
  have hself : Medium.Only node frame node frame := ⟨rfl, rfl⟩
  obtain ⟨l₂, hl₂, hextends₂, hreached⟩ := hl₁'.transmit hm hself hsend
  have hplace₂ := Medium.samePlace_transmit (hl₁'.events ▸ hl₁'.sound.ordered) hsend
  obtain ⟨hl₃, hextends₃⟩ : ({ l₂ with stats := stats' }).Mirrors { m₁ with stats := stats' } ∧
      Extends (Medium.Only node frame) m₁ l₂ { l₂ with stats := stats' } :=
    hl₂.count hair'.1 hair'.2.1
  exact ⟨_, frame, hl₃, hkind, htransmitter,
    (hextends₁.trans hplace hextends₂).trans (hplace.trans hplace₂) hextends₃,
    fun hn receiver hr delay hreaches => hreached hn receiver hr delay (hplace.reaches.2 hreaches)⟩

theorem Mirrors.handle (h : l.Mirrors m) {e : Entry Event} {events : EventQueue Event}
    (hhead : m.events.settle.entries.head? = some e)
    (hpop : m.events.pop = (some (e.time, e.event), events)) (hpending : e.cancelled = false) :
    ({ l with events, handling := (e.key : WithBot Key), handed := l.handed ++ [e] }).Mirrors
      { m with events } := by
  have hstep : l.step .handle = some { l with
      events, handling := (e.key : WithBot Key), handed := l.handed ++ [e] } := by
    rw [Loop.step, h.events, hhead, EventQueue.pop_peekTime, hpop]
    obtain ⟨time, id, event, cancelled⟩ := e
    cases hpending
    rfl
  obtain ⟨hsound, hresting⟩ := h.sound.step h.resting hstep
  obtain ⟨x, -, -, -, -, -, -, -, hrest, -⟩ :=
    EventQueue.pop_some (h.events ▸ h.sound.ordered : m.events.Ordered) hpop
  refine ⟨hsound, hresting, rfl, h.channel, h.stats, h.paced, fun y hy hd => ?_⟩
  exact h.known y (h.events ▸ ((hrest y).1 hy).1) hd

end Loop

end SlotNet
