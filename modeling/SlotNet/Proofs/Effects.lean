import Mathlib.Logic.Relation
import SlotNet.Proofs.Broadcasting
import SlotNet.Proofs.Medium

/-!
# What handling an event leaves behind

A handler counts, takes numbers for frames, schedules events and transmits; `Does` is a sequence of
such steps, given what may be sent and what may be scheduled. `Does.leads` says what that leaves in the
queue: the deliveries that were under way may be marked, and nothing else that waits is touched.
-/

namespace SlotNet

def Event.isDelivery : Event → Bool
  | .deliver _ _ => true
  | _ => false

/-- A frame that is data is plain. -/
def Frame.Sane (f : Frame) : Prop := f.kind = .data → f.Plain

def Event.Sane : Event → Prop
  | .deliver _ frame => frame.Sane
  | _ => True

/-! ## A transmission -/

theorem Entry.cancelIf_cancelIf {ε : Type} (e : Entry ε) (b b' : Bool) :
    (e.cancelIf b).cancelIf b' = e.cancelIf (b || b') := by
  simp only [Entry.cancelIf, Bool.or_assoc]

theorem Entry.cancelIf_false {ε : Type} (e : Entry ε) : e.cancelIf false = e := by
  simp only [Entry.cancelIf, Bool.or_false]

namespace Channel

/-- What a transmission does to the events: it marks some of those under way, and adds deliveries. -/
structure Adds (frame : Frame) (underWay : List InFlight) (s s' : Spread) : Prop where
  ordered : s'.events.Ordered
  now : s'.events.now = s.events.now
  nextId_le : s.events.nextId ≤ s'.events.nextId
  kept : ∀ x ∈ s.events.entries, ∃ b, x.cancelIf b ∈ s'.events.entries ∧
    (b = true → InFlight.numbered underWay x.id = true)
  origin : ∀ e ∈ s'.events.entries,
    (∃ x ∈ s.events.entries, ∃ b, e = x.cancelIf b ∧
      (b = true → InFlight.numbered underWay x.id = true)) ∨
    (s.events.nextId ≤ e.id ∧ ∃ receiver, e.event = .deliver receiver frame)
  sent : ∀ t ∈ s'.sent, t ∈ s.sent ∨
    (s.events.nextId ≤ t.delivery ∧ t.delivery < s'.events.nextId)
  reservations : s'.stats.reservationMessages = s.stats.reservationMessages

variable {frame : Frame} {underWay : List InFlight} {s s' s'' : Spread}

theorem Adds.refl (hs : s.events.Ordered) : Adds frame underWay s s where
  ordered := hs
  now := rfl
  nextId_le := Nat.le_refl _
  kept x hx := ⟨false, by rwa [Entry.cancelIf_false], nofun⟩
  origin e he := .inl ⟨e, he, false, e.cancelIf_false.symm, nofun⟩
  sent _ ht := .inl ht
  reservations := rfl

theorem Adds.trans (h : Adds frame underWay s s') (h' : Adds frame underWay s' s'') :
    Adds frame underWay s s'' where
  ordered := h'.ordered
  now := h'.now.trans h.now
  nextId_le := h.nextId_le.trans h'.nextId_le
  kept x hx := by
    obtain ⟨b, hb, hnum⟩ := h.kept x hx
    obtain ⟨b', hb', hnum'⟩ := h'.kept _ hb
    rw [Entry.cancelIf_cancelIf] at hb'
    refine ⟨b || b', hb', fun hor => ?_⟩
    rcases Bool.or_eq_true_iff.1 hor with ht | ht
    · exact hnum ht
    · exact hnum' ht
  origin e he := by
    rcases h'.origin e he with ⟨x, hx, b, rfl, hnum⟩ | ⟨hid, hd⟩
    · rcases h.origin x hx with ⟨y, hy, b', rfl, hnum'⟩ | ⟨hid, hd⟩
      · refine .inl ⟨y, hy, b' || b, Entry.cancelIf_cancelIf y b' b, fun hor => ?_⟩
        rcases Bool.or_eq_true_iff.1 hor with ht | ht
        · exact hnum' ht
        · exact hnum ht
      · exact .inr ⟨hid, hd⟩
    · exact .inr ⟨h.nextId_le.trans hid, hd⟩
  sent t ht := by
    rcases h'.sent t ht with ht | ⟨hle, hlt⟩
    · rcases h.sent t ht with ht | ⟨hle, hlt⟩
      · exact .inl ht
      · exact .inr ⟨hle, Nat.lt_of_lt_of_le hlt h'.nextId_le⟩
    · exact .inr ⟨h.nextId_le.trans hle, hlt⟩
  reservations := h'.reservations.trans h.reservations

theorem adds_deliver {sender : Address} {listener : Endpoint} {distance : Float}
    (hs : s.events.Ordered) (h : deliver underWay sender frame listener distance s = .ok s') :
    Adds frame underWay s s' := by
  obtain ⟨hsent, -, hstats, hord, hnow, hnext, hmem⟩ := deliver_ok hs h
  have hsub : ∀ id, InFlight.numbered (overlapping underWay sender listener.address) id = true →
      InFlight.numbered underWay id = true := by
    intro id hid
    obtain ⟨t, ht, rfl⟩ := InFlight.numbered_iff.1 hid
    exact InFlight.numbered_iff.2 ⟨t, (List.mem_filter.1 ht).1, rfl⟩
  refine ⟨hord, hnow, by omega, fun x hx => ?_, fun e he => ?_, fun t ht => ?_, by rw [hstats]; rfl⟩
  · exact ⟨_, (hmem _).2 (.inr ⟨x, hx, rfl⟩), hsub x.id⟩
  · rcases (hmem e).1 he with rfl | ⟨x, hx, rfl⟩
    · exact .inr ⟨Nat.le_refl _, listener.node, rfl⟩
    · exact .inl ⟨x, hx, _, rfl, hsub x.id⟩
  · rw [hsent] at ht
    rcases List.mem_append.1 ht with ht | ht
    · exact .inl ht
    · rw [List.mem_singleton.1 ht, hnext]
      exact .inr ⟨Nat.le_refl _, Nat.lt_succ_self _⟩

theorem adds_spread {maxRange : Float} {positions : List Point} {sender : Endpoint} {here : Point}
    {listeners : List Endpoint} (hs : s.events.Ordered)
    (h : spread maxRange positions underWay sender here frame listeners s = .ok s') :
    Adds frame underWay s s' := by
  induction listeners generalizing s with
  | nil =>
    cases h
    exact .refl hs
  | cons listener listeners ih =>
    obtain ⟨t, ht, h⟩ := Fault.bind_eq_ok.1 h
    cases hd : hearingDistance maxRange positions sender.node here listener with
    | none =>
      simp only [hd] at ht
      cases ht
      exact ih hs h
    | some distance =>
      simp only [hd] at ht
      have hfirst := adds_deliver hs ht
      exact hfirst.trans (ih hfirst.ordered h)

/-- A transmission from a node that listens and has a position goes to every listener in turn; one from
any other node does nothing. -/
theorem transmit_cases {c c' : Channel} {sender : Nat} {events events' : EventQueue Event}
    {positions : List Point} {stats stats' : Stats} {o : TransmitOutcome}
    (h : c.transmit sender frame events positions stats = .ok (c', events', stats', o)) :
    (c' = c ∧ events' = events ∧ stats' = stats) ∨
      ∃ endpoint here s, c.endpoints.find? (·.node == sender) = some endpoint ∧
        positions[sender]? = some here ∧
        spread c.maxRange positions
          (c.inFlight.filter fun t => !events.isExpired t.delivery) endpoint here frame c.endpoints
          ⟨events, stats, [], ⟨0, 0⟩⟩ = .ok s ∧
        c' = { c with
          inFlight := (c.inFlight.filter fun t => !events.isExpired t.delivery) ++ s.sent } ∧
        events' = s.events ∧ stats' = s.stats := by
  unfold transmit at h
  cases hf : c.endpoints.find? (·.node == sender) with
  | none =>
    rw [hf] at h
    cases h
    exact .inl ⟨rfl, rfl, rfl⟩
  | some endpoint =>
    cases hp : positions[sender]? with
    | none =>
      rw [hf, hp] at h
      cases h
      exact .inl ⟨rfl, rfl, rfl⟩
    | some here =>
      simp only [hf, hp] at h
      obtain ⟨s, hs, h⟩ := Fault.bind_eq_ok.1 h
      cases h
      exact .inr ⟨endpoint, here, s, rfl, rfl, hs, rfl, rfl, rfl⟩

end Channel

/-! ## Steps -/

/-- What is counted about the air. -/
def Stats.airing (s : Stats) : Nat × Nat × Nat :=
  (s.collisions, s.cancelledDeliveries, s.reservationMessages)

namespace Medium

/-- One step of a handler. -/
inductive Step (sends : Nat → Frame → Prop) (plans : Time → Event → Prop) :
    Medium → Medium → Prop
  /-- Something is counted that has nothing to do with the air. -/
  | count {m : Medium} {stats : Stats} (h : stats.airing = m.stats.airing) :
    Step sends plans m { m with stats }
  | takeUid {m : Medium} : Step sends plans m m.takeUid.2
  | scheduleAt {m : Medium} {time : Time} {event : Event} (hp : plans (max time m.now) event) :
    Step sends plans m { m with events := (m.events.scheduleAt time event).2 }
  | transmit {m m' : Medium} {sender : Nat} {frame : Frame} {o : TransmitOutcome}
    (hs : sends sender frame) (h : m.transmit sender frame = .ok (m', o)) : Step sends plans m m'

/-- Some steps of a handler. -/
def Does (sends : Nat → Frame → Prop) (plans : Time → Event → Prop) : Medium → Medium → Prop :=
  Relation.ReflTransGen (Step sends plans)

variable {sends sends' : Nat → Frame → Prop} {plans plans' : Time → Event → Prop}
  {m m' m'' : Medium}

theorem max_add_now (m : Medium) (delay : Time) :
    max (m.events.now + delay) m.now = m.now + delay := Nat.max_eq_left (Nat.le_add_right _ _)

theorem Step.schedule {delay : Time} {event : Event} (hp : plans (m.now + delay) event)
    (h : m.schedule delay event = .ok m') : Step sends plans m m' := by
  rw [schedule_ok h]
  refine .scheduleAt ?_
  rwa [max_add_now]

theorem Does.refl (m : Medium) : Does sends plans m m := Relation.ReflTransGen.refl

theorem Does.trans (h : Does sends plans m m') (h' : Does sends plans m' m'') :
    Does sends plans m m'' := Relation.ReflTransGen.trans h h'

theorem Does.ofStep (h : Step sends plans m m') : Does sends plans m m' := .single h

theorem Step.mono (hs : ∀ n f, sends n f → sends' n f) (hp : ∀ t e, plans t e → plans' t e)
    (h : Step sends plans m m') : Step sends' plans' m m' := by
  cases h with
  | count h => exact .count h
  | takeUid => exact .takeUid
  | scheduleAt hplan => exact .scheduleAt (hp _ _ hplan)
  | transmit hsend h => exact .transmit (hs _ _ hsend) h

theorem Does.mono (h : Does sends plans m m') (hs : ∀ n f, sends n f → sends' n f)
    (hp : ∀ t e, plans t e → plans' t e) : Does sends' plans' m m' :=
  Relation.ReflTransGen.mono (fun _ _ hstep => Step.mono hs hp hstep) _ _ h

/-- Nothing is sent and nothing is scheduled. -/
abbrev Quiet : Medium → Medium → Prop := Does (fun _ _ => False) fun _ _ => False

theorem Quiet.does (h : Quiet m m') : Does sends plans m m' :=
  Does.mono h (fun _ _ => False.elim) fun _ _ => False.elim

theorem Quiet.ofStats {stats : Stats} (h : stats.airing = m.stats.airing) :
    Quiet m { m with stats } := .ofStep (.count h)

theorem Step.clock (hm : m.events.Ordered) (h : Step sends plans m m') :
    m'.events.Ordered ∧ m'.now = m.now := by
  cases h with
  | count h => exact ⟨hm, rfl⟩
  | takeUid => exact ⟨hm, rfl⟩
  | scheduleAt hp => exact ⟨hm.scheduleAt _ _, rfl⟩
  | transmit hs h =>
    obtain ⟨⟨c, events, stats, o'⟩, ht, h⟩ := Fault.bind_eq_ok.1 h
    cases h
    rcases Channel.transmit_cases ht with ⟨-, rfl, -⟩ | ⟨endpoint, here, s, -, -, hs, -, rfl, -⟩
    · exact ⟨hm, rfl⟩
    · have hadds := Channel.adds_spread hm hs
      exact ⟨hadds.ordered, hadds.now⟩

theorem Does.clock (hm : m.events.Ordered) (h : Does sends plans m m') :
    m'.events.Ordered ∧ m'.now = m.now := by
  induction h with
  | refl => exact ⟨hm, rfl⟩
  | tail _ hstep ih =>
    obtain ⟨ho, hnow⟩ := hstep.clock ih.1
    exact ⟨ho, hnow.trans ih.2⟩

theorem Does.reservations (hm : m.events.Ordered) (h : Does sends plans m m') :
    m'.stats.reservationMessages = m.stats.reservationMessages := by
  induction h with
  | refl => rfl
  | tail hbefore hstep ih =>
    refine Eq.trans ?_ ih
    have ho := (Does.clock hm hbefore).1
    cases hstep with
    | count h => exact congrArg (fun a => a.2.2) h
    | takeUid => rfl
    | scheduleAt hp => rfl
    | transmit hs h =>
      obtain ⟨⟨c, events, stats, o'⟩, ht, h⟩ := Fault.bind_eq_ok.1 h
      cases h
      rcases Channel.transmit_cases ht with ⟨-, -, rfl⟩ | ⟨endpoint, here, s, -, -, hs, -, -, rfl⟩
      · rfl
      · exact (Channel.adds_spread ho hs).reservations

/-! ## What is left -/

/-- Only deliveries have numbers that are under way, and what arrives is sane. -/
structure Traced (m : Medium) : Prop where
  ordered : m.events.Ordered
  inFlight_lt : ∀ t ∈ m.channel.inFlight, t.delivery < m.events.nextId
  numbered : ∀ e ∈ m.events.entries, InFlight.numbered m.channel.inFlight e.id = true →
    e.event.isDelivery = true
  sane : ∀ e ∈ m.events.entries, e.event.Sane

/-- What a handler leaves. Nothing happens to the events that are no deliveries, and there are new ones
as planned. -/
structure Leads (plans : Time → Event → Prop) (m m' : Medium) : Prop where
  traced : m'.Traced
  now : m'.now = m.now
  nextId_le : m.events.nextId ≤ m'.events.nextId
  kept : ∀ e ∈ m.events.entries, e.event.isDelivery = false → e ∈ m'.events.entries
  other : ∀ e ∈ m'.events.entries, e.event.isDelivery = false → e ∈ m.events.entries ∨
    (m.events.nextId ≤ e.id ∧ e.cancelled = false ∧ plans e.time e.event)
  positions : m'.positions = m.positions
  maxRange : m'.channel.maxRange = m.channel.maxRange
  endpoints : m'.channel.endpoints = m.channel.endpoints

theorem Leads.refl (hm : m.Traced) : Leads plans m m :=
  ⟨hm, rfl, Nat.le_refl _, fun _ he _ => he, fun _ he _ => .inl he, rfl, rfl, rfl⟩

theorem Leads.trans (h : Leads plans m m') (h' : Leads plans m' m'') : Leads plans m m'' where
  traced := h'.traced
  now := h'.now.trans h.now
  nextId_le := h.nextId_le.trans h'.nextId_le
  kept e he hd := h'.kept e (h.kept e he hd) hd
  other e he hd := by
    rcases h'.other e he hd with he | ⟨hid, hp⟩
    · exact h.other e he hd
    · exact .inr ⟨h.nextId_le.trans hid, hp⟩
  positions := h'.positions.trans h.positions
  maxRange := h'.maxRange.trans h.maxRange
  endpoints := h'.endpoints.trans h.endpoints

theorem Leads.mono (h : Leads plans m m') (hp : ∀ t e, plans t e → plans' t e) :
    Leads plans' m m' :=
  { h with other := fun e he hd => (h.other e he hd).imp_right fun hn => ⟨hn.1, hn.2.1, hp _ _ hn.2.2⟩ }

theorem Traced.setStats (hm : m.Traced) (stats : Stats) : ({ m with stats }).Traced :=
  ⟨hm.ordered, hm.inFlight_lt, hm.numbered, hm.sane⟩

theorem Traced.takeUid (hm : m.Traced) : m.takeUid.2.Traced :=
  ⟨hm.ordered, hm.inFlight_lt, hm.numbered, hm.sane⟩

theorem Leads.setStats (hm : m.Traced) (stats : Stats) : Leads plans m { m with stats } :=
  ⟨hm.setStats stats, rfl, Nat.le_refl _, fun _ he _ => he, fun _ he _ => .inl he, rfl, rfl, rfl⟩

theorem Leads.takeUid (hm : m.Traced) : Leads plans m m.takeUid.2 :=
  ⟨hm.takeUid, rfl, Nat.le_refl _, fun _ he _ => he, fun _ he _ => .inl he, rfl, rfl, rfl⟩

theorem Leads.scheduleAt (hm : m.Traced) {time : Time} {event : Event}
    (hd : event.isDelivery = false) (hp : plans (max time m.now) event) :
    Leads plans m { m with events := (m.events.scheduleAt time event).2 } := by
  have hsane : event.Sane := by
    cases event with
    | deliver receiver frame => cases hd
    | _ => trivial
  refine ⟨⟨hm.ordered.scheduleAt time event, fun t ht => ?_, fun e he hnum => ?_, fun e he => ?_⟩,
    rfl, Nat.le_succ _, fun e he _ => EventQueue.mem_scheduleAt.2 (.inr he), fun e he hd => ?_, rfl,
    rfl, rfl⟩
  · exact Nat.lt_succ_of_lt (hm.inFlight_lt t ht)
  · rcases EventQueue.mem_scheduleAt.1 he with rfl | he
    · obtain ⟨t, ht, hid⟩ := InFlight.numbered_iff.1 hnum
      exact absurd hid (Nat.ne_of_lt (hm.inFlight_lt t ht))
    · exact hm.numbered e he hnum
  · rcases EventQueue.mem_scheduleAt.1 he with rfl | he
    · exact hsane
    · exact hm.sane e he
  · rcases EventQueue.mem_scheduleAt.1 he with rfl | he
    · exact .inr ⟨Nat.le_refl _, rfl, hp⟩
    · exact .inl he

theorem Leads.schedule (hm : m.Traced) {delay : Time} {event : Event}
    (hd : event.isDelivery = false) (hp : plans (m.now + delay) event)
    (h : m.schedule delay event = .ok m') : Leads plans m m' := by
  rw [schedule_ok h]
  refine .scheduleAt hm hd ?_
  rwa [max_add_now]

theorem Leads.transmit (hm : m.Traced) {sender : Nat} {frame : Frame} {o : TransmitOutcome}
    (hf : frame.Sane) (h : m.transmit sender frame = .ok (m', o)) : Leads plans m m' := by
  obtain ⟨⟨c, events, stats, o'⟩, ht, h⟩ := Fault.bind_eq_ok.1 h
  cases h
  rcases Channel.transmit_cases ht with
    ⟨rfl, rfl, -⟩ | ⟨endpoint, here, s, -, -, hs, rfl, rfl, -⟩
  · exact .setStats hm stats
  · have hadds := Channel.adds_spread (s := ⟨m.events, m.stats, [], ⟨0, 0⟩⟩) hm.ordered hs
    have hunder : ∀ x ∈ m.events.entries, InFlight.numbered
        (m.channel.inFlight.filter fun t => !m.events.isExpired t.delivery) x.id = true →
        x.event.isDelivery = true := by
      intro x hx hnum
      obtain ⟨t, ht, hid⟩ := InFlight.numbered_iff.1 hnum
      exact hm.numbered x hx (InFlight.numbered_iff.2 ⟨t, (List.mem_filter.1 ht).1, hid⟩)
    -- an entry that is no delivery is under no number that is under way, so it is not marked
    have hsame : ∀ x ∈ m.events.entries, ∀ b : Bool, x.event.isDelivery = false →
        (b = true → InFlight.numbered
          (m.channel.inFlight.filter fun t => !m.events.isExpired t.delivery) x.id = true) →
        x.cancelIf b = x := by
      intro x hx b hd hb
      cases b with
      | false => exact x.cancelIf_false
      | true =>
        rw [hunder x hx (hb rfl)] at hd
        cases hd
    refine ⟨⟨hadds.ordered, ?inFlight, ?numbered, ?sane⟩, hadds.now, hadds.nextId_le, ?kept, ?other,
      rfl, rfl, rfl⟩
    case inFlight =>
      intro t ht
      rcases List.mem_append.1 ht with ht | ht
      · exact Nat.lt_of_lt_of_le (hm.inFlight_lt t (List.mem_filter.1 ht).1) hadds.nextId_le
      · rcases hadds.sent t ht with ht | ⟨-, hlt⟩
        · cases ht
        · exact hlt
    case numbered =>
      intro e he hnum
      rcases hadds.origin e he with ⟨x, hx, b, rfl, -⟩ | ⟨-, receiver, hr⟩
      · obtain ⟨t, ht, hid⟩ := InFlight.numbered_iff.1 hnum
        refine hm.numbered x hx (InFlight.numbered_iff.2 ⟨t, ?_, hid⟩)
        rcases List.mem_append.1 ht with ht | ht
        · exact (List.mem_filter.1 ht).1
        · rcases hadds.sent t ht with ht | ⟨hle, -⟩
          · cases ht
          · have hlt := hm.ordered.lt_nextId x hx
            replace hid : t.delivery = x.id := hid
            replace hle : m.events.nextId ≤ t.delivery := hle
            omega
      · rw [hr]
        rfl
    case sane =>
      intro e he
      rcases hadds.origin e he with ⟨x, hx, b, rfl, -⟩ | ⟨-, receiver, hr⟩
      · exact hm.sane x hx
      · rw [hr]
        exact hf
    case kept =>
      intro e he hd
      obtain ⟨b, hb, hnum⟩ := hadds.kept e he
      rwa [hsame e he b hd hnum] at hb
    case other =>
      intro e he hd
      rcases hadds.origin e he with ⟨x, hx, b, rfl, hnum⟩ | ⟨-, receiver, hr⟩
      · left
        rwa [hsame x hx b hd hnum]
      · rw [hr] at hd
        cases hd

theorem Step.leads (hm : m.Traced) (hs : ∀ n f, sends n f → f.Sane)
    (hp : ∀ t e, plans t e → e.isDelivery = false) (h : Step sends plans m m') :
    Leads plans m m' := by
  cases h with
  | count h => exact .setStats hm _
  | takeUid => exact .takeUid hm
  | scheduleAt hplan => exact .scheduleAt hm (hp _ _ hplan) hplan
  | transmit hsend h => exact .transmit hm (hs _ _ hsend) h

theorem Does.leads (hm : m.Traced) (hs : ∀ n f, sends n f → f.Sane)
    (hp : ∀ t e, plans t e → e.isDelivery = false) (h : Does sends plans m m') :
    Leads plans m m' := by
  induction h with
  | refl => exact .refl hm
  | tail _ hstep ih => exact ih.trans (hstep.leads ih.traced hs hp)

theorem Quiet.leads (hm : m.Traced) (h : Quiet m m') : Leads (fun _ _ => False) m m' :=
  Does.leads hm (fun _ _ => False.elim) (fun _ _ => False.elim) h

end Medium

end SlotNet
