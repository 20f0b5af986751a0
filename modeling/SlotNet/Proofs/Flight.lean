import SlotNet.Proofs.Mirror

/-!
# Packets in the air

A data frame is heard by all in range, and it carries its packet to the one for whom it is meant: it flies
over that hop (`EventQueue.flying`). All frames take the same time over a hop, and so those that fly land
before one that is sent now (`Prompt`). That is why a transmission puts its packet behind those that fly
already (`Prompt.transmit`); collisions only take some of them away.
-/

namespace SlotNet

def Address.node (a : Address) : Nat := a.bits.toNat - 1

theorem Address.node_ofNode {node : Nat} (h : node + 1 < limit) : (ofNode node).node = node := by
  unfold limit at h
  rw [Address.node, ofNode, BitVec.toNat_ofNat, Nat.mod_eq_of_lt (by omega), Nat.add_sub_cancel]

/-- The packet that an event brings over a hop. -/
def Event.cargo (hop : Nat × Nat) : Event → Option Packet
  | .deliver receiver frame =>
    if frame.kind = .data ∧ frame.receiver.node = receiver ∧ (frame.transmitter.node, receiver) = hop
    then some frame.packet
    else none
  | _ => none

/-- The packet that will land after a hop. -/
def Entry.cargo (hop : Nat × Nat) (e : Entry Event) : Option Packet :=
  if e.cancelled then none else e.event.cargo hop

/-- The packets that fly over a hop, those first that land first. -/
def EventQueue.flying (q : EventQueue Event) (hop : Nat × Nat) : List Packet :=
  q.entries.filterMap (Entry.cargo hop)

theorem filterMap_cons_toList {α β : Type} (f : α → Option β) (a : α) (l : List α) :
    (a :: l).filterMap f = (f a).toList ++ l.filterMap f := by
  rw [List.filterMap_eq_flatMap_toList, List.filterMap_eq_flatMap_toList, List.flatMap_cons]

namespace Event

variable {receiver : Nat} {frame : Frame} {hop : Nat × Nat} {p : Packet}

theorem cargo_eq_some {e : Event} : e.cargo hop = some p ↔ ∃ frame, e = .deliver hop.2 frame ∧
    frame.kind = .data ∧ frame.receiver.node = hop.2 ∧ frame.transmitter.node = hop.1 ∧
    frame.packet = p := by
  constructor
  · intro h
    cases e with
    | deliver receiver frame =>
      obtain ⟨⟨hdata, hreceiver, rfl⟩, hp⟩ := Option.ite_none_right_eq_some.1 h
      exact ⟨frame, rfl, hdata, hreceiver, rfl, Option.some.inj hp⟩
    | _ => cases h
  · rintro ⟨frame, rfl, hdata, hreceiver, htransmitter, rfl⟩
    exact if_pos ⟨hdata, hreceiver, by rw [htransmitter]⟩

theorem cargo_of_other {e : Event} (h : e.isDelivery = false) (hop : Nat × Nat) :
    e.cargo hop = none := by
  cases e with
  | deliver receiver frame => cases h
  | _ => rfl

theorem cargo_of_ne (h : receiver ≠ hop.2) : (Event.deliver receiver frame).cargo hop = none :=
  if_neg fun hd => h (congrArg Prod.snd hd.2.2)

theorem cargo_of_control (h : frame.kind ≠ .data) : (Event.deliver receiver frame).cargo hop = none :=
  if_neg fun hd => h hd.1

end Event

/-! ## The order of the events -/

namespace EventQueue

section Insert

variable {ε α : Type} {f : Entry ε → Option α} {e : Entry ε} {l : List (Entry ε)}

theorem filterMap_insert (hl : l.Pairwise fun a b => a.key < b.key)
    (h : (f e).isSome → ∀ x ∈ l, (f x).isSome → x.time ≤ e.time) :
    (insert e l).filterMap f = l.filterMap f ++ (f e).toList := by
  induction l with
  | nil => cases hf : f e <;> simp [insert, hf]
  | cons x xs ih =>
    obtain ⟨hx, hxs⟩ := List.pairwise_cons.1 hl
    rw [insert]
    split
    · rename_i hlt
      cases hf : f e with
      | none => rw [List.filterMap_cons_none hf, Option.toList_none, List.append_nil]
      | some a =>
        -- the others are all later, so none of them is looked at
        have hnone : (x :: xs).filterMap f = [] := by
          refine List.filterMap_eq_nil_iff.2 fun y hy => ?_
          have hle : x.time ≤ y.time := by
            rcases List.mem_cons.1 hy with rfl | hy
            · exact Nat.le_refl _
            · exact Entry.time_le_of_key_lt (hx y hy)
          by_contra hne
          have hsome := h (by rw [hf]; rfl) y hy (Option.isSome_iff_ne_none.2 hne)
          exact Nat.not_le_of_lt hlt (hle.trans hsome)
        rw [List.filterMap_cons_some hf, hnone]
        rfl
    · have hrest := ih hxs fun hf y hy => h hf y (.tail _ hy)
      rw [filterMap_cons_toList, filterMap_cons_toList, hrest, List.append_assoc]

end Insert

/-- Marks are all that a map makes. -/
def Marks (mark : Entry Event → Entry Event) : Prop := ∀ e, ∃ b, mark e = e.cancelIf b

theorem marks_id : Marks id := fun e => ⟨false, e.cancelIf_false.symm⟩

theorem marks_cancelEntry (id : Nat) : Marks (cancelEntry id) := fun e => ⟨_, cancelEntry_eq id e⟩

variable {q : EventQueue Event} {mark : Entry Event → Entry Event}

theorem Marks.sublist (h : Marks mark) (l : List (Entry Event)) (hop : Nat × Nat) :
    ((l.map mark).filterMap (Entry.cargo hop)).Sublist (l.filterMap (Entry.cargo hop)) := by
  induction l with
  | nil => exact .refl _
  | cons e l ih =>
    obtain ⟨b, hb⟩ := h e
    rw [List.map_cons, hb]
    cases b with
    | true =>
      have hnone : (e.cancelIf true).cargo hop = none := if_pos (Bool.or_true _)
      rw [List.filterMap_cons_none hnone]
      exact ih.trans ((List.sublist_cons_self e l).filterMap _)
    | false =>
      rw [Entry.cancelIf_false, filterMap_cons_toList, filterMap_cons_toList]
      exact (List.Sublist.refl _).append ih

/-- What flies over a hop is due when a frame would be that is sent now, or before. -/
def Due (reach : Nat → Nat → Time → Prop) (q : EventQueue Event) : Prop :=
  ∀ e ∈ q.entries, ∀ x y p, e.event.cargo (x, y) = some p →
    ∃ delay, reach x y delay ∧ e.time ≤ q.now + delay

variable {reach : Nat → Nat → Time → Prop}

theorem flying_scheduleAt (hq : q.Ordered) {event : Event} (he : event.isDelivery = false)
    (time : Time) (hop : Nat × Nat) : (q.scheduleAt time event).2.flying hop = q.flying hop := by
  have hnone : (q.entryAt time event).cargo hop = none :=
    (if_neg Bool.false_ne_true).trans (Event.cargo_of_other he hop)
  have hinsert := filterMap_insert (f := Entry.cargo hop) (e := q.entryAt time event) hq.sorted
    fun hsome => by
      rw [hnone] at hsome
      cases hsome
  rw [hnone, Option.toList_none, List.append_nil] at hinsert
  exact hinsert

theorem Due.scheduleAt (h : q.Due reach) {event : Event} (he : event.isDelivery = false)
    (time : Time) : (q.scheduleAt time event).2.Due reach := by
  intro e hm x y p hp
  rcases mem_scheduleAt.1 hm with rfl | hm
  · rw [show (q.entryAt time event).event = event from rfl, Event.cargo_of_other he] at hp
    cases hp
  · exact h e hm x y p hp

end EventQueue

/-! ## Sending -/

namespace Channel

open EventQueue (Marks Due)

variable {reach : Nat → Nat → Time → Prop} {frame : Frame} {underWay : List InFlight}
  {s s' : Spread} {node : Nat}

theorem deliver_entries {sender : Address} {listener : Endpoint} {distance : Float}
    (h : deliver underWay sender frame listener distance s = .ok s') :
    ∃ before after, Marks before ∧ Marks after ∧ s'.events.entries =
      (EventQueue.insert ⟨s.events.now + Timing.propagationDelay distance, s.events.nextId,
        .deliver listener.node frame, false⟩ (s.events.entries.map before)).map after := by
  have hspec := cancelAll_spec s.events (overlapping underWay sender listener.address)
  unfold deliver at h
  cases hc : cancelAll s.events (overlapping underWay sender listener.address) with
  | mk n events =>
    rw [hc] at hspec
    dsimp only at hspec
    simp only [hc, Fault.bind_eq_ok] at h
    obtain ⟨stats, -, ⟨id, events'⟩, h2, h⟩ := h
    obtain ⟨rfl, rfl⟩ := EventQueue.schedule_ok h2
    have hentries : (events.scheduleAt (events.now + Timing.propagationDelay distance)
        (.deliver listener.node frame)).2.entries =
        EventQueue.insert ⟨s.events.now + Timing.propagationDelay distance, s.events.nextId,
          .deliver listener.node frame, false⟩ (s.events.entries.map fun e => e.cancelIf
            (InFlight.numbered (overlapping underWay sender listener.address) e.id)) := by
      rw [EventQueue.scheduleAt, hspec]
      dsimp only
      rw [Nat.max_eq_left (Nat.le_add_right _ _)]
    have hbefore : Marks fun e => e.cancelIf
        (InFlight.numbered (overlapping underWay sender listener.address) e.id) := fun e => ⟨_, rfl⟩
    split at h
    · cases h
      refine ⟨_, id, hbefore, EventQueue.marks_id, ?_⟩
      rw [List.map_id]
      exact hentries
    · obtain ⟨stats', -, h⟩ := Fault.bind_eq_ok.1 h
      obtain ⟨stats'', -, h⟩ := Fault.bind_eq_ok.1 h
      cases h
      exact ⟨_, _, hbefore, EventQueue.marks_cancelEntry _,
        congrArg (List.map (EventQueue.cancelEntry events.nextId)) hentries⟩

theorem flying_deliver (hreach : ∀ x y d d', reach x y d → reach x y d' → d = d')
    (hs : s.events.Ordered) (hdue : s.events.Due reach) {sender : Address} {listener : Endpoint}
    {distance : Float} (hr : reach node listener.node (Timing.propagationDelay distance))
    (hf : frame.kind = .data → frame.transmitter.node = node)
    (h : deliver underWay sender frame listener distance s = .ok s') :
    s'.events.Due reach ∧ ∀ hop, (s'.events.flying hop).Sublist
      (s.events.flying hop ++ ((Event.deliver listener.node frame).cargo hop).toList) := by
  obtain ⟨-, -, -, -, hnow, -, hmem⟩ := deliver_ok hs h
  obtain ⟨before, after, hbefore, hafter, hentries⟩ := deliver_entries h
  have hnew : ∀ {x y p}, (Event.deliver listener.node frame).cargo (x, y) = some p →
      reach x y (Timing.propagationDelay distance) := by
    intro x y p hp
    obtain ⟨f, he, hdata, -, htransmitter, -⟩ := Event.cargo_eq_some.1 hp
    cases he
    obtain rfl : node = x := (hf hdata).symm.trans htransmitter
    exact hr
  refine ⟨fun e he x y p hp => ?_, fun hop => ?_⟩
  · rw [hnow]
    rcases (hmem e).1 he with rfl | ⟨old, hold, rfl⟩
    · exact ⟨_, hnew hp, Nat.le_refl _⟩
    · exact hdue old hold x y p hp
  · have hsorted : (s.events.entries.map before).Pairwise fun a b => a.key < b.key := by
      refine hs.sorted.map _ fun a b hab => ?_
      obtain ⟨i, hi⟩ := hbefore a
      obtain ⟨j, hj⟩ := hbefore b
      rw [hi, hj]
      exact hab
    have hlast := EventQueue.filterMap_insert (f := Entry.cargo hop)
      (e := ⟨s.events.now + Timing.propagationDelay distance, s.events.nextId,
        .deliver listener.node frame, false⟩) hsorted fun hnewcargo x hx hxcargo => by
      obtain ⟨y, hy, rfl⟩ := List.mem_map.1 hx
      obtain ⟨b, hb⟩ := hbefore y
      rw [hb] at hxcargo ⊢
      obtain ⟨p, hp⟩ := Option.isSome_iff_exists.1 hnewcargo
      obtain ⟨p', hp'⟩ := Option.isSome_iff_exists.1 hxcargo
      obtain ⟨-, hp'⟩ := Option.ite_none_left_eq_some.1 hp'
      obtain ⟨delay, hdelay, hle⟩ := hdue y hy hop.1 hop.2 p' hp'
      rw [hreach _ _ _ _ hdelay (hnew hp)] at hle
      exact hle
    rw [EventQueue.flying, hentries]
    refine (hafter.sublist _ hop).trans ?_
    rw [hlast]
    exact (hbefore.sublist _ hop).append (.refl _)

theorem flying_spread (hreach : ∀ x y d d', reach x y d → reach x y d' → d = d')
    (hs : s.events.Ordered) (hdue : s.events.Due reach) {maxRange : Float} {positions : List Point}
    {sender : Endpoint} {here : Point} {listeners : List Endpoint}
    (hr : ∀ listener distance, hearingDistance maxRange positions sender.node here listener =
      some distance → reach sender.node listener.node (Timing.propagationDelay distance))
    (hf : frame.kind = .data → frame.transmitter.node = sender.node)
    (h : spread maxRange positions underWay sender here frame listeners s = .ok s') :
    s'.events.Due reach ∧ ∀ hop, (s'.events.flying hop).Sublist (s.events.flying hop ++
      listeners.filterMap fun listener => (Event.deliver listener.node frame).cargo hop) := by
  induction listeners generalizing s with
  | nil =>
    cases h
    refine ⟨hdue, fun hop => ?_⟩
    rw [List.filterMap_nil, List.append_nil]
  | cons listener listeners ih =>
    obtain ⟨t, ht, h⟩ := Fault.bind_eq_ok.1 h
    have hfirst : t.events.Ordered ∧ t.events.Due reach ∧ ∀ hop, (t.events.flying hop).Sublist
        (s.events.flying hop ++ ((Event.deliver listener.node frame).cargo hop).toList) := by
      cases hd : hearingDistance maxRange positions sender.node here listener with
      | none =>
        simp only [hd] at ht
        cases ht
        exact ⟨hs, hdue, fun hop => List.sublist_append_left ..⟩
      | some distance =>
        simp only [hd] at ht
        exact ⟨(adds_deliver hs ht).ordered,
          flying_deliver hreach hs hdue (hr listener distance hd) hf ht⟩
    obtain ⟨hordered, hdue', hflying⟩ := hfirst
    obtain ⟨hdue'', hrest⟩ := ih hordered hdue' h
    refine ⟨hdue'', fun hop => (hrest hop).trans ?_⟩
    rw [filterMap_cons_toList, ← List.append_assoc]
    exact (hflying hop).append (.refl _)

end Channel

/-! ## The medium -/

namespace Medium

def flying (m : Medium) (hop : Nat × Nat) : List Packet := m.events.flying hop

/-- All listen, and what flies lands before what is sent now. -/
structure Prompt (nodes : Nat) (m : Medium) : Prop where
  ordered : m.events.Ordered
  listens : m.Listens nodes
  due : m.events.Due m.Reaches

variable {nodes : Nat} {m m' m'' : Medium} {sends : Nat → Frame → Prop} {plans : Time → Event → Prop}

theorem Reaches.unique {sender receiver : Nat} {d d' : Time} (h : m.Reaches sender receiver d)
    (h' : m.Reaches sender receiver d') : d = d' := by
  obtain ⟨-, here, there, hhere, hthere, -, rfl⟩ := h
  obtain ⟨-, here', there', hhere', hthere', -, rfl⟩ := h'
  obtain rfl := Option.some.inj (hhere.symm.trans hhere')
  obtain rfl := Option.some.inj (hthere.symm.trans hthere')
  rfl

theorem Prompt.setEvents (h : m.Prompt nodes) {events : EventQueue Event} (ho : events.Ordered)
    (hnow : m.now ≤ events.now) (he : ∀ e ∈ events.entries, e ∈ m.events.entries) :
    ({ m with events }).Prompt nodes := by
  refine ⟨ho, h.listens, fun e hm x y p hp => ?_⟩
  obtain ⟨delay, hreaches, hle⟩ := h.due e (he e hm) x y p hp
  exact ⟨delay, hreaches, hle.trans (Nat.add_le_add_right hnow delay)⟩

theorem Prompt.setStats (h : m.Prompt nodes) (stats : Stats) : ({ m with stats }).Prompt nodes :=
  ⟨h.ordered, h.listens, h.due⟩

theorem Prompt.takeUid (h : m.Prompt nodes) : m.takeUid.2.Prompt nodes :=
  ⟨h.ordered, h.listens, h.due⟩

theorem Prompt.scheduleAt (h : m.Prompt nodes) {event : Event} (he : event.isDelivery = false)
    (time : Time) :
    ({ m with events := (m.events.scheduleAt time event).2 } : Medium).Prompt nodes :=
  ⟨h.ordered.scheduleAt time event, h.listens, h.due.scheduleAt he time⟩

theorem Prompt.schedule (h : m.Prompt nodes) {event : Event} (he : event.isDelivery = false)
    {delay : Time} (hs : m.schedule delay event = .ok m') :
    m'.Prompt nodes ∧ ∀ hop, m'.flying hop = m.flying hop := by
  rw [schedule_ok hs]
  exact ⟨h.scheduleAt he _, EventQueue.flying_scheduleAt h.ordered he _⟩

/-- Of all who listen only one can get the packet. -/
theorem filterMap_cargo {frame : Frame} {hop : Nat × Nat} {l : List Nat} (hl : l.Nodup) :
    (l.filterMap fun node => (Event.deliver node frame).cargo hop).Sublist
      ((Event.deliver hop.2 frame).cargo hop).toList := by
  induction l with
  | nil => exact List.nil_sublist _
  | cons node l ih =>
    obtain ⟨hnode, hl⟩ := List.nodup_cons.1 hl
    rw [filterMap_cons_toList]
    by_cases he : node = hop.2
    · have hnone : l.filterMap (fun node => (Event.deliver node frame).cargo hop) = [] := by
        refine List.filterMap_eq_nil_iff.2 fun k hk => Event.cargo_of_ne fun hk' => hnode ?_
        rw [he, ← hk']
        exact hk
      rw [hnone, List.append_nil, he]
    · rw [Event.cargo_of_ne he, Option.toList_none, List.nil_append]
      exact ih hl

theorem Prompt.transmit (h : m.Prompt nodes) {sender : Nat} {frame : Frame} {o : TransmitOutcome}
    (hf : frame.kind = .data → frame.transmitter.node = sender)
    (hs : m.transmit sender frame = .ok (m', o)) :
    m'.Prompt nodes ∧ ∀ hop, (m'.flying hop).Sublist
      (m.flying hop ++ ((Event.deliver hop.2 frame).cargo hop).toList) := by
  have hsame := samePlace_transmit h.ordered hs
  obtain ⟨⟨c, events, stats, o'⟩, ht, hs⟩ := Fault.bind_eq_ok.1 hs
  cases hs
  rcases Channel.transmit_cases ht with
    ⟨rfl, rfl, -⟩ | ⟨endpoint, here, t, hfind, hhere, hspread, rfl, rfl, -⟩
  · exact ⟨h.setStats stats, fun hop => List.sublist_append_left ..⟩
  · have hnode : endpoint.node = sender := by simpa using List.find?_some hfind
    subst hnode
    have hhears : ∀ listener distance, Channel.hearingDistance m.channel.maxRange m.positions
        endpoint.node here listener = some distance →
        m.Reaches endpoint.node listener.node (Timing.propagationDelay distance) := by
      intro listener distance hd
      obtain ⟨hne, there, hthere, hrange, rfl⟩ := Loop.hearingDistance_some hd
      exact ⟨hne, here, there, hhere, hthere, hrange, rfl⟩
    have hunique : ∀ x y d d', m.Reaches x y d → m.Reaches x y d' → d = d' :=
      fun _ _ _ _ => Reaches.unique
    obtain ⟨hdue, hflying⟩ := Channel.flying_spread hunique h.ordered h.due hhears hf hspread
    refine ⟨⟨(Channel.adds_spread h.ordered hspread).ordered, hsame.listens h.listens, hdue⟩,
      fun hop => (hflying hop).trans ?_⟩
    rw [h.listens, List.filterMap_map]
    exact (List.Sublist.refl _).append (filterMap_cargo List.nodup_range)

theorem Prompt.does (h : m.Prompt nodes) (hs : ∀ a f, sends a f → f.kind ≠ .data)
    (hp : ∀ t e, plans t e → e.isDelivery = false) (hd : Does sends plans m m') :
    m'.Prompt nodes ∧ ∀ hop, (m'.flying hop).Sublist (m.flying hop) := by
  induction hd with
  | refl => exact ⟨h, fun _ => .refl _⟩
  | tail _ hstep ih =>
    obtain ⟨hprompt, hflying⟩ := ih
    cases hstep with
    | count => exact ⟨hprompt.setStats _, hflying⟩
    | takeUid => exact ⟨hprompt.takeUid, hflying⟩
    | scheduleAt hplan =>
      refine ⟨hprompt.scheduleAt (hp _ _ hplan) _, fun hop => ?_⟩
      rw [flying, EventQueue.flying_scheduleAt hprompt.ordered (hp _ _ hplan)]
      exact hflying hop
    | transmit hsend hstep =>
      have hkind := hs _ _ hsend
      obtain ⟨hprompt', hflying'⟩ := hprompt.transmit (fun hdata => absurd hdata hkind) hstep
      refine ⟨hprompt', fun hop => (hflying' hop).trans ?_⟩
      rw [Event.cargo_of_control hkind, Option.toList_none, List.append_nil]
      exact hflying hop

end Medium

end SlotNet
