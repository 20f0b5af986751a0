import SlotNet.Proofs.Watch

/-!
# The cadence of the frames

Slot follows slot and frame follows frame, whatever else happens in a run. Between two events one event
of the cadence waits (`Medium.Alone`); only when it is handed out the next one is scheduled, and no
collision cancels it.

`frames_on_time`: the slots of a run begin in their order, each at the time that the layout of the
frame and the number of nodes give.
-/

namespace SlotNet

variable {σ : Type}

/-! ## The plan of the slots -/

/-- The event with which a slot begins. With the first slot the frame begins. -/
def Event.opening : Nat → Event
  | 0 => .startFrame
  | slot + 1 => .runSlot (slot + 1)

namespace FrameLayout

variable (l : FrameLayout) (nodes : Nat)

def slots : Nat := nodes + l.dataSlots

/-- From the beginning of a frame to that of a slot. -/
def offset (slot : Nat) : Time :=
  ((List.range slot).map fun j => Timing.slotDuration l nodes j + l.guardTime).sum

/-- From the beginning of a frame to that of the next one. -/
def period : Time := l.offset nodes (l.slots nodes) + l.interFrameGap

/-- When a slot of a frame begins. -/
def slotStart (frame slot : Nat) : Time :=
  Controller.firstFrameDelay + frame * l.period nodes + l.offset nodes slot

/-- When the slot begins that has a number in the run. -/
def startOf (i : Nat) : Time := l.slotStart nodes (i / l.slots nodes) (i % l.slots nodes)

/-- From the beginning of a slot to that of the one after it. -/
def stride (slot : Nat) : Time :=
  l.guardTime + Timing.slotDuration l nodes slot
    + if slot + 1 = l.slots nodes then l.interFrameGap else 0

theorem offset_succ (slot : Nat) :
    l.offset nodes (slot + 1) = l.offset nodes slot + (Timing.slotDuration l nodes slot + l.guardTime) := by
  rw [offset, offset, List.range_succ, List.map_append, List.sum_append, List.map_singleton,
    List.sum_singleton]

variable {l nodes}

theorem succ_slot (hpos : 0 < l.slots nodes) (i : Nat) :
    (i % l.slots nodes + 1 = l.slots nodes ∧ (i + 1) % l.slots nodes = 0 ∧
        (i + 1) / l.slots nodes = i / l.slots nodes + 1) ∨
      (i % l.slots nodes + 1 < l.slots nodes ∧ (i + 1) % l.slots nodes = i % l.slots nodes + 1 ∧
        (i + 1) / l.slots nodes = i / l.slots nodes) := by
  have hlt := Nat.mod_lt i hpos
  have hi := Nat.mod_add_div i (l.slots nodes)
  rcases Nat.lt_or_eq_of_le (Nat.succ_le_of_lt hlt) with hnext | hlast
  · have hsucc : (i % l.slots nodes + 1) + l.slots nodes * (i / l.slots nodes) = i + 1 := by omega
    obtain ⟨hdiv, hmod⟩ := (Nat.div_mod_unique hpos).2 ⟨hsucc, hnext⟩
    exact .inr ⟨hnext, hmod, hdiv⟩
  · have hsucc : 0 + l.slots nodes * (i / l.slots nodes + 1) = i + 1 := by
      rw [Nat.mul_succ]
      omega
    obtain ⟨hdiv, hmod⟩ := (Nat.div_mod_unique hpos).2 ⟨hsucc, hpos⟩
    exact .inl ⟨hlast, hmod, hdiv⟩

theorem startOf_succ (hpos : 0 < l.slots nodes) (i : Nat) :
    l.startOf nodes (i + 1) = l.startOf nodes i + l.stride nodes (i % l.slots nodes) := by
  unfold startOf slotStart stride
  rcases succ_slot hpos i with ⟨hlast, hslot, hframe⟩ | ⟨hnext, hslot, hframe⟩
  · have hperiod : l.period nodes = l.offset nodes (i % l.slots nodes)
        + (Timing.slotDuration l nodes (i % l.slots nodes) + l.guardTime) + l.interFrameGap := by
      rw [period, ← offset_succ, hlast]
    have hzero : l.offset nodes 0 = 0 := rfl
    rw [hslot, hframe, hzero, if_pos hlast, Nat.succ_mul, hperiod]
    abel
  · rw [hslot, hframe, offset_succ, if_neg (Nat.ne_of_lt hnext)]
    abel

theorem startOf_zero : l.startOf nodes 0 = Controller.firstFrameDelay := by
  rw [startOf, slotStart, Nat.zero_div, Nat.zero_mod, Nat.zero_mul]
  rfl

/-- What the controller schedules is the next slot of the plan. -/
theorem following_eq {c : Controller} {i : Nat} {delay : Time} {next : Event} (hc : c.Shaped)
    (hl : c.layout = l) (hn : c.nodeCount = nodes) (hpos : 0 < l.slots nodes)
    (h : c.following (i % l.slots nodes) = .ok (delay, next)) :
    delay = l.stride nodes (i % l.slots nodes) ∧ next = Event.opening ((i + 1) % l.slots nodes) := by
  subst hl hn
  have htotal : c.totalSlots = c.layout.slots c.nodeCount := hc.totalSlots
  obtain ⟨elapsed, h1, h⟩ := Fault.bind_eq_ok.1 h
  obtain ⟨rfl, -⟩ := Time.add_eq_ok h1
  rw [htotal] at h
  unfold stride
  rcases succ_slot hpos i with ⟨hlast, hslot, -⟩ | ⟨hnext, hslot, -⟩
  · rw [if_pos hlast] at h
    obtain ⟨time, h2, h⟩ := Fault.bind_eq_ok.1 h
    obtain ⟨rfl, -⟩ := Time.add_eq_ok h2
    cases h
    rw [if_pos hlast, hslot]
    exact ⟨rfl, rfl⟩
  · rw [if_neg (Nat.ne_of_lt hnext)] at h
    cases h
    rw [if_neg (Nat.ne_of_lt hnext), hslot]
    exact ⟨(Nat.add_zero _).symm, rfl⟩

end FrameLayout

theorem Config.Accepted.slots_pos {c : Config} (hc : c.Accepted) : 0 < c.frame.slots c.nodeCount :=
  Nat.lt_of_lt_of_le hc.nodeCount.1 (Nat.le_add_right _ _)

theorem Event.slot?_opening (slot : Nat) : (opening slot).slot? = some slot := by
  cases slot <;> rfl

theorem Event.isCadence_opening (slot : Nat) : (opening slot).isCadence = true := by
  cases slot <;> rfl

theorem Event.isDelivery_of_isCadence {e : Event} (h : e.isCadence = true) : e.isDelivery = false := by
  cases e <;> first | rfl | cases h

/-! ## The event that waits -/

namespace Medium

/-- One event of a kind waits, and it is not cancelled. -/
def Alone (kind : Event → Bool) (m : Medium) (time : Time) (event : Event) : Prop :=
  ∃ id, ∀ x, x ∈ m.events.entries ∧ kind x.event = true ↔ x = ⟨time, id, event, false⟩

/-- No event of a kind waits. -/
def Lacks (kind : Event → Bool) (m : Medium) : Prop :=
  ∀ x ∈ m.events.entries, kind x.event = false

variable {m m' : Medium} {time : Time} {event : Event} {plans : Time → Event → Prop}
  {kind : Event → Bool}

theorem Alone.leads (h : m.Alone kind time event) (hl : Leads plans m m')
    (hkind : ∀ e, kind e = true → e.isDelivery = false) (hp : ∀ t e, plans t e → kind e = false) :
    m'.Alone kind time event := by
  obtain ⟨id, h⟩ := h
  refine ⟨id, fun x => ⟨fun ⟨hx, hc⟩ => ?_, fun hx => ?_⟩⟩
  · rcases hl.other x hx (hkind _ hc) with hold | ⟨-, -, hplan⟩
    · exact (h x).1 ⟨hold, hc⟩
    · rw [hp _ _ hplan] at hc
      cases hc
  · obtain ⟨hold, hc⟩ := (h x).2 hx
    exact ⟨hl.kept x hold (hkind _ hc), hc⟩

theorem Lacks.leads (h : m.Lacks kind) (hl : Leads plans m m')
    (hkind : ∀ e, kind e = true → e.isDelivery = false) (hp : ∀ t e, plans t e → kind e = false) :
    m'.Lacks kind := by
  intro x hx
  by_contra hc
  rw [Bool.not_eq_false] at hc
  rcases hl.other x hx (hkind _ hc) with hold | ⟨-, -, hplan⟩
  · rw [h x hold] at hc
    cases hc
  · rw [hp _ _ hplan] at hc
    cases hc

theorem mem_schedule {delay : Time} (hs : m.schedule delay event = .ok m') {x : Entry Event} :
    x ∈ m'.events.entries ↔
      x = ⟨m.now + delay, m.events.nextId, event, false⟩ ∨ x ∈ m.events.entries := by
  have hnew : m.events.entryAt (m.events.now + delay) event
      = ⟨m.now + delay, m.events.nextId, event, false⟩ := by
    rw [EventQueue.entryAt, ← max_add_now m delay]
    rfl
  rw [schedule_ok hs, EventQueue.mem_scheduleAt, hnew]

theorem Lacks.schedule (h : m.Lacks kind) {delay : Time} (hevent : kind event = true)
    (hs : m.schedule delay event = .ok m') : m'.Alone kind (m.now + delay) event := by
  refine ⟨m.events.nextId, fun x => ?_⟩
  rw [mem_schedule hs]
  constructor
  · rintro ⟨rfl | hx, hc⟩
    · rfl
    · rw [h x hx] at hc
      cases hc
  · rintro rfl
    exact ⟨.inl rfl, hevent⟩

theorem Alone.filter_eq (h : m.Alone kind time event) (ho : m.events.Ordered) :
    ∃ id, m.events.entries.filter (fun x => kind x.event) = [⟨time, id, event, false⟩] := by
  obtain ⟨id, h⟩ := h
  refine ⟨id, List.perm_singleton.1 ((List.perm_ext_iff_of_nodup
    (ho.distinct.of_map.filter _) (List.nodup_singleton _)).2 fun x => ?_)⟩
  rw [List.mem_filter, List.mem_singleton]
  exact h x

end Medium

/-! ## A slot begins -/

theorem Controller.not_delivery_of_following {c : Controller} {slot : Nat} {delay : Time}
    {next : Event} (h : c.following slot = .ok (delay, next)) : next.isDelivery = false := by
  rcases Network.next_of_following h with rfl | rfl <;> rfl

namespace Simulation

open Medium (Does Leads)

variable {s s' : Simulation σ}

theorem not_delivery_of_slotPlans {control : Bool} {members : List Nat} {slotEnd t : Time}
    {e : Event} (h : Network.SlotPlans control members slotEnd t e) :
    e.isDelivery = false ∧ e.isCadence = false := by
  obtain ⟨-, node, -, -, rfl⟩ := h
  exact ⟨rfl, rfl⟩

theorem Opens.leads {slot : Nat} (h : s.Opens slot s') (hm : s.network.medium.Traced) :
    ∃ m m₁ delay next, s'.network.controller.following slot = .ok (delay, next) ∧
      Leads (Network.SlotPlans (Timing.isControlSlot s.network.controller.nodeCount slot)
        (s'.network.controller.entitled slot)
        (s.network.now + s'.network.controller.slotDuration slot)) s.network.medium m ∧
      m.schedule delay next = .ok m₁ ∧
      ((slot < s.network.controller.nodeCount ∧ m₁.schedule 0 .envStep = .ok s'.network.medium) ∨
        (s.network.controller.nodeCount ≤ slot ∧ s'.network.medium = m₁)) := by
  obtain ⟨m, m₁, delay, next, hfollowing, hdoes, hschedule, hrest⟩ := h.does
  have hleads := hdoes.leads hm (fun n f hsend _ => by
    obtain ⟨-, node, -, -, hplain, -⟩ := hsend
    exact hplain) fun t e hplan => (not_delivery_of_slotPlans hplan).1
  exact ⟨m, m₁, delay, next, hfollowing, hleads, hschedule, hrest⟩

theorem Opens.sends {slot : Nat} (h : s.Opens slot s') :
    Does
      (Network.SlotSends (Timing.isControlSlot s.network.controller.nodeCount slot)
        (s'.network.controller.entitled slot))
      (fun _ e => e.isDelivery = false) s.network.medium s'.network.medium := by
  obtain ⟨m, m₁, delay, next, hfollowing, hdoes, hschedule, hrest⟩ := h.does
  have hbefore := hdoes.mono (fun _ _ => id) fun t e hplan => (not_delivery_of_slotPlans hplan).1
  have hnext := Controller.not_delivery_of_following hfollowing
  refine hbefore.trans (Does.trans (.ofStep (.schedule hnext hschedule)) ?_)
  rcases hrest with ⟨-, henv⟩ | ⟨-, hend⟩
  · exact .ofStep (.schedule rfl henv)
  · rw [hend]
    exact .refl m₁

end Simulation

namespace Watch

open Medium (Does Leads)

variable {w w' : Watch σ} {e : Entry Event} {s : Simulation σ}

namespace Handles

theorem staffed (h : w.Handles e s w') (hw : w.simulation.Staffed) : s.Staffed :=
  ⟨fun node t ht => hw.manned node t (h.stations ▸ ht),
    by rw [h.stations, h.controller]; exact hw.length, by rw [h.controller]; exact hw.shaped⟩

theorem traced (h : w.Handles e s w') (hw : w.medium.Traced) : s.network.medium.Traced := by
  have hchannel : s.network.medium.channel = w.medium.channel := by rw [h.medium]
  refine ⟨h.ordered, ?_, ?_, fun x hx => hw.sane x ((h.rest x).1 hx).1⟩
  · rw [hchannel, h.nextId]
    exact hw.inFlight_lt
  · rw [hchannel]
    exact fun x hx => hw.numbered x ((h.rest x).1 hx).1

theorem handed_eq (h : w.Handles e s w') : w'.handed = w.handed ++ [e] := by rw [h.noted]; rfl

theorem skipped_eq (h : w.Handles e s w') : w'.skipped = w.skipped ++ w.network.skipped := by
  rw [h.noted]
  rfl

theorem begun_eq (h : w.Handles e s w') :
    w'.begun = w.begun ++ if e.event.isCadence then [e] else [] := by
  rw [begun, h.handed_eq, List.filter_append]
  cases hc : e.event.isCadence <;> simp [hc, begun]

theorem slots_eq (h : w.Handles e s w') (hp : e.event.isCadence = false) : w'.slots = w.slots := by
  rw [slots, slots, h.begun_eq, hp, if_neg Bool.false_ne_true, List.append_nil]

end Handles

namespace Handles

variable {kind : Event → Bool} {time : Time} {event : Event}

theorem alone_behind (h : w.Handles e s w') (ho : w.medium.events.Ordered)
    (halone : w.medium.Alone kind time event) (hp : kind e.event = false) :
    s.network.medium.Alone kind time event := by
  obtain ⟨id, halone⟩ := halone
  refine ⟨id, fun x => ⟨fun ⟨hx, hc'⟩ => (halone x).1 ⟨((h.rest x).1 hx).1, hc'⟩, fun hx => ?_⟩⟩
  obtain ⟨hmem, hc'⟩ := (halone x).2 hx
  refine ⟨(h.rest x).2 ⟨hmem, ?_⟩, hc'⟩
  rcases lt_trichotomy e.key x.key with hlt | heq | hgt
  · exact hlt
  · have hid : e.id = x.id := congrArg (fun k : Key => (ofLex k).2) heq
    rw [← ho.eq_of_id h.mem hmem hid, hp] at hc'
    cases hc'
  · have hmarked := h.marked x hmem hgt
    rw [hx] at hmarked
    cases hmarked

theorem lacks_behind (h : w.Handles e s w') (halone : w.medium.Alone kind time event)
    (hp : kind e.event = true) :
    e.time = time ∧ e.event = event ∧ s.network.medium.Lacks kind := by
  obtain ⟨id, halone⟩ := halone
  have he := (halone e).1 ⟨h.mem, hp⟩
  refine ⟨by rw [he], by rw [he], fun x hx => ?_⟩
  by_contra hx'
  rw [Bool.not_eq_false] at hx'
  obtain ⟨hmem, hlt⟩ := (h.rest x).1 hx
  rw [(halone x).1 ⟨hmem, hx'⟩, ← he] at hlt
  exact lt_irrefl _ hlt

end Handles

/-- What holds between two events: the slots have begun on time, and the next one is awaited. -/
structure OnTime (c : Config) (w : Watch σ) : Prop where
  staffed : w.simulation.Staffed
  layout : w.network.controller.layout = c.frame
  nodeCount : w.network.controller.nodeCount = c.nodeCount
  traced : w.medium.Traced
  awaits : w.medium.Alone Event.isCadence (c.frame.startOf c.nodeCount w.slots)
    (Event.opening (w.slots % c.frame.slots c.nodeCount))
  begun : ∀ i e, w.begun[i]? = some e →
    e.event = Event.opening (i % c.frame.slots c.nodeCount) ∧ e.time = c.frame.startOf c.nodeCount i
  skipped : ∀ e ∈ w.skipped, e.event.isCadence = false

variable {c : Config}

theorem OnTime.totalSlots (hw : w.OnTime c) :
    w.network.controller.totalSlots = c.frame.slots c.nodeCount := by
  have htotal : w.network.controller.totalSlots
      = w.network.controller.nodeCount + w.network.controller.layout.dataSlots :=
    hw.staffed.shaped.totalSlots
  rw [htotal, hw.nodeCount, hw.layout]
  rfl

theorem Handles.layout (h : w.Handles e s w') (hw : w.OnTime c) :
    s.network.controller.layout = c.frame :=
  (congrArg Controller.layout h.controller).trans hw.layout

theorem Handles.nodeCount (h : w.Handles e s w') (hw : w.OnTime c) :
    s.network.controller.nodeCount = c.nodeCount :=
  (congrArg Controller.nodeCount h.controller).trans hw.nodeCount

theorem OnTime.skipped_of_handles (hw : w.OnTime c) (h : w.Handles e s w') :
    ∀ x ∈ w'.skipped, x.event.isCadence = false := by
  obtain ⟨id, hawaits⟩ := hw.awaits
  intro x hx
  rw [h.skipped_eq] at hx
  rcases List.mem_append.1 hx with hx | hx
  · exact hw.skipped x hx
  · by_contra hc
    rw [Bool.not_eq_false] at hc
    obtain ⟨hmem, hlt⟩ := (h.passed x).1 hx
    have hmarked := h.marked x hmem hlt
    rw [(hawaits x).1 ⟨hmem, hc⟩] at hmarked
    cases hmarked

theorem OnTime.opens (hc : c.Accepted) (hw : w.OnTime c) (h : w.Handles e s w')
    (hcadence : e.event.isCadence = true) :
    e.time = c.frame.startOf c.nodeCount w.slots ∧
      e.event = Event.opening (w.slots % c.frame.slots c.nodeCount) ∧
      s.network.medium.Lacks Event.isCadence ∧ w'.slots = w.slots + 1 ∧
      s.Opens (w.slots % c.frame.slots c.nodeCount) w'.simulation := by
  obtain ⟨htime, hevent, hlacks⟩ := h.lacks_behind hw.awaits hcadence
  have hnodes := h.nodeCount hw
  have htotal : s.network.controller.totalSlots = c.frame.slots c.nodeCount :=
    (congrArg Controller.totalSlots h.controller).trans hw.totalSlots
  refine ⟨htime, hevent, hlacks, ?_, ?_⟩
  · rw [slots, slots, h.begun_eq, if_pos hcadence, List.length_append]
    rfl
  · refine Simulation.dispatch_opens (h.staffed hw.staffed) h.ordered (hnodes ▸ hc.nodeCount.1)
      (hevent ▸ Event.slot?_opening _) ?_ h.dispatch
    rw [htotal]
    exact Nat.mod_lt _ hc.slots_pos

theorem OnTime.begun_of_handles (hw : w.OnTime c) (h : w.Handles e s w')
    (hcadence : e.event.isCadence = true)
    (hevent : e.event = Event.opening (w.slots % c.frame.slots c.nodeCount))
    (htime : e.time = c.frame.startOf c.nodeCount w.slots) (i : Nat) (x : Entry Event)
    (hx : w'.begun[i]? = some x) :
    x.event = Event.opening (i % c.frame.slots c.nodeCount) ∧
      x.time = c.frame.startOf c.nodeCount i := by
  rw [h.begun_eq, if_pos hcadence, List.getElem?_append] at hx
  split at hx
  · exact hw.begun i x hx
  · rename_i hi
    rw [List.getElem?_singleton] at hx
    split at hx
    · rename_i hlast
      have hslots : w.slots = w.begun.length := rfl
      have hi' : i = w.slots := by omega
      cases hx
      rw [hi']
      exact ⟨hevent, htime⟩
    · cases hx

theorem OnTime.begins (hc : c.Accepted) (hw : w.OnTime c) (h : w.Handles e s w')
    (hcadence : e.event.isCadence = true) : w'.OnTime c := by
  obtain ⟨htime, hevent, hnone, hslots, hopens⟩ := hw.opens hc h hcadence
  obtain ⟨m, m₁, delay, next, hfollowing, hleads, hschedule, hrest⟩ :=
    hopens.leads (h.traced hw.traced)
  have hlayout := hopens.layout.trans (h.layout hw)
  have hnodes := hopens.nodeCount.trans (h.nodeCount hw)
  obtain ⟨rfl, rfl⟩ :=
    FrameLayout.following_eq hopens.staffed.shaped hlayout hnodes hc.slots_pos hfollowing
  have hopening := Event.isCadence_opening ((w.slots + 1) % c.frame.slots c.nodeCount)
  have hthen : Leads (fun _ e => e = Event.opening ((w.slots + 1) % c.frame.slots c.nodeCount))
      m m₁ := .schedule hleads.traced (Event.isDelivery_of_isCadence hopening) rfl hschedule
  have hnext : Leads (fun _ e => e = .envStep) m₁ w'.medium := by
    rcases hrest with ⟨-, henv⟩ | ⟨-, hend⟩
    · exact .schedule hthen.traced rfl rfl henv
    · rw [show w'.medium = m₁ from hend]
      exact .refl hthen.traced
  have hdue : m.now + c.frame.stride c.nodeCount (w.slots % c.frame.slots c.nodeCount)
      = c.frame.startOf c.nodeCount w'.slots := by
    rw [hslots, FrameLayout.startOf_succ hc.slots_pos, hleads.now, ← htime, ← h.now]
    rfl
  have hsilent := hnone.leads hleads (fun _ => Event.isDelivery_of_isCadence)
    fun t e hplan => (Simulation.not_delivery_of_slotPlans hplan).2
  have hawaits := hsilent.schedule hopening hschedule
  rw [hdue, ← hslots] at hawaits
  refine ⟨hopens.staffed, hlayout, hnodes, hnext.traced, ?_,
    hw.begun_of_handles h hcadence hevent htime, hw.skipped_of_handles h⟩
  exact hawaits.leads hnext (fun _ => Event.isDelivery_of_isCadence) fun t e hplan => by
    rw [hplan]
    rfl

theorem OnTime.awaits_behind (hw : w.OnTime c) (h : w.Handles e s w')
    (hp : e.event.isCadence = false) :
    s.network.medium.Alone Event.isCadence (c.frame.startOf c.nodeCount w.slots)
      (Event.opening (w.slots % c.frame.slots c.nodeCount)) :=
  h.alone_behind hw.traced.ordered hw.awaits hp

theorem OnTime.passes (hw : w.OnTime c) (h : w.Handles e s w') (hp : e.event.isCadence = false) :
    w'.OnTime c := by
  have hslot : e.event.slot? = none := by
    rwa [Event.isCadence, Option.isSome_eq_false_iff, Option.isNone_iff_eq_none] at hp
  obtain ⟨hstaffed, hframe, hleads⟩ := Simulation.dispatch_passes (h.staffed hw.staffed)
    (h.traced hw.traced) (hw.traced.sane e h.mem) hslot h.dispatch
  have hbegun : w'.begun = w.begun := by
    rw [h.begun_eq, hp, if_neg Bool.false_ne_true, List.append_nil]
  refine ⟨hstaffed, hframe.layout.trans (h.layout hw), hframe.nodeCount.trans (h.nodeCount hw),
    hleads.traced, ?_, hbegun ▸ hw.begun, hw.skipped_of_handles h⟩
  rw [h.slots_eq hp]
  refine (hw.awaits_behind h hp).leads hleads (fun _ => Event.isDelivery_of_isCadence)
    fun t e hplan => ?_
  cases e <;> first | rfl | cases hplan

theorem OnTime.handles (hc : c.Accepted) (hw : w.OnTime c) (h : w.Handles e s w') : w'.OnTime c := by
  cases hcadence : e.event.isCadence with
  | true => exact hw.begins hc h hcadence
  | false => exact hw.passes h hcadence

theorem OnTime.idles (hw : w.OnTime c) (h : w.Idles w') : w'.OnTime c := by
  have hleads := h.leads hw.traced
  have hrecords : w'.slots = w.slots ∧ w'.begun = w.begun ∧ w'.skipped = w.skipped := by
    rw [h.same]
    exact ⟨rfl, rfl, rfl⟩
  obtain ⟨hslots, hbegun, hskipped⟩ := hrecords
  refine ⟨⟨fun node t ht => hw.staffed.manned node t (h.stations ▸ ht), ?_, ?_⟩, ?_, ?_,
    hleads.traced, ?_, hbegun ▸ hw.begun, hskipped ▸ hw.skipped⟩
  · exact (congrArg List.length h.stations).trans
      (hw.staffed.length.trans (congrArg Controller.nodeCount h.controller).symm)
  · exact (congrArg Controller.Shaped h.controller).mpr hw.staffed.shaped
  · rw [h.controller]
    exact hw.layout
  · rw [h.controller]
    exact hw.nodeCount
  · rw [hslots]
    refine hw.awaits.leads hleads (fun _ => Event.isDelivery_of_isCadence) fun t e hplan => ?_
    obtain ⟨node, rfl⟩ := hplan
    rfl

theorem OnTime.step (hc : c.Accepted) (hw : w.OnTime c) {a : Act} (h : w.step a = some w') :
    w'.OnTime c := by
  rcases step_cases hw.traced.ordered h with ⟨e, s, hh⟩ | hi
  · exact hw.handles hc hh
  · exact hw.idles hi

theorem OnTime.start {s s' : Simulation σ} (hn : s.network.Still c) (h : s.begin = .ok s') :
    (start s').OnTime c := by
  obtain ⟨m, m₁, hquiet, hschedule, hdoes, hstations, hcontroller⟩ :=
    Simulation.begin_does hn.started h
  have htraced := hn.traced
  have hnone : s.network.medium.Lacks Event.isCadence := by
    unfold Medium.Lacks
    rw [hn.events]
    exact nofun
  have hleads := Medium.Quiet.leads htraced hquiet
  have hfirst : Leads (fun _ e => e = .startFrame) m m₁ :=
    .schedule hleads.traced rfl rfl hschedule
  have hrest := hdoes.leads hfirst.traced (fun _ _ => False.elim) fun t e hplan => by
    obtain ⟨node, rfl⟩ := hplan
    rfl
  have hsilent := hnone.leads hleads (fun _ => Event.isDelivery_of_isCadence) fun _ _ => False.elim
  have hawaits := hsilent.schedule rfl hschedule
  have hnow : m.now = 0 := by
    rw [hleads.now, Medium.now, hn.events]
    rfl
  rw [hnow, Nat.zero_add] at hawaits
  have hthen := hawaits.leads hrest (fun _ => Event.isDelivery_of_isCadence) fun t e hplan => by
    obtain ⟨node, rfl⟩ := hplan
    rfl
  refine ⟨⟨fun node t ht => hn.manned node t (hstations ▸ ht), ?_, ?_⟩, ?_, ?_, hrest.traced, ?_,
    nofun, nofun⟩
  · show s'.network.stations.length = s'.network.controller.nodeCount
    rw [hstations, hn.length, hcontroller]
    exact hn.nodeCount.symm
  · show s'.network.controller.Shaped
    rw [hcontroller]
    exact ⟨hn.shaped.claims, hn.shaped.totalSlots, hn.shaped.controlOrder⟩
  · exact (congrArg Controller.layout hcontroller).trans hn.layout
  · exact (congrArg Controller.nodeCount hcontroller).trans hn.nodeCount
  · show s'.network.medium.Alone Event.isCadence (c.frame.startOf c.nodeCount 0) _
    rw [FrameLayout.startOf_zero]
    exact hthen

theorem OnTime.run (hc : c.Accepted) {acts : List Act} (hw : w.OnTime c) (h : run acts w = some w') :
    w'.OnTime c := Acts.run_induction (fun _ _ _ _ hw hstep => hw.step hc hstep) hw h

/-- In every state of a run, whatever the agent answers and whenever packets arrive: the events with
which slots begin were handed out in the order of the slots, each at the time that the layout and the
number of nodes give; of those to come exactly the next one waits, for its own time; and none was ever
cancelled. -/
theorem frames_on_time (hc : c.Accepted) {agent : Agent σ} {agentState : σ} {s s' : Simulation σ}
    (hnew : Simulation.new c agent agentState = .ok s) (hbegin : s.begin = .ok s') {acts : List Act}
    (hrun : run acts (start s') = some w) :
    (∀ i e, (w.handed.filter (·.event.isCadence))[i]? = some e →
      e.event = Event.opening (i % c.frame.slots c.nodeCount) ∧
      e.time = c.frame.slotStart c.nodeCount (i / c.frame.slots c.nodeCount)
        (i % c.frame.slots c.nodeCount)) ∧
    (∃ id, w.entries.filter (·.event.isCadence) =
      [⟨c.frame.slotStart c.nodeCount (w.slots / c.frame.slots c.nodeCount)
        (w.slots % c.frame.slots c.nodeCount), id,
        Event.opening (w.slots % c.frame.slots c.nodeCount), false⟩]) ∧
    ∀ e ∈ w.cancelledEvents, e.event.isCadence = false := by
  have hn := Simulation.still_of_new hnew
  have hw := (OnTime.start hn hbegin).run hc hrun
  refine ⟨hw.begun, hw.awaits.filter_eq hw.traced.ordered, fun e he => ?_⟩
  rcases List.mem_append.1 he with he | he
  · exact hw.skipped e he
  · obtain ⟨hmem, hmarked⟩ := List.mem_filter.1 he
    obtain ⟨id, hawaits⟩ := hw.awaits
    by_contra hcadence
    rw [Bool.not_eq_false] at hcadence
    rw [(hawaits e).1 ⟨hmem, hcadence⟩] at hmarked
    cases hmarked

theorem run_pair : ∃ s s',
    Simulation.new Config.pair (.forNodes [some [0], some []]) Script.silence = .ok s ∧
    s.begin = .ok s' ∧ (run Watch.twoPackets (start s')).map (fun w => w.slots) = some 6 :=
  ⟨_, _, rfl, rfl, by decide +kernel⟩

/-- Two nodes, whose frames have three slots, after two frames. -/
theorem frames_on_time_pair : ∃ s s' w,
    Simulation.new Config.pair (.forNodes [some [0], some []]) Script.silence = .ok s ∧
    s.begin = .ok s' ∧ run Watch.twoPackets (start s') = some w ∧
    (∃ e, (w.handed.filter (·.event.isCadence))[5]? = some e ∧ e.event = .runSlot 2 ∧
      e.time = 3200010) ∧
    (∃ id, w.entries.filter (·.event.isCadence) = [⟨4400010, id, .startFrame, false⟩]) ∧
    ∀ e ∈ w.cancelledEvents, e.event.isCadence = false := by
  obtain ⟨s, s', hnew, hbegin, hrun⟩ := run_pair
  obtain ⟨w, hw, hslots⟩ := Option.map_eq_some_iff.1 hrun
  obtain ⟨hbegun, hwaits, hcancelled⟩ := frames_on_time Config.accepted_pair hnew hbegin hw
  have hlt : 5 < (w.handed.filter (·.event.isCadence)).length := by
    rw [show (w.handed.filter (·.event.isCadence)).length = 6 from hslots]
    decide
  obtain ⟨hevent, htime⟩ := hbegun 5 _ (List.getElem?_eq_getElem hlt)
  refine ⟨s, s', w, hnew, hbegin, hw, ⟨_, List.getElem?_eq_getElem hlt, hevent, htime⟩, ?_, hcancelled⟩
  obtain ⟨id, hid⟩ := hwaits
  rw [hslots] at hid
  exact ⟨id, hid⟩

end Watch

end SlotNet
