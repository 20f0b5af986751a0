import SlotNet.Proofs.Diary
import SlotNet.Proofs.Granting
import SlotNet.Proofs.SlotUse

/-!
# Time on the air

What the stations put on the air lies within slots that were given to them, and one station does not talk
over itself. A frame is sent when a slot begins or when the station goes on with its slot; so what waits
must be known to belong to the slot that runs, and not to begin before the frames are over that the station
has sent already (`MayResume`).
-/

namespace SlotNet

variable {σ : Type}

/-- A frame that a station put on the air from its queues. -/
structure Airing where
  deed : Deed
  node : Nat
  frame : Frame

namespace Airing

/-- The slot that ran, counted from the first one of the run. -/
def slot (a : Airing) : Nat := a.deed.slot

def start (a : Airing) : Time := a.deed.before.now

/-- When the air is free again. -/
def finish (c : Config) (a : Airing) : Time :=
  a.start + Timing.airtime a.frame.size c.frame.dataRate

/-- In a control slot the frame comes from the control queue and goes to all; in a data slot it comes from
the data queue and goes to the next hop. -/
def Taken (c : Config) (a : Airing) : Prop :=
  ∃ s item, a.deed.before.stations[a.node]? = some s ∧
    if c.IsControl a.slot then
      item ∈ s.queue.control ∧ a.frame = { item.frame with
        transmitter := Address.ofNode a.node
        receiver := .broadcast }
    else item ∈ s.queue.data ∧ ∃ hop,
      a.deed.before.medium.routes.nextHop a.node item.frame.destination = some hop ∧
      a.frame = { item.frame with
        transmitter := Address.ofNode a.node
        receiver := Address.ofNode hop }

end Airing

/-- Which stations sent frames while the event was handled. -/
def Deed.senders (x : Deed) : List (Nat × Frame) := Handled.senders x.event x.handled

/-- What the stations sent while the event was handled. -/
def Deed.airings (x : Deed) : List Airing := x.senders.map fun p => ⟨x, p.1, p.2⟩

namespace Diary

open Medium (Leads)

def airings (d : Diary σ) : List Airing := d.deeds.flatMap Deed.airings

/-- A slot began at its time, and the slot map listed the node then. -/
def Lists (c : Config) (d : Diary σ) (slot node : Nat) : Prop :=
  ∃ x ∈ d.deeds, x.event = Event.opening (slot % c.frame.slots c.nodeCount) ∧ x.slot = slot ∧
    x.before.now = c.slotBegin slot ∧
    node ∈ x.after.controller.entitled (slot % c.frame.slots c.nodeCount)

/-- A frame that lies within a slot of its node, and that was taken from the right queue. -/
structure Places (c : Config) (d : Diary σ) (a : Airing) : Prop where
  listed : d.Lists c a.slot a.node
  begins : c.slotBegin a.slot ≤ a.start
  ends : a.finish c ≤ c.slotBegin a.slot + c.slotLength a.slot
  taken : a.Taken c

/-- A slot that a station may use now: the one that runs, from which it will not leave. -/
structure InSlot (c : Config) (d : Diary σ) (q node : Nat) (slotEnd : Time) (control : Bool)
    (time : Time) : Prop where
  runs : d.watch.slots = q + 1
  ends : slotEnd = c.slotBegin q + c.slotLength q
  control : control = decide (c.IsControl q)
  listed : d.Lists c q node
  begins : c.slotBegin q ≤ time

/-- How a station may go on: in the slot that runs, and when what it has sent is over. -/
def MayResume (c : Config) (d : Diary σ) (node : Nat) (slotEnd : Time) (control : Bool) (time : Time) :
    Prop :=
  (∃ q, d.InSlot c q node slotEnd control time) ∧
    ∀ a ∈ d.airings, a.node = node → a.finish c ≤ time

structure Orderly (c : Config) (d : Diary σ) : Prop where
  regular : d.watch.Regular c
  dataRate : d.watch.medium.dataRate = c.frame.dataRate
  places : ∀ a ∈ d.airings, d.Places c a
  slot_lt : ∀ a ∈ d.airings, a.slot < d.watch.slots
  apart : d.airings.Pairwise fun a b => a.node = b.node → a.finish c ≤ b.start
  paced : d.watch.medium.Paced (d.MayResume c)
  counted : d.watch.medium.stats.framesSent =
    d.airings.length + d.watch.medium.stats.reservationMessages

variable {c : Config} {d d' : Diary σ} {e : Entry Event} {s : Simulation σ} {x : Deed}

theorem Handles.airings_eq (h : d.Handles e s x d') : d'.airings = d.airings ++ x.airings := by
  rw [airings, h.deeds, List.flatMap_append, List.flatMap_singleton, airings]

theorem Handles.lists (h : d.Handles e s x d') {slot node : Nat} (hl : d.Lists c slot node) :
    d'.Lists c slot node := by
  obtain ⟨y, hy, hrest⟩ := hl
  exact ⟨y, h.deeds ▸ List.mem_append_left _ hy, hrest⟩

theorem Handles.places (h : d.Handles e s x d') {a : Airing} (ha : d.Places c a) : d'.Places c a :=
  ⟨h.lists ha.listed, ha.begins, ha.ends, ha.taken⟩

theorem mem_airings {a : Airing} :
    a ∈ x.airings ↔ a.deed = x ∧ (a.node, a.frame) ∈ x.senders := by
  constructor
  · intro ha
    obtain ⟨p, hp, rfl⟩ := List.mem_map.1 ha
    exact ⟨rfl, hp⟩
  · rintro ⟨rfl, hp⟩
    exact List.mem_map.2 ⟨_, hp, rfl⟩

/-! ## What is counted -/

theorem length_senders {n n' : Network} {event : Event} {handled : Handled}
    (h : n.handle event = .ok (n', handled)) :
    (Handled.senders event handled).length = handled.sent.length := by
  have hgrants : ∀ grants : List Grant,
      (Grant.senders grants).length = (grants.filterMap (·.sent)).length := by
    intro grants
    rw [Grant.senders, ← List.length_map Prod.snd, List.map_filterMap]
    simp only [Option.map_map, Function.comp_def, Option.map_id']
  cases event with
  | startFrame =>
    obtain ⟨⟨n₁, grants⟩, -, h⟩ := Fault.map_eq_ok.1 h
    cases h
    exact hgrants grants
  | runSlot slot =>
    obtain ⟨⟨n₁, grants⟩, -, h⟩ := Fault.map_eq_ok.1 h
    cases h
    exact hgrants grants
  | continueSlot node slotEnd control =>
    rcases Network.continueSlot_cases h with ⟨-, rfl⟩ | ⟨s, s', m, sent, -, -, rfl, -⟩
    · rfl
    · exact List.length_map _
  | deliver receiver frame =>
    rcases Network.deliver_cases h with ⟨-, rfl, -⟩ | ⟨s, s', m, what, -, -, hwhat⟩
    · rfl
    · rcases hwhat with ⟨content, result, -, rfl, -⟩ | ⟨rfl, -⟩ <;> rfl
  | envStep =>
    cases h
    rfl
  | arrival node =>
    rcases Network.arrive_cases h with ⟨-, rfl⟩ | ⟨s, s', m, traffic, destination, -, -, rfl, -⟩ <;> rfl

theorem Orderly.counts (hc : c.Accepted) (hd : d.Orderly c) (h : d.Handles e s x d') :
    d'.watch.medium.dataRate = c.frame.dataRate ∧ d'.watch.medium.stats.framesSent =
      d'.airings.length + d'.watch.medium.stats.reservationMessages := by
  have hlength : d'.airings.length = d.airings.length + x.handled.sent.length := by
    rw [h.airings_eq, List.length_append, Deed.airings, List.length_map, Deed.senders, h.event,
      length_senders h.handle]
  have hbefore : s.network.medium.stats = d.watch.medium.stats := by rw [h.watch.medium]
  have hrate : s.network.medium.dataRate = c.frame.dataRate := by
    rw [h.watch.medium]
    exact hd.dataRate
  have hcounted := hd.counted
  rw [← hbefore] at hcounted
  have hnothing : e.event = .envStep → x.handled.sent.length = 0 := by
    intro he
    have hhandle := h.handle
    rw [he] at hhandle
    obtain ⟨-, hx⟩ := Prod.mk.inj (Except.ok.inj hhandle)
    rw [← hx]
    rfl
  rcases hd.regular.cases hc h.watch with
    ⟨-, network, handled, hserves⟩ | ⟨he, -, hlate⟩ | ⟨he, -, hturn⟩
  · obtain ⟨-, rfl⟩ := Prod.mk.inj (Except.ok.inj (hserves.handle.symm.trans h.handle))
    obtain ⟨hframes, hreservations, -, -, hrate', -⟩ := hserves.counts
    refine ⟨hrate'.trans hrate, ?_⟩
    show d'.watch.simulation.network.medium.stats.framesSent =
      d'.airings.length + d'.watch.simulation.network.medium.stats.reservationMessages
    omega
  · have hsame : d'.watch.medium = s.network.medium := by
      rw [Watch.medium, Watch.network, hlate]
    rw [hsame, hlength, hnothing he]
    exact ⟨hrate, hcounted⟩
  · obtain ⟨c', message, -, hsays⟩ := hturn.says (h.watch.staffed hd.regular.onTime.staffed)
    obtain ⟨hframes, hduties, -, hrate', -⟩ := hsays.counts
    simp only [Stats.duties, Prod.mk.injEq] at hduties
    have hnone := hnothing he
    refine ⟨hrate'.trans hrate, ?_⟩
    show d'.watch.simulation.network.medium.stats.framesSent =
      d'.airings.length + d'.watch.simulation.network.medium.stats.reservationMessages
    omega

/-! ## Stations send -/

theorem InSlot.later {q node : Nat} {slotEnd : Time} {control : Bool} {time later : Time}
    (h : d.InSlot c q node slotEnd control time) (hle : time ≤ later) :
    d.InSlot c q node slotEnd control later :=
  ⟨h.runs, h.ends, h.control, h.listed, h.begins.trans hle⟩

/-- The stations that send while an event is handled may do so in the slot that runs then, and what they
sent before is over. -/
structure Fair (c : Config) (d : Diary σ) (e : Entry Event) (s : Simulation σ) (x : Deed) (d' : Diary σ)
    (slotEnd : Time) (control : Bool) : Prop where
  sends : ∀ p ∈ x.senders, s.network.SendsIn slotEnd control p.1 p.2
  nodes : (x.senders.map Prod.fst).Nodup
  slot : ∀ p ∈ x.senders, ∃ q, d'.InSlot c q p.1 slotEnd control e.time
  ended : ∀ p ∈ x.senders, ∀ a ∈ d.airings, a.node = p.1 → a.finish c ≤ e.time

variable {slotEnd : Time} {control : Bool}

theorem Handles.start_eq (h : d.Handles e s x d') {a : Airing} (ha : a ∈ x.airings) :
    a.start = e.time := by
  rw [Airing.start, (mem_airings.1 ha).1, h.before]
  exact h.watch.now

theorem Fair.places (hd : d.Orderly c) (h : d.Handles e s x d')
    (hfair : Fair c d e s x d' slotEnd control) {a : Airing} (ha : a ∈ x.airings) :
    d'.Places c a ∧ a.slot < d'.watch.slots := by
  have hstart := h.start_eq ha
  obtain ⟨hdeed, hp⟩ := mem_airings.1 ha
  obtain ⟨t, item, receiver, ht, hitem, hreceiver, hframe, hfits⟩ := hfair.sends _ hp
  obtain ⟨q, hruns, rfl, rfl, hlisted, hbegins⟩ := hfair.slot _ hp
  have hslot : a.slot = q := by rw [Airing.slot, hdeed, h.slot, hruns, Nat.add_sub_cancel]
  have hrate : s.network.medium.dataRate = c.frame.dataRate := by
    rw [h.watch.medium]
    exact hd.dataRate
  have hfit := (h.watch.staffed hd.regular.onTime.staffed).manned a.node t ht
  have hbefore : a.deed.before = s.network := by rw [hdeed, h.before]
  refine ⟨⟨hslot.symm ▸ hlisted, ?_, ?_, t, item, ?_, ?_⟩, ?_⟩
  · rw [hslot, hstart]
    exact hbegins
  · rw [hslot, Airing.finish, hstart, ← h.watch.now, ← hrate]
    exact hfits
  · rw [hbefore]
    exact ht
  · have hframe' : a.frame = { item.frame with
        transmitter := Address.ofNode a.node
        receiver } := by
      rw [← hfit.address_eq]
      exact hframe
    rw [hslot, hbefore]
    split
    · rename_i hcontrol
      rw [decide_eq_true hcontrol] at hitem hreceiver
      cases hreceiver
      exact ⟨hitem, hframe'⟩
    · rename_i hcontrol
      rw [decide_eq_false hcontrol] at hitem hreceiver
      obtain ⟨hop, hhop, rfl⟩ := Option.map_eq_some_iff.1 hreceiver
      rw [hfit.node_eq] at hhop
      exact ⟨hitem, hop, hhop, hframe'⟩
  · rw [hslot, hruns]
    exact Nat.lt_succ_self q

theorem Fair.mayResume (hd : d.Orderly c) (h : d.Handles e s x d')
    (hfair : Fair c d e s x d' slotEnd control) {p : Nat × Frame}
    (hp : p ∈ x.senders) : d'.MayResume c p.1 slotEnd control
      (s.network.now + Timing.airtime p.2.size s.network.medium.dataRate) := by
  have hrate : s.network.medium.dataRate = c.frame.dataRate := by
    rw [h.watch.medium]
    exact hd.dataRate
  rw [hrate, show s.network.now = e.time from h.watch.now]
  obtain ⟨q, hslot⟩ := hfair.slot p hp
  refine ⟨⟨q, hslot.later (Nat.le_add_right _ _)⟩, fun a ha hnode => ?_⟩
  rw [h.airings_eq] at ha
  rcases List.mem_append.1 ha with ha | ha
  · exact (hfair.ended p hp a ha hnode).trans (Nat.le_add_right _ _)
  · have hsame : (a.node, a.frame) = p :=
      List.inj_on_of_nodup_map hfair.nodes (mem_airings.1 ha).2 hp hnode
    rw [Airing.finish, h.start_eq ha, ← hsame]

theorem Fair.apart (hd : d.Orderly c) (h : d.Handles e s x d')
    (hfair : Fair c d e s x d' slotEnd control) :
    d'.airings.Pairwise fun a b => a.node = b.node → a.finish c ≤ b.start := by
  rw [h.airings_eq]
  refine List.pairwise_append.2 ⟨hd.apart, ?_, fun a ha b hb hnode => ?_⟩
  · refine List.pairwise_map.2 ((List.pairwise_map.1 hfair.nodes).imp fun hne hnode => ?_)
    exact absurd hnode hne
  · rw [h.start_eq hb]
    exact hfair.ended _ (mem_airings.1 hb).2 a ha hnode

theorem Orderly.extend (hc : c.Accepted) (hd : d.Orderly c) (h : d.Handles e s x d')
    (hslots : d.watch.slots ≤ d'.watch.slots) (hfair : Fair c d e s x d' slotEnd control)
    (hpaced : d'.watch.medium.Paced (d'.MayResume c)) : d'.Orderly c := by
  obtain ⟨hrate, hcounted⟩ := hd.counts hc h
  refine ⟨hd.regular.handles hc h.watch, hrate, fun a ha => ?_, fun a ha => ?_, hfair.apart hd h, hpaced,
    hcounted⟩
  · rw [h.airings_eq] at ha
    rcases List.mem_append.1 ha with ha | ha
    · exact h.places (hd.places a ha)
    · exact (hfair.places hd h ha).1
  · rw [h.airings_eq] at ha
    rcases List.mem_append.1 ha with ha | ha
    · exact Nat.lt_of_lt_of_le (hd.slot_lt a ha) hslots
    · exact (hfair.places hd h ha).2

theorem Fair.ofNone (h : x.senders = []) : Fair c d e s x d' slotEnd control := by
  refine ⟨?_, ?_, ?_, ?_⟩ <;> rw [h]
  · exact nofun
  · exact List.nodup_nil
  · exact nofun
  · exact nofun

/-! ## A slot begins -/

/-- What stations do when an event is handled is not changed by what the run adds. -/
theorem speaks_of_serves {network : Network} {handled : Handled} {members : List Nat}
    {senders : List (Nat × Frame)} {event : Event} {s' : Simulation σ}
    (hserves : s.Serves event network handled s')
    (h : s.network.Speaks slotEnd control members senders network) :
    s.network.Speaks slotEnd control members senders s'.network := by
  obtain ⟨stats, -, hm⟩ := hserves.medium
  have hcount : Leads (fun _ e => e = .envStep) network.medium { network.medium with stats } :=
    .setStats h.traced stats
  have hrest : Leads (fun _ e => e = .envStep) { network.medium with stats } s'.network.medium ∧
      Medium.Sent 0 { network.medium with stats } s'.network.medium := by
    split at hm
    · exact ⟨.schedule hcount.traced rfl rfl hm, Medium.sent_schedule hm⟩
    · rw [hm]
      exact ⟨.refl hcount.traced, .refl _⟩
  have hall := h.leads (hcount.trans hrest.1) (fun t e he => he ▸ rfl) hrest.2.routes hrest.2.dataRate
  rw [hserves.same]
  exact hall

theorem Orderly.rests (hc : c.Accepted) (hd : d.Orderly c) (h : d.Handles e s x d')
    (htime : e.time = c.slotBegin d.watch.slots) (node : Nat) : s.network.medium.Rests node := by
  intro y hy E b hr
  obtain ⟨hy, hlt⟩ := (h.watch.rest y).1 hy
  obtain ⟨⟨q, hslot⟩, -⟩ := hd.paced.may y hy node E b hr
  have hend : E ≤ e.time := by
    rw [hslot.ends, htime, hslot.runs]
    exact hc.slotEnd_le q
  exact absurd hr.2 (Nat.not_lt_of_le (hend.trans (Entry.time_le_of_key_lt hlt)))

theorem Orderly.ended (hc : c.Accepted) (hd : d.Orderly c) {a : Airing} (ha : a ∈ d.airings) :
    a.finish c ≤ c.slotBegin d.watch.slots :=
  calc a.finish c ≤ c.slotBegin a.slot + c.slotLength a.slot := (hd.places a ha).ends
    _ ≤ c.slotBegin (a.slot + 1) := hc.slotEnd_le a.slot
    _ ≤ c.slotBegin d.watch.slots := hc.slotBegin_strictMono.monotone (hd.slot_lt a ha)

theorem Orderly.opens (hc : c.Accepted) (hd : d.Orderly c) (h : d.Handles e s x d')
    (hcadence : e.event.isCadence = true) : d'.Orderly c := by
  obtain ⟨htime, hevent, -, hslots, hopens⟩ := hd.regular.onTime.opens hc h.watch hcadence
  have hstaffed := h.watch.staffed hd.regular.onTime.staffed
  have hne : e.event ≠ .envStep := fun he => by
    rw [he] at hcadence
    cases hcadence
  obtain ⟨network, handled, hserves⟩ := Simulation.dispatch_serves h.watch.dispatch hne
  obtain ⟨rfl, rfl⟩ := Prod.mk.inj (Except.ok.inj (h.handle.symm.trans hserves.handle))
  have hcontroller : d'.watch.network.controller = x.after.controller := hserves.controller
  have honce : x.after.controller.Once := by
    rw [← hcontroller]
    exact ((hd.regular.handles hc h.watch).reachable.lawful hc).once
  have hlayout : x.after.controller.layout = c.frame := by
    rw [← hcontroller]
    exact hopens.layout.trans (h.watch.layout hd.regular.onTime)
  have hnodes : x.after.controller.nodeCount = c.nodeCount := by
    rw [← hcontroller]
    exact hopens.nodeCount.trans (h.watch.nodeCount hd.regular.onTime)
  have hlt : d.watch.slots % c.frame.slots c.nodeCount < s.network.controller.totalSlots := by
    rw [(congrArg Controller.totalSlots h.watch.controller).trans hd.regular.onTime.totalSlots]
    exact Nat.mod_lt _ hc.slots_pos
  have hnow : s.network.now = c.slotBegin d.watch.slots := h.watch.now.trans htime
  have hspeaks := speaks_of_serves hserves (Network.opening_speaks hstaffed.manned
    (h.watch.traced hd.regular.onTime.traced) hstaffed.shaped (hevent ▸ Event.slot?_opening _)
    hlt honce h.handle)
  have hend : s.network.now + x.after.controller.slotDuration
      (d.watch.slots % c.frame.slots c.nodeCount) = c.slotBegin d.watch.slots
        + c.slotLength d.watch.slots := by
    rw [hnow, Controller.slotDuration, hlayout, hnodes]
    rfl
  have hcontrol : Timing.isControlSlot x.after.controller.nodeCount
      (d.watch.slots % c.frame.slots c.nodeCount) = decide (c.IsControl d.watch.slots) := by
    rw [hnodes]
    rfl
  rw [hend, hcontrol] at hspeaks
  have hsenders : Handled.senders e.event x.handled = x.senders := by rw [Deed.senders, h.event]
  rw [hsenders] at hspeaks
  have hfair : Fair c d e s x d' (c.slotBegin d.watch.slots + c.slotLength d.watch.slots)
      (decide (c.IsControl d.watch.slots)) := by
    refine ⟨hspeaks.sends, hspeaks.nodes.nodup (honce.entitled _), fun p hp => ⟨d.watch.slots, hslots,
      rfl, rfl, ⟨x, ?_, h.event.trans hevent, ?_, ?_, ?_⟩, Nat.le_of_eq htime.symm⟩,
      fun p _ a ha _ => ?_⟩
    · rw [h.deeds]
      exact List.mem_append_right _ (.head _)
    · rw [h.slot, hslots, Nat.add_sub_cancel]
    · rw [h.before]
      exact hnow
    · exact hspeaks.nodes.subset (List.mem_map_of_mem hp)
    · rw [htime]
      exact hd.ended hc ha
  have hrests := hd.rests hc h htime
  exact hd.extend hc h (hslots ▸ Nat.le_succ _) hfair (hspeaks.paced _ (.ofRests hrests)
    (fun p _ => hrests p.1) fun p hp => hfair.mayResume hd h hp)

/-! ## Between the beginnings of slots -/

theorem Orderly.pacedBefore (hd : d.Orderly c) (h : d.Handles e s x d')
    (hslots : d'.watch.slots = d.watch.slots)
    (hrests : ∀ p ∈ x.senders, s.network.medium.Rests p.1) :
    s.network.medium.Paced (d'.MayResume c) := by
  refine ⟨fun y hy node E b hr => ?_, fun y hy z hz node E E' b b' hr hr' =>
    hd.paced.once y ((h.watch.rest y).1 hy).1 z ((h.watch.rest z).1 hz).1 node E E' b b' hr hr'⟩
  obtain ⟨⟨q, hslot⟩, hover⟩ := hd.paced.may y ((h.watch.rest y).1 hy).1 node E b hr
  refine ⟨⟨q, hslots.trans hslot.runs, hslot.ends, hslot.control, h.lists hslot.listed, hslot.begins⟩,
    fun a ha hnode => ?_⟩
  rw [h.airings_eq] at ha
  rcases List.mem_append.1 ha with ha | ha
  · exact hover a ha hnode
  · exact absurd hr (hnode ▸ hrests _ (mem_airings.1 ha).2 y hy E b)

theorem Orderly.continues (hc : c.Accepted) (hd : d.Orderly c) (h : d.Handles e s x d') {node : Nat}
    (hevent : e.event = .continueSlot node slotEnd control) : d'.Orderly c := by
  have hslots := h.watch.slots_eq (by rw [hevent]; rfl)
  have hstaffed := h.watch.staffed hd.regular.onTime.staffed
  obtain ⟨network, handled, hserves⟩ :=
    Simulation.dispatch_serves h.watch.dispatch (by rw [hevent]; exact nofun)
  obtain ⟨rfl, rfl⟩ := Prod.mk.inj (Except.ok.inj (h.handle.symm.trans hserves.handle))
  have hhandle := h.handle
  rw [hevent] at hhandle
  have hspeaks := speaks_of_serves hserves (Network.continueSlot_speaks hstaffed.manned
    (h.watch.traced hd.regular.onTime.traced) hhandle)
  have hsenders : Handled.senders (.continueSlot node slotEnd control) x.handled = x.senders := by
    rw [Deed.senders, h.event, hevent]
  rw [hsenders] at hspeaks
  have hnode : ∀ p ∈ x.senders, p.1 = node := fun p hp =>
    List.mem_singleton.1 (hspeaks.nodes.subset (List.mem_map_of_mem hp))
  -- whoever sends has the event in time, and no other one
  have hresumes : ∀ p ∈ x.senders, e.Resumes node slotEnd control := by
    intro p hp
    obtain ⟨t, item, receiver, -, -, -, -, hfits⟩ := hspeaks.sends p hp
    rw [show s.network.now = e.time from h.watch.now] at hfits
    have hair := Timing.airtime_pos p.2.size_pos s.network.medium.dataRate
    exact ⟨hevent, Nat.lt_of_lt_of_le (Nat.lt_add_of_pos_right hair) hfits⟩
  have hrests : ∀ p ∈ x.senders, s.network.medium.Rests p.1 := by
    intro p hp y hy E b hr
    obtain ⟨hy, hlt⟩ := (h.watch.rest y).1 hy
    rw [hnode p hp] at hr
    have hsame := hd.paced.once e h.watch.mem y hy node slotEnd E control b (hresumes p hp) hr
    rw [hsame] at hlt
    exact lt_irrefl _ hlt
  have hfair : Fair c d e s x d' slotEnd control := by
    refine ⟨hspeaks.sends, hspeaks.nodes.nodup (List.nodup_singleton _), fun p hp => ?_,
      fun p hp a ha hsame => ?_⟩
    · obtain ⟨⟨q, hslot⟩, -⟩ := hd.paced.may e h.watch.mem node slotEnd control (hresumes p hp)
      rw [hnode p hp]
      exact ⟨q, hslots.trans hslot.runs, hslot.ends, hslot.control, h.lists hslot.listed, hslot.begins⟩
    · obtain ⟨-, hover⟩ := hd.paced.may e h.watch.mem node slotEnd control (hresumes p hp)
      exact hover a ha (hsame.trans (hnode p hp))
  exact hd.extend hc h (Nat.le_of_eq hslots.symm) hfair (hspeaks.paced _
    (hd.pacedBefore h hslots hrests) hrests fun p hp => hfair.mayResume hd h hp)

theorem noneResumes_of_handles {w w' : Watch σ} (hw : w.OnTime c) (h : w.Handles e s w')
    (hslot : e.event.slot? = none) (hother : e.event.isResumption = false) :
    s.network.medium.NoneResumes w'.medium := by
  have hstaffed := h.staffed hw.staffed
  have htraced := h.traced hw.traced
  have hdispatch := h.dispatch
  cases hevent : e.event with
  | startFrame =>
    rw [hevent] at hslot
    cases hslot
  | runSlot slot =>
    rw [hevent] at hslot
    cases hslot
  | continueSlot node slotEnd control =>
    rw [hevent] at hother
    cases hother
  | deliver receiver frame =>
    have hsane := hw.traced.sane e h.mem
    rw [hevent] at hdispatch hsane
    exact (Medium.Quiet.leads htraced
      (Simulation.dispatch_deliver hstaffed hsane hdispatch).1.does).noneResumes fun _ _ => False.elim
  | envStep =>
    rw [hevent] at hdispatch
    have hnone : ∀ (t : Time) (e : Event), False → e.isResumption = false := fun _ _ => False.elim
    rcases (Simulation.dispatch_envStep hstaffed hdispatch).2.air with hquiet | ⟨-, m, hquiet, hair⟩
    · exact (Medium.Quiet.leads htraced hquiet).noneResumes hnone
    · have hbefore := Medium.Quiet.leads htraced hquiet
      exact (hbefore.noneResumes hnone).trans ((hair.leads hbefore.traced).noneResumes hnone)
  | arrival node =>
    rw [hevent] at hdispatch
    have hdoes := (Simulation.dispatch_arrival hstaffed hdispatch).1.does
    refine (hdoes.leads htraced (fun _ _ => False.elim) ?_).noneResumes ?_ <;>
      · rintro t y rfl
        rfl

theorem Orderly.passes (hc : c.Accepted) (hd : d.Orderly c) (h : d.Handles e s x d')
    (hslot : e.event.slot? = none) (hother : e.event.isResumption = false) : d'.Orderly c := by
  have hslots : d'.watch.slots = d.watch.slots := h.watch.slots_eq (by rw [Event.isCadence, hslot]; rfl)
  have hsenders : x.senders = [] := by
    rw [Deed.senders, h.event]
    cases hevent : e.event with
    | startFrame =>
      rw [hevent] at hslot
      cases hslot
    | runSlot slot =>
      rw [hevent] at hslot
      cases hslot
    | continueSlot node slotEnd control =>
      rw [hevent] at hother
      cases hother
    | _ => rfl
  refine hd.extend hc h (Nat.le_of_eq hslots.symm)
    (.ofNone hsenders : Fair c d e s x d' 0 false) ((hd.pacedBefore h hslots ?_).after
      (noneResumes_of_handles hd.regular.onTime h.watch hslot hother))
  rw [hsenders]
  exact fun node hnode => absurd hnode List.not_mem_nil

theorem Orderly.handles (hc : c.Accepted) (hd : d.Orderly c) (h : d.Handles e s x d') :
    d'.Orderly c := by
  cases hevent : e.event with
  | startFrame => exact hd.opens hc h (by rw [hevent]; rfl)
  | runSlot slot => exact hd.opens hc h (by rw [hevent]; rfl)
  | continueSlot node slotEnd control => exact hd.continues hc h hevent
  | _ => exact hd.passes hc h (by rw [hevent]; rfl) (by rw [hevent]; rfl)

theorem Orderly.idles (hd : d.Orderly c) (hw : d.watch.Idles d'.watch) (hdeeds : d'.deeds = d.deeds) :
    d'.Orderly c := by
  have hairings : d'.airings = d.airings := by rw [airings, hdeeds, airings]
  have hlists : ∀ {q node}, d.Lists c q node → d'.Lists c q node := by
    intro q node hl
    rwa [Lists, hdeeds]
  have hslots : d'.watch.slots = d.watch.slots := by
    rw [hw.same]
    rfl
  have hpaced : d.watch.medium.Paced (d'.MayResume c) := by
    refine ⟨fun y hy node E b hr => ?_, hd.paced.once⟩
    obtain ⟨⟨q, hslot⟩, hover⟩ := hd.paced.may y hy node E b hr
    exact ⟨⟨q, hslots.trans hslot.runs, hslot.ends, hslot.control, hlists hslot.listed, hslot.begins⟩,
      hairings ▸ hover⟩
  refine ⟨hd.regular.idles hw, ?_, ?_, ?_, hairings ▸ hd.apart, ?_, ?_⟩
  · rw [hw.medium]
    exact hd.dataRate
  · rw [hairings]
    exact fun a ha => ⟨hlists (hd.places a ha).listed, (hd.places a ha).begins, (hd.places a ha).ends,
      (hd.places a ha).taken⟩
  · rw [hairings, hslots]
    exact hd.slot_lt
  · refine hpaced.after ((hw.leads hd.regular.onTime.traced).noneResumes ?_)
    rintro t y ⟨node, rfl⟩
    rfl
  · rw [hairings, hw.medium]
    exact hd.counted

theorem Orderly.step (hc : c.Accepted) (hd : d.Orderly c) {a : Watch.Act} (h : d.step a = some d') :
    d'.Orderly c := by
  rcases step_cases hd.regular.onTime.traced.ordered h with ⟨e, s, x, hh⟩ | ⟨hidle, hdeeds⟩
  · exact hd.handles hc hh
  · exact hd.idles hidle hdeeds

theorem Orderly.start {agent : Agent σ} {agentState : σ} {s s' : Simulation σ}
    (hnew : Simulation.new c agent agentState = .ok s) (h : s.begin = .ok s') :
    (start s').Orderly c := by
  have hn := Simulation.still_of_new hnew
  have hsent := Simulation.begin_sent h
  have hrate : s.network.medium.dataRate = c.frame.dataRate := by
    obtain ⟨network, hn', rfl⟩ := Fault.map_eq_ok.1 hnew
    obtain ⟨positions, -, hn'⟩ := Fault.bind_eq_ok.1 hn'
    obtain ⟨controller, -, hn'⟩ := Fault.bind_eq_ok.1 hn'
    cases hn'
    rfl
  have hduties := hsent.counted.duties
  simp only [Stats.duties, Prod.mk.injEq] at hduties
  have hnobody : s'.network.medium.Paced ((Diary.start s').MayResume c) := by
    refine .ofRests fun node => ?_
    have hnone : s.network.medium.NoneResumes s'.network.medium := by
      have hschedules := Simulation.begin_schedules hn.started h
      refine (hschedules.leads hn.traced (fun _ _ => False.elim) ?_).noneResumes ?_ <;>
      · rintro t y (rfl | ⟨node, rfl⟩) <;> rfl
    refine Medium.Rests.after (fun y hy => ?_) hnone
    rw [hn.events] at hy
    cases hy
  have hempty : (Diary.start s').airings = [] := rfl
  refine ⟨.start hnew h, hsent.dataRate.trans hrate, ?_, ?_, ?_, hnobody, ?_⟩ <;> rw [hempty]
  · exact fun a ha => absurd ha List.not_mem_nil
  · exact fun a ha => absurd ha List.not_mem_nil
  · exact List.Pairwise.nil
  · show s'.network.medium.stats.framesSent = 0 + s'.network.medium.stats.reservationMessages
    rw [hsent.counted.framesSent, hduties.1, hn.stats]

/-- In every state of a run, whatever the agent answers and whenever packets arrive: each frame that a
station has put on the air from its queues lies, from its start until the air is free again, within a
slot that began with the node in the slot map; in a control slot it came from the control queue and goes
to all, in a data slot it came from the data queue and goes to the next hop. Of the frames of one node
each is over before the next one starts. Frames that were counted as sent are these and the reservations. -/
theorem transmissions_in_slots (hc : c.Accepted) {agent : Agent σ} {agentState : σ}
    {s s' : Simulation σ} (hnew : Simulation.new c agent agentState = .ok s)
    (hbegin : s.begin = .ok s') {acts : List Watch.Act} (hrun : run acts (start s') = some d) :
    (∀ a ∈ d.airings, d.Places c a) ∧
    (d.airings.Pairwise fun a b => a.node = b.node → a.finish c ≤ b.start) ∧
    d.watch.medium.stats.framesSent =
      d.airings.length + d.watch.medium.stats.reservationMessages := by
  have hd : d.Orderly c :=
    Acts.run_induction (fun _ _ _ _ hd hstep => hd.step hc hstep) (.start hnew hbegin) hrun
  exact ⟨hd.places, hd.apart, hd.counted⟩

/-- Two nodes that hear each other, with room for two packets, of which a slot carries both. -/
def fastPair : Config := { Config.pair with
  frame := { dataSlots := 1, dataRate := 20000000 }
  queue := { maxPackets := 2 } }

theorem accepted_fastPair : fastPair.Accepted := rfl

/-- Two packets are made at the first node, and both are delivered. -/
def bothPackets : List Watch.Act := Watch.twoPackets ++ List.replicate 2 (.next (Time.ofMillis 10))

theorem run_fastPair : ∃ s s',
    Simulation.new fastPair (.forNodes [some [0], some []]) Script.silence = .ok s ∧
    s.begin = .ok s' ∧ (run bothPackets (start s')).map (fun d => d.airings.map fun a =>
      (a.node, a.slot, a.frame.uid, a.start, a.finish fastPair))
      = some [(0, 5, 0, 3200010, 3611210), (0, 5, 1, 3611210, 4022410)] :=
  ⟨_, _, rfl, rfl, by decide +kernel⟩

/-- In the data slot of the second frame the first node sends both its packets. -/
theorem transmissions_in_slots_fastPair : ∃ s s' d,
    Simulation.new fastPair (.forNodes [some [0], some []]) Script.silence = .ok s ∧
    s.begin = .ok s' ∧
    run bothPackets (start s') = some d ∧
    d.airings.map (fun a => (a.node, a.slot, a.frame.uid, a.start, a.finish fastPair))
      = [(0, 5, 0, 3200010, 3611210), (0, 5, 1, 3611210, 4022410)] ∧
    (∀ a ∈ d.airings, d.Places fastPair a) ∧
    d.airings.Pairwise (fun a b => a.node = b.node → a.finish fastPair ≤ b.start) ∧
    d.watch.medium.stats.framesSent =
      d.airings.length + d.watch.medium.stats.reservationMessages := by
  obtain ⟨s, s', hnew, hbegin, hrun⟩ := run_fastPair
  obtain ⟨d, hd, hairings⟩ := Option.map_eq_some_iff.1 hrun
  obtain ⟨hplaces, hapart, hcounted⟩ := transmissions_in_slots accepted_fastPair hnew hbegin hd
  exact ⟨s, s', d, hnew, hbegin, hd, hairings, hplaces, hapart, hcounted⟩

end Diary

end SlotNet
