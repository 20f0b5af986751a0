import SlotNet.Proofs.Cadence
import SlotNet.Proofs.Mirror

/-!
# What was sent and what became of it

The sendings that are written down in a run are the deliveries of an event loop (`Recorded`). So a sending
is cancelled if and only if it runs into another one or another one runs into it (`cancelled_iff`), the
collisions are counted rightly (`collisions_eq`), and what is not cancelled is handed out in its turn
(`handed_of_key_le`).
-/

namespace SlotNet

variable {σ : Type}

structure Sending.Is (x : Sending) (d : Delivery) : Prop where
  id : x.id = d.id
  time : x.time = d.time
  event : d.event = .deliver x.receiver x.frame
  sender : d.sender = x.frame.transmitter
  receiver : d.receiver = Address.ofNode x.receiver
  during : d.during = x.during

theorem Sending.Is.key {x : Sending} {d : Delivery} (h : x.Is d) : d.key = x.key := by
  rw [Delivery.key, Sending.key, h.id, h.time]

namespace Loop.Mirrors

variable {l : Loop} {m : Medium}

theorem entry_eq (h : l.Mirrors m) {e : Entry Event} (he : e ∈ m.events.entries) {d : Delivery}
    (hd : d ∈ l.deliveries) (hid : d.id = e.id) : e.time = d.time ∧ e.event = d.event := by
  have hlt : l.handling < d.key := by
    refine lt_of_not_ge fun hle => ?_
    exact h.sound.gone d hd hle e (h.events ▸ he) hid.symm
  obtain ⟨x, hx, htime, hid', hevent⟩ := h.sound.waiting d hd hlt
  obtain rfl := h.sound.ordered.eq_of_id hx (h.events ▸ he) (hid'.trans hid)
  exact ⟨htime, hevent⟩

end Loop.Mirrors

namespace Watch

open Medium (Does Leads)

variable {w w' : Watch σ} {e : Entry Event} {s : Simulation σ} {l : Loop} {nodes : Nat}
  {sends : Nat → Frame → Prop}

/-- What is written down in a run is what an event loop writes down. -/
structure Recorded (nodes : Nat) (w : Watch σ) (l : Loop) : Prop where
  mirrors : l.Mirrors w.medium
  listens : w.medium.Listens nodes
  places : w.medium.positions.length = nodes
  handed : l.handed = w.handed
  sent : ∀ x ∈ w.sent, x.receiver < nodes ∧ ∃ d ∈ l.deliveries, x.Is d
  deliveries : ∀ d ∈ l.deliveries, ∃ x ∈ w.sent, x.Is d
  distinct : (w.sent.map (·.id)).Nodup
  cancelled : ∀ id, id ∈ l.cancelled ↔ ∃ e ∈ w.cancelledEvents, e.id = id
  lost : ∀ e ∈ w.cancelledEvents, ∃ x ∈ w.sent, x.id = e.id

theorem Recorded.sending_of_entry (hw : w.Recorded nodes l) {e : Entry Event} (he : e ∈ w.entries)
    {receiver : Nat} {frame : Frame} (hevent : e.event = .deliver receiver frame) :
    ∃ x ∈ w.sent, x.time = e.time ∧ x.frame = frame := by
  obtain ⟨d, hd, hid⟩ := hw.mirrors.known e (hw.mirrors.events ▸ he) (by rw [hevent]; rfl)
  obtain ⟨htime, hevent'⟩ := hw.mirrors.entry_eq he hd hid
  obtain ⟨x, hx, his⟩ := hw.deliveries d hd
  rw [hevent, his.event] at hevent'
  cases hevent'
  exact ⟨x, hx, his.time.trans htime.symm, rfl⟩

theorem Recorded.id_lt (hw : w.Recorded nodes l) {x : Sending} (hx : x ∈ w.sent) :
    x.id < w.medium.events.nextId := by
  obtain ⟨-, d, hd, his⟩ := hw.sent x hx
  rw [his.id, ← hw.mirrors.events]
  exact hw.mirrors.sound.delivery_lt d hd

theorem Recorded.goOn (hw : w.Recorded nodes l) {l' : Loop} (hl' : l'.Mirrors w'.medium)
    (hextends : Loop.Extends sends w.medium l l')
    (hleads : Leads (fun _ e => e.isDelivery = false) w.medium w'.medium)
    (hhanded : w'.handed = w.handed) (hskipped : w'.skipped = w.skipped)
    (hkept : ∀ x ∈ w.sent, x ∈ w'.sent)
    (hsent : ∀ x ∈ w'.sent, x ∈ w.sent ∨ (x.receiver < nodes ∧ ∃ d ∈ l'.deliveries, x.Is d))
    (hnew : ∀ d ∈ l'.deliveries, d ∈ l.deliveries ∨ ∃ x ∈ w'.sent, x.Is d)
    (hdistinct : (w'.sent.map (·.id)).Nodup) : w'.Recorded nodes l' := by
  have hwritten : ∀ d ∈ l'.deliveries, ∃ x ∈ w'.sent, x.Is d := by
    intro d hd
    rcases hnew d hd with hold | hx
    · obtain ⟨x, hx, his⟩ := hw.deliveries d hold
      exact ⟨x, hkept x hx, his⟩
    · exact hx
  have hmarked : ∀ id ∈ l'.cancelled, (∃ y ∈ l'.events.entries, y.id = id) →
      ∃ y ∈ w'.cancelledEvents, y.id = id := by
    rintro id hid ⟨y, hy, rfl⟩
    have hcancelled := (hl'.sound.marked y hy).2 hid
    rw [hl'.events] at hy
    exact ⟨y, List.mem_append_right _ (List.mem_filter.2 ⟨hy, hcancelled⟩), rfl⟩
  have hold : ∀ x ∈ w.cancelledEvents, ∃ y ∈ w'.sent, y.id = x.id := by
    intro x hx
    obtain ⟨y, hy, hid⟩ := hw.lost x hx
    exact ⟨y, hkept y hy, hid⟩
  refine ⟨hl', hleads.endpoints.trans hw.listens, hleads.positions ▸ hw.places, ?handed, ?sent,
    hwritten, hdistinct, fun id => ⟨?known, ?marked⟩, ?lost⟩
  case handed => rw [hextends.handed, hw.handed, hhanded]
  case sent =>
    intro x hx
    rcases hsent x hx with hx | hx
    · obtain ⟨hlt, d, hd, his⟩ := hw.sent x hx
      exact ⟨hlt, d, hextends.kept d hd, his⟩
    · exact hx
  case known =>
    intro hid
    rcases hextends.cancelled id hid with hid' | hpresent
    · obtain ⟨x, hx, rfl⟩ := (hw.cancelled id).1 hid'
      rcases List.mem_append.1 hx with hx | hx
      · exact ⟨x, List.mem_append_left _ (hskipped ▸ hx), rfl⟩
      · have hmem : x ∈ w.medium.events.entries := (List.mem_filter.1 hx).1
        rw [← hw.mirrors.events] at hmem
        exact hmarked x.id hid (hextends.present x hmem)
    · exact hmarked id hid hpresent
  case marked =>
    rintro ⟨x, hx, rfl⟩
    rcases List.mem_append.1 hx with hx | hx
    · rw [hskipped] at hx
      exact hextends.cancelled_mono _ ((hw.cancelled x.id).2 ⟨x, List.mem_append_left _ hx, rfl⟩)
    · obtain ⟨hmem, hcancelled⟩ := List.mem_filter.1 hx
      exact (hl'.sound.marked x (hl'.events ▸ hmem)).1 hcancelled
  case lost =>
    intro x hx
    rcases List.mem_append.1 hx with hx | hx
    · exact hold x (List.mem_append_left _ (hskipped ▸ hx))
    obtain ⟨hmem, hcancelled⟩ := List.mem_filter.1 hx
    cases hdelivery : x.event.isDelivery with
    | true =>
      obtain ⟨d, hd, hid⟩ := hl'.known x (hl'.events ▸ hmem) hdelivery
      obtain ⟨y, hy, his⟩ := hwritten d hd
      exact ⟨y, hy, his.id.trans hid⟩
    | false =>
      rcases hleads.other x hmem hdelivery with hrest | ⟨-, hnot, -⟩
      · exact hold x (List.mem_append_right _ (List.mem_filter.2 ⟨hrest, hcancelled⟩))
      · rw [hcancelled] at hnot
        cases hnot

theorem Recorded.idles (hw : w.Recorded nodes l) (hm : w.medium.Traced) (h : w.Idles w') :
    ∃ l', w'.Recorded nodes l' := by
  have hplans : ∀ (t : Time) (e : Event), (∃ node, e = .arrival node) → e.isDelivery = false := by
    rintro t e ⟨node, rfl⟩
    rfl
  obtain ⟨l', hl', hextends⟩ := hw.mirrors.does hw.listens hplans h.does
  have hleads := h.leads hm
  have hsame : w'.sent = w.sent ∧ w'.handed = w.handed ∧ w'.skipped = w.skipped := by
    rw [h.same]
    exact ⟨rfl, rfl, rfl⟩
  obtain ⟨hsent, hhanded, hskipped⟩ := hsame
  refine ⟨l', hw.goOn hl' hextends (hleads.mono hplans) hhanded hskipped (fun x hx => hsent ▸ hx)
    (fun x hx => .inl (hsent ▸ hx)) (fun d hd => .inl ?_) (hsent ▸ hw.distinct)⟩
  rcases hextends.new d hd with hold | ⟨-, -, a, b, f, delay, hsend, -⟩
  · exact hold
  · exact hsend.elim

/-! ## An event is handled -/

/-- The run when an event was handed out, and was not handled yet. -/
def handOut (w : Watch σ) (e : Entry Event) (s : Simulation σ) : Watch σ :=
  { w with
    simulation := s
    handed := w.handed ++ [e]
    skipped := w.skipped ++ w.network.skipped }

theorem Recorded.handedOut (hw : w.Recorded nodes l) (h : w.Handles e s w') :
    (w.handOut e s).Recorded nodes { l with
      events := s.network.medium.events
      handling := (e.key : WithBot Key)
      handed := l.handed ++ [e] } := by
  have hl := hw.mirrors.handle h.head h.popped h.pending
  rw [← h.medium] at hl
  -- the cancelled events are those of before
  have hcancelled : ∀ x, x ∈ (w.handOut e s).cancelledEvents ↔ x ∈ w.cancelledEvents := by
    intro x
    simp only [cancelledEvents, handOut, entries, Watch.medium, Watch.network, List.mem_append,
      List.mem_filter, h.rest]
    constructor
    · rintro ((hx | hx) | ⟨⟨hx, -⟩, hc⟩)
      · exact .inl hx
      · obtain ⟨hmem, hlt⟩ := (h.passed x).1 hx
        exact .inr ⟨hmem, h.marked x hmem hlt⟩
      · exact .inr ⟨hx, hc⟩
    · rintro (hx | ⟨hx, hc⟩)
      · exact .inl (.inl hx)
      · rcases lt_trichotomy x.key e.key with hlt | heq | hgt
        · exact .inl (.inr ((h.passed x).2 ⟨hx, hlt⟩))
        · have hxe : x.id = e.id := congrArg (fun k : Key => (ofLex k).2) heq
          have ho : w.medium.events.Ordered := hw.mirrors.events ▸ hw.mirrors.sound.ordered
          rw [ho.eq_of_id hx h.mem hxe, h.pending] at hc
          cases hc
        · exact .inr ⟨⟨hx, hgt⟩, hc⟩
  refine ⟨hl, ?_, ?_, ?_, hw.sent, hw.deliveries, hw.distinct, fun id => ?_, fun x hx => ?_⟩
  · show s.network.medium.channel.endpoints = _
    rw [h.medium]
    exact hw.listens
  · show s.network.medium.positions.length = nodes
    rw [h.medium]
    exact hw.places
  · show l.handed ++ [e] = w.handed ++ [e]
    rw [hw.handed]
  · rw [show (id ∈ l.cancelled ↔ _) from hw.cancelled id]
    simp only [hcancelled]
  · exact hw.lost x ((hcancelled x).1 hx)

theorem Handles.sent_eq (h : w.Handles e s w') : w'.sent = w.sent ++ w'.entries.filterMap
    (sendingOf s.network.medium.events.nextId e.key (w'.slots - 1)
      (w'.network.controller.entitled ((w'.slots - 1) % w'.network.controller.totalSlots))) := by
  rw [h.noted, h.nextId]
  rfl

theorem Handles.sent_mono (h : w.Handles e s w') {x : Sending} (hx : x ∈ w.sent) : x ∈ w'.sent := by
  rw [h.sent_eq]
  exact List.mem_append_left _ hx

theorem id_of_sendingOf {first slot : Nat} {during : Key} {entitled : List Nat} {y : Entry Event}
    {x : Sending} (h : sendingOf first during slot entitled y = some x) : x.id = y.id ∧ first ≤ x.id := by
  unfold sendingOf at h
  split at h
  · split at h
    · rename_i hid
      cases h
      exact ⟨rfl, hid⟩
    · cases h
  · cases h

theorem nodup_filterMap_sendingOf (first slot : Nat) (during : Key) (entitled : List Nat)
    {entries : List (Entry Event)} (h : (entries.map (·.id)).Nodup) :
    ((entries.filterMap (sendingOf first during slot entitled)).map (·.id)).Nodup := by
  refine h.sublist ?_
  induction entries with
  | nil => exact .slnil
  | cons y entries ih =>
    rw [List.filterMap_cons, List.map_cons]
    have hrest := ih (List.nodup_cons.1 h).2
    cases hy : sendingOf first during slot entitled y with
    | none => exact hrest.cons _
    | some x =>
      rw [List.map_cons, (id_of_sendingOf hy).1]
      exact hrest.cons_cons _

/-- What is known of a frame that was sent while an event was handled. -/
structure SentDuring (sends : Nat → Frame → Prop) (m : Medium) (e : Entry Event) (w' : Watch σ)
    (x : Sending) : Prop where
  id : m.events.nextId ≤ x.id
  during : x.during = e.key
  slot : x.slot = w'.slots - 1
  entitled : x.entitled = w'.network.controller.entitled (x.slot % w'.network.controller.totalSlots)
  sender : ∃ sender delay, sends sender x.frame ∧ m.Reaches sender x.receiver delay ∧
    x.time = e.time + delay

theorem Recorded.sent_new (hw : (w.handOut e s).Recorded nodes l) (h : w.Handles e s w')
    (hhandling : l.handling = e.key) {l' : Loop} (hl' : l'.Mirrors w'.medium)
    (hextends : Loop.Extends sends s.network.medium l l')
    (hsends : ∀ a f, sends a f → f.transmitter = Address.ofNode a) {x : Sending} (hx : x ∈ w'.sent) :
    x ∈ w.sent ∨ ((x.receiver < nodes ∧ ∃ d ∈ l'.deliveries, x.Is d) ∧
      SentDuring sends s.network.medium e w' x) := by
  rw [h.sent_eq] at hx
  rcases List.mem_append.1 hx with hx | hx
  · exact .inl hx
  obtain ⟨y, hy, hsending⟩ := List.mem_filterMap.1 hx
  unfold sendingOf at hsending
  split at hsending
  · rename_i receiver frame hdeliver
    split at hsending
    · rename_i hid
      cases hsending
      obtain ⟨d, hd, hdy⟩ := hl'.known y (hl'.events ▸ hy) (by rw [hdeliver]; rfl)
      obtain ⟨htime, hevent⟩ := hl'.entry_eq hy hd hdy
      rcases hextends.new d hd with
        hold | ⟨-, hduring, a, b, f, delay, hsend, hreaches, ht, he, ha, hb⟩
      · have hlt : d.id < s.network.medium.events.nextId :=
          hw.mirrors.events ▸ hw.mirrors.sound.delivery_lt d hold
        rw [hdy] at hlt
        exact absurd hid (Nat.not_le_of_lt hlt)
      · rw [hdeliver, he] at hevent
        cases hevent
        have hlt : receiver < nodes := by
          obtain ⟨-, here, there, -, hthere, -⟩ := hreaches
          exact hw.places ▸ (List.getElem?_eq_some_iff.1 hthere).1
        have hsender : d.sender = frame.transmitter := ha.trans (hsends a frame hsend).symm
        have harrives : y.time = e.time + delay := by
          rw [htime, ht]
          exact congrArg (· + delay) h.now
        exact .inr ⟨⟨hlt, d, hd, hdy.symm, htime, he, hsender, hb, hduring.trans hhandling⟩,
          ⟨hid, rfl, rfl, rfl, a, delay, hsend, hreaches, harrives⟩⟩
    · cases hsending
  · cases hsending

theorem Recorded.key_lt_new (hw : (w.handOut e s).Recorded nodes l) (hhandling : l.handling = e.key)
    (hnow : s.network.medium.events.now = e.time) {d : Delivery} {delay : Time}
    (hid : l.events.nextId ≤ d.id) (htime : d.time = s.network.medium.now + delay) :
    e.key < d.key := by
  have hpresent := (hw.mirrors.sound.present e.key hhandling).2
  rw [Entry.key, Delivery.key, Prod.Lex.toLex_lt_toLex, htime, Medium.now, hnow]
  rcases Nat.eq_zero_or_pos delay with rfl | hdelay
  · exact .inr ⟨rfl, Nat.lt_of_lt_of_le hpresent hid⟩
  · exact .inl (Nat.lt_add_of_pos_right hdelay)

theorem Recorded.written_new (hw : (w.handOut e s).Recorded nodes l) (h : w.Handles e s w')
    (hhandling : l.handling = e.key) {l' : Loop} (hl' : l'.Mirrors w'.medium)
    (hextends : Loop.Extends sends s.network.medium l l')
    (hsends : ∀ a f, sends a f → f.transmitter = Address.ofNode a) {d : Delivery}
    (hd : d ∈ l'.deliveries) : d ∈ l.deliveries ∨ ∃ x ∈ w'.sent, x.Is d := by
  rcases hextends.new d hd with hold | ⟨hid, hduring, a, b, f, delay, hsend, -, ht, he, ha, hb⟩
  · exact .inl hold
  right
  have hlt : l'.handling < d.key := by
    rw [hextends.handling, hhandling]
    exact WithBot.coe_lt_coe.2 (hw.key_lt_new hhandling h.now hid ht)
  obtain ⟨y, hy, htime, hyd, hevent⟩ := hl'.sound.waiting d hd hlt
  rw [hl'.events] at hy
  have hfirst : s.network.medium.events.nextId ≤ y.id := by
    rw [hyd]
    exact hw.mirrors.events ▸ hid
  have hmem : (⟨y.id, y.time, b, f, e.key, w'.slots - 1, w'.network.controller.entitled
      ((w'.slots - 1) % w'.network.controller.totalSlots)⟩ : Sending) ∈ w'.sent := by
    rw [h.sent_eq]
    refine List.mem_append_right _ (List.mem_filterMap.2 ⟨y, hy, ?_⟩)
    unfold sendingOf
    rw [hevent, he]
    exact if_pos hfirst
  exact ⟨_, hmem, hyd, htime, he, ha.trans (hsends a f hsend).symm, hb, hduring.trans hhandling⟩

/-- After the event was handled the new sendings are the deliveries of what was sent just now. -/
theorem Recorded.handles (hw : (w.handOut e s).Recorded nodes l) (h : w.Handles e s w')
    (hhandling : l.handling = e.key) {l' : Loop} (hl' : l'.Mirrors w'.medium)
    (hextends : Loop.Extends sends s.network.medium l l')
    (hsends : ∀ a f, sends a f → f.transmitter = Address.ofNode a)
    (hleads : Leads (fun _ e => e.isDelivery = false) s.network.medium w'.medium) :
    w'.Recorded nodes l' ∧
      ∀ x ∈ w'.sent, x ∈ w.sent ∨ SentDuring sends s.network.medium e w' x := by
  have hsent := fun x (hx : x ∈ w'.sent) => hw.sent_new h hhandling hl' hextends hsends hx
  have hdistinct : (w'.sent.map (·.id)).Nodup := by
    rw [h.sent_eq, List.map_append]
    refine List.nodup_append'.2 ⟨hw.distinct,
      nodup_filterMap_sendingOf _ _ _ _ hleads.traced.ordered.distinct, fun id hid hid' => ?_⟩
    obtain ⟨x, hx, rfl⟩ := List.mem_map.1 hid
    obtain ⟨y, hy, hxy⟩ := List.mem_map.1 hid'
    obtain ⟨entry, -, hsending⟩ := List.mem_filterMap.1 hy
    have hle := (id_of_sendingOf hsending).2
    have hlt : x.id < s.network.medium.events.nextId := hw.id_lt hx
    omega
  have hrecorded : w'.Recorded nodes l' :=
    hw.goOn hl' hextends hleads h.handed_eq h.skipped_eq (fun x hx => h.sent_mono hx)
      (fun x hx => (hsent x hx).imp_right And.left)
      (fun d hd => hw.written_new h hhandling hl' hextends hsends hd) hdistinct
  exact ⟨hrecorded, fun x hx => (hsent x hx).imp_right And.right⟩

/-! ## What becomes of the sendings -/

/-- One sending runs into another one exactly if the deliveries overlap and are rivals. -/
theorem Recorded.runsInto_iff (hw : w.Recorded nodes l) (hnodes : nodes + 1 < Address.limit)
    {x y : Sending} (hx : x ∈ w.sent) (hy : y ∈ w.sent) {d d' : Delivery} (hd : d ∈ l.deliveries)
    (hd' : d' ∈ l.deliveries) (hxd : x.Is d) (hyd : y.Is d') :
    x.RunsInto y ↔ d'.Rivals d ∧ d'.Overlaps d := by
  have hduring : d.during < (d'.key : WithBot Key) ↔ x.during < y.key := by
    rw [hxd.during, hyd.key, WithBot.coe_lt_coe]
  have hreceiver : d'.receiver = d.receiver ↔ y.receiver = x.receiver := by
    rw [hxd.receiver, hyd.receiver]
    have hxlt := (hw.sent x hx).1
    have hylt := (hw.sent y hy).1
    exact ⟨Address.ofNode_injective (by omega) (by omega), fun h => by rw [h]⟩
  have hsender : d'.sender ≠ d.sender ↔ y.frame.transmitter ≠ x.frame.transmitter := by
    rw [hxd.sender, hyd.sender]
  unfold Sending.RunsInto Delivery.Rivals Delivery.Overlaps
  rw [hduring, hreceiver, hsender, hxd.id, hyd.id]
  constructor
  · rintro ⟨hid, htime, hr, hs⟩
    obtain ⟨hcall, hsame⟩ := hw.mirrors.paced d' hd' d hd hid
    refine ⟨⟨hr, hs⟩, Nat.lt_of_le_of_ne hcall fun he => ?_, htime⟩
    exact hsender.2 hs (hsame he)
  · rintro ⟨⟨hr, hs⟩, hcall, htime⟩
    refine ⟨?_, htime, hr, hs⟩
    rcases Nat.lt_trichotomy d'.id d.id with hlt | heq | hgt
    · exact hlt
    · rw [List.inj_on_of_nodup_map hw.mirrors.sound.distinct hd' hd heq] at hcall
      exact absurd hcall (Nat.lt_irrefl _)
    · exact absurd hcall (Nat.not_lt_of_le (hw.mirrors.paced d hd d' hd' hgt).1)

theorem Recorded.cancelled_iff (hw : w.Recorded nodes l) (hnodes : nodes + 1 < Address.limit)
    {x : Sending} (hx : x ∈ w.sent) : (∃ e ∈ w.cancelledEvents, e.id = x.id) ↔
      ∃ y ∈ w.sent, x.RunsInto y ∨ y.RunsInto x := by
  obtain ⟨-, d, hd, hxd⟩ := hw.sent x hx
  rw [← hw.cancelled, hxd.id, hw.mirrors.sound.collided d hd]
  constructor
  · rintro ⟨d', hd', hrivals, hoverlaps⟩
    obtain ⟨y, hy, hyd⟩ := hw.deliveries d' hd'
    have hrivals' : d'.Rivals d := ⟨hrivals.1.symm, hrivals.2.symm⟩
    refine ⟨y, hy, hoverlaps.symm.imp (fun ho => ?_) fun ho => ?_⟩
    · exact (hw.runsInto_iff hnodes hx hy hd hd' hxd hyd).2 ⟨hrivals', ho⟩
    · exact (hw.runsInto_iff hnodes hy hx hd' hd hyd hxd).2 ⟨hrivals, ho⟩
  · rintro ⟨y, hy, hruns⟩
    obtain ⟨-, d', hd', hyd⟩ := hw.sent y hy
    rcases hruns with hruns | hruns
    · obtain ⟨hrivals, ho⟩ := (hw.runsInto_iff hnodes hx hy hd hd' hxd hyd).1 hruns
      exact ⟨d', hd', ⟨hrivals.1.symm, hrivals.2.symm⟩, .inr ho⟩
    · obtain ⟨hrivals, ho⟩ := (hw.runsInto_iff hnodes hy hx hd' hd hyd hxd).1 hruns
      exact ⟨d', hd', hrivals, .inl ho⟩

theorem Recorded.collisions_eq (hw : w.Recorded nodes l) (hnodes : nodes + 1 < Address.limit) :
    w.medium.stats.collisions = w.sent.countP fun x => ∃ y ∈ w.sent, x.RunsInto y := by
  rw [← hw.mirrors.stats, hw.mirrors.sound.collisions, List.countP_eq_length_filter,
    List.countP_eq_length_filter, ← List.length_map (fun d : Delivery => d.id),
    ← List.length_map (fun x : Sending => x.id)]
  refine List.Perm.length_eq ((List.perm_ext_iff_of_nodup
    (hw.mirrors.sound.distinct.sublist (List.filter_sublist.map _))
    (hw.distinct.sublist (List.filter_sublist.map _))).2 fun id => ?_)
  simp only [List.mem_map, List.mem_filter, decide_eq_true_eq]
  constructor
  · rintro ⟨d, ⟨hd, d', hd', hruns⟩, rfl⟩
    obtain ⟨x, hx, hxd⟩ := hw.deliveries d hd
    obtain ⟨y, hy, hyd⟩ := hw.deliveries d' hd'
    exact ⟨x, ⟨hx, y, hy, (hw.runsInto_iff hnodes hx hy hd hd' hxd hyd).2 hruns⟩, hxd.id⟩
  · rintro ⟨x, ⟨hx, y, hy, hruns⟩, rfl⟩
    obtain ⟨-, d, hd, hxd⟩ := hw.sent x hx
    obtain ⟨-, d', hd', hyd⟩ := hw.sent y hy
    exact ⟨d, ⟨hd, d', hd', (hw.runsInto_iff hnodes hx hy hd hd' hxd hyd).1 hruns⟩, hxd.id.symm⟩

theorem Recorded.handed_of_key_le (hw : w.Recorded nodes l) {x : Sending} (hx : x ∈ w.sent)
    (hnot : ¬ ∃ e ∈ w.cancelledEvents, e.id = x.id) {e : Entry Event} (he : e ∈ w.handed)
    (hle : x.key ≤ e.key) : ⟨x.time, x.id, .deliver x.receiver x.frame, false⟩ ∈ w.handed := by
  obtain ⟨-, d, hd, hxd⟩ := hw.sent x hx
  rw [← hw.cancelled, hxd.id] at hnot
  have hturn : (d.key : WithBot Key) ≤ l.handling := by
    rw [hxd.key]
    exact (WithBot.coe_le_coe.2 hle).trans (hw.mirrors.sound.handed_le e (hw.handed ▸ he))
  have hhanded := hw.mirrors.sound.handed_eq d hd
  rw [if_pos ⟨hturn, hnot⟩, hw.handed] at hhanded
  have hmem := (List.mem_filter.1 (hhanded ▸ List.mem_singleton_self _ :
    (⟨d.time, d.id, d.event, false⟩ : Entry Event) ∈ w.handed.filter (·.id == d.id))).1
  rwa [← hxd.time, ← hxd.id, hxd.event] at hmem

/-! ## Before the first event -/

theorem Recorded.ofStill {c : Config} (hn : s.network.Still c) :
    ∃ l, (start s).Recorded c.nodeCount l := by
  have hmirrors : ({ Loop.start c.maxRangeM with channel := s.network.medium.channel }).Mirrors
      s.network.medium := by
    have hsound := Loop.Sound.start c.maxRangeM
    refine ⟨{ hsound with known := ?_, underWay := nofun }, nofun, hn.events.symm, rfl,
      hn.stats.symm, nofun, nofun⟩
    rw [hn.channel]
    exact nofun
  have hnone : (start s).cancelledEvents = [] := by
    show [] ++ s.network.medium.events.entries.filter (·.cancelled) = []
    rw [hn.events]
    rfl
  refine ⟨_, hmirrors, ?_, hn.positions, rfl, nofun, nofun, List.nodup_nil, fun id => ⟨nofun, ?_⟩, ?_⟩
  · show s.network.medium.channel.endpoints = _
    rw [hn.channel]
  · rw [hnone]
    rintro ⟨e, he, -⟩
    cases he
  · rw [hnone]
    exact nofun

theorem Recorded.start {s s' : Simulation σ} {c : Config} (hn : s.network.Still c)
    (h : s.begin = .ok s') : ∃ l, (start s').Recorded c.nodeCount l := by
  have hbegin := Simulation.begin_schedules hn.started h
  have hplans : ∀ (t : Time) (e : Event), (e = .startFrame ∨ ∃ node, e = .arrival node) →
      e.isDelivery = false := by
    rintro t e (rfl | ⟨node, rfl⟩) <;> rfl
  obtain ⟨l, hl⟩ := Recorded.ofStill hn
  obtain ⟨l', hl', hextends⟩ := hl.mirrors.does hl.listens hplans hbegin
  have hleads := (hbegin.leads hn.traced (fun _ _ => False.elim) hplans).mono hplans
  refine ⟨l', hl.goOn hl' hextends hleads rfl rfl (fun x hx => hx) (fun x hx => .inl hx)
    (fun d hd => .inl ?_) List.nodup_nil⟩
  rcases hextends.new d hd with hold | ⟨-, -, a, b, f, delay, hsend, -⟩
  · exact hold
  · exact hsend.elim

end Watch

end SlotNet
