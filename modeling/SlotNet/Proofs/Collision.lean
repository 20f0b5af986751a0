import SlotNet.Proofs.Broadcasting

/-!
# Which deliveries collide

`collisions_exact`: a delivery is cancelled if and only if it overlaps one of another sender for the
same receiver; every other one is handed out once, when its turn comes; and the counters are right at
every point of a run.

A transmission is followed listener by listener (`Sound.deliver`): one more delivery runs into those
that are still to come, and none of them is from the same transmission.
-/

namespace SlotNet

/-! ## Counting cancelled deliveries -/

theorem countP_cancelled_add {ds : List Delivery} (hds : (ds.map (·.id)).Nodup) {d : Delivery}
    (hd : d ∈ ds) (cancelled : List Nat) :
    ds.countP (fun x => x.id ∈ cancelled ++ [d.id])
      = ds.countP (fun x => x.id ∈ cancelled) + if d.id ∈ cancelled then 0 else 1 := by
  by_cases hc : d.id ∈ cancelled
  · rw [if_pos hc, Nat.add_zero]
    refine List.countP_congr fun x _ => ?_
    simp only [decide_eq_true_eq, List.mem_append, List.mem_singleton]
    exact ⟨fun h => h.elim id fun h => h ▸ hc, .inl⟩
  · rw [if_neg hc]
    induction ds with
    | nil => cases hd
    | cons x ds ih =>
      rw [List.map_cons, List.nodup_cons] at hds
      simp only [List.countP_cons, decide_eq_true_eq]
      rcases List.mem_cons.1 hd with rfl | hd
      · have hsame : ds.countP (fun x => x.id ∈ cancelled ++ [d.id])
            = ds.countP (fun x => x.id ∈ cancelled) := by
          refine List.countP_congr fun x hx => ?_
          have hne : x.id ≠ d.id := fun he => hds.1 (List.mem_map.2 ⟨x, hx, he⟩)
          simp [hne]
        rw [hsame]
        simp [hc]
      · have hne : x.id ≠ d.id := fun he => hds.1 (List.mem_map.2 ⟨d, hd, he.symm⟩)
        rw [ih hds.2 hd]
        simp only [List.mem_append, List.mem_singleton, hne, or_false]
        omega

theorem countP_cancelAll {ds : List Delivery} (hds : (ds.map (·.id)).Nodup)
    {q : EventQueue Event} (hq : q.Ordered) (cancelled : List Nat)
    (hc : ∀ e ∈ q.entries, e.cancelled = true ↔ e.id ∈ cancelled) (hit : List InFlight)
    (hhit : ∀ t ∈ hit, ∃ d ∈ ds, d.id = t.delivery ∧ ∃ e ∈ q.entries, e.id = d.id) :
    ds.countP (fun d => d.id ∈ cancelled ++ hit.map (·.delivery))
      = ds.countP (fun d => d.id ∈ cancelled) + (Channel.cancelAll q hit).1 := by
  induction hit generalizing q cancelled with
  | nil =>
    simp only [List.map_nil, List.append_nil]
    rfl
  | cons t rest ih =>
    obtain ⟨d, hd, hdt, e, he, hed⟩ := hhit t (.head _)
    have hpending : q.isPending t.delivery = !decide (d.id ∈ cancelled) := by
      rw [Bool.eq_iff_iff, EventQueue.isPending_iff, Bool.not_eq_true', decide_eq_false_iff_not,
        ← hdt]
      constructor
      · rintro ⟨x, hx, hid, hx'⟩
        obtain rfl := hq.eq_of_id hx he (hid.trans hed.symm)
        rw [← hed, ← hc x hx, hx']
        simp
      · intro hn
        rw [← hed, ← hc e he] at hn
        exact ⟨e, he, hed, by simpa using hn⟩
    have hnext := ih (hq.cancel t.delivery) (cancelled ++ [d.id]) (fun x hx => ?_)
      (fun u hu => ?_)
    · rw [Channel.cancelAll_cons, List.map_cons, List.append_cons, ← hdt]
      rw [← hdt] at hnext hpending
      rw [hnext, countP_cancelled_add hds hd, hpending]
      by_cases hcd : d.id ∈ cancelled
      · simp [hcd]
      · simp only [hcd, if_false, decide_false, Bool.not_false, if_true]
        omega
    · obtain ⟨y, hy, rfl⟩ := EventQueue.mem_cancel.1 hx
      rw [EventQueue.cancelled_cancelEntry, EventQueue.id_cancelEntry, hc y hy, hdt]
      simp
    · obtain ⟨x, hx, hxu, y, hy, hyx⟩ := hhit u (.tail _ hu)
      exact ⟨x, hx, hxu, _, EventQueue.mem_cancel.2 ⟨y, hy, rfl⟩, by
        rw [EventQueue.id_cancelEntry]; exact hyx⟩

namespace Loop

/-! ## What a run keeps -/

/-- The loop's records agree with its queue, its channel and its counters. -/
structure Sound (s : Loop) : Prop where
  ordered : s.events.Ordered
  present : ∀ k : Key, s.handling = k →
    (ofLex k).1 = s.events.now ∧ (ofLex k).2 < s.events.nextId
  ahead : ∀ e ∈ s.events.entries, s.handling < e.key
  marked : ∀ e ∈ s.events.entries, e.cancelled = true ↔ e.id ∈ s.cancelled
  cancelled_lt : ∀ id ∈ s.cancelled, id < s.events.nextId
  distinct : (s.deliveries.map (·.id)).Nodup
  delivery_lt : ∀ d ∈ s.deliveries, d.id < s.events.nextId
  called : ∀ d ∈ s.deliveries, d.call ≤ s.calls
  waiting : ∀ d ∈ s.deliveries, s.handling < d.key →
    ∃ e ∈ s.events.entries, e.time = d.time ∧ e.id = d.id ∧ e.event = d.event
  gone : ∀ d ∈ s.deliveries, d.key ≤ s.handling → ∀ e ∈ s.events.entries, e.id ≠ d.id
  handed_sorted : s.handed.Pairwise fun a b => a.key < b.key
  handed_le : ∀ x ∈ s.handed, x.key ≤ s.handling
  handed_lt : ∀ x ∈ s.handed, x.id < s.events.nextId
  handed_eq : ∀ d ∈ s.deliveries, s.handed.filter (·.id == d.id)
    = if d.key ≤ s.handling ∧ d.id ∉ s.cancelled then [⟨d.time, d.id, d.event, false⟩] else []
  known : ∀ t ∈ s.channel.inFlight, ∃ d ∈ s.deliveries, t = d.inFlight
  underWay : ∀ d ∈ s.deliveries, s.handling < d.key → d.inFlight ∈ s.channel.inFlight
  collided : ∀ d ∈ s.deliveries, d.id ∈ s.cancelled ↔
    ∃ e ∈ s.deliveries, d.Rivals e ∧ (d.Overlaps e ∨ e.Overlaps d)
  collisions : s.stats.collisions
    = s.deliveries.countP fun e => ∃ d ∈ s.deliveries, d.Rivals e ∧ d.Overlaps e
  cancelledDeliveries : s.stats.cancelledDeliveries = s.deliveries.countP (·.id ∈ s.cancelled)
  reached : s.reached = s.deliveries.length

variable {s s' : Loop}

theorem Sound.start (maxRange : Float) : Sound (Loop.start maxRange) where
  ordered := EventQueue.ordered_empty
  present := nofun
  ahead := nofun
  marked := nofun
  cancelled_lt := nofun
  distinct := .nil
  delivery_lt := nofun
  called := nofun
  waiting := nofun
  gone := nofun
  handed_sorted := .nil
  handed_le := nofun
  handed_lt := nofun
  handed_eq := nofun
  known := nofun
  underWay := nofun
  collided := nofun
  collisions := rfl
  cancelledDeliveries := rfl
  reached := rfl

theorem Sound.handling_lt (h : Sound s) {time : Time} (ht : s.events.now ≤ time) {id : Nat}
    (hid : s.events.nextId ≤ id) : s.handling < (toLex (time, id) : Key) := by
  cases hk : s.handling with
  | bot => exact WithBot.bot_lt_coe _
  | coe k =>
    obtain ⟨h1, h2⟩ := h.present k hk
    rw [WithBot.coe_lt_coe, Prod.Lex.lt_iff]
    rw [← h1] at ht
    exact (Nat.lt_or_eq_of_le ht).imp_right fun he => ⟨he, Nat.lt_of_lt_of_le h2 hid⟩

/-! ## Acts that are no transmissions -/

theorem Sound.scheduleAt (h : Sound s) (time : Time) (event : Event) :
    Sound { s with events := (s.events.scheduleAt time event).2 } where
  ordered := h.ordered.scheduleAt time event
  present k hk := ⟨(h.present k hk).1, Nat.lt_succ_of_lt (h.present k hk).2⟩
  ahead e he := by
    rcases EventQueue.mem_scheduleAt.1 he with rfl | he
    · exact h.handling_lt (Nat.le_max_right _ _) (Nat.le_refl _)
    · exact h.ahead e he
  marked e he := by
    rcases EventQueue.mem_scheduleAt.1 he with rfl | he
    · have hn : s.events.nextId ∉ s.cancelled := fun hc => Nat.lt_irrefl _ (h.cancelled_lt _ hc)
      simp [EventQueue.entryAt, hn]
    · exact h.marked e he
  cancelled_lt id hid := Nat.lt_succ_of_lt (h.cancelled_lt id hid)
  distinct := h.distinct
  delivery_lt d hd := Nat.lt_succ_of_lt (h.delivery_lt d hd)
  called := h.called
  waiting d hd hlt := by
    obtain ⟨e, he, hed⟩ := h.waiting d hd hlt
    exact ⟨e, EventQueue.mem_scheduleAt.2 (.inr he), hed⟩
  gone d hd hle e he := by
    rcases EventQueue.mem_scheduleAt.1 he with rfl | he
    · exact (Nat.ne_of_lt (h.delivery_lt d hd)).symm
    · exact h.gone d hd hle e he
  handed_sorted := h.handed_sorted
  handed_le := h.handed_le
  handed_lt x hx := Nat.lt_succ_of_lt (h.handed_lt x hx)
  handed_eq := h.handed_eq
  known := h.known
  underWay := h.underWay
  collided := h.collided
  collisions := h.collisions
  cancelledDeliveries := h.cancelledDeliveries
  reached := h.reached

theorem Sound.cancel (h : Sound s) {id : Nat} (hid : ∀ d ∈ s.deliveries, d.id ≠ id) :
    Sound { s with
      events := (s.events.cancel id).2
      cancelled := s.cancelled ++ marks (s.events.cancel id).2 } := by
  have hmem : ∀ k, k ∈ s.cancelled ++ marks (s.events.cancel id).2 ↔
      k ∈ s.cancelled ∨ (k = id ∧ ∃ e ∈ s.events.entries, e.id = id) := by
    intro k
    rw [List.mem_append, mem_marks]
    constructor
    · rintro (hk | ⟨e, he, hc, rfl⟩)
      · exact .inl hk
      · obtain ⟨x, hx, rfl⟩ := EventQueue.mem_cancel.1 he
        rw [EventQueue.cancelled_cancelEntry] at hc
        rw [EventQueue.id_cancelEntry]
        exact hc.imp (h.marked x hx).1 fun hc => ⟨hc, x, hx, hc⟩
    · rintro (hk | ⟨rfl, e, he, hek⟩)
      · exact .inl hk
      · refine .inr ⟨_, EventQueue.mem_cancel.2 ⟨e, he, rfl⟩, ?_, ?_⟩
        · exact (EventQueue.cancelled_cancelEntry _ _).2 (.inr hek)
        · rw [EventQueue.id_cancelEntry, hek]
  have hsame : ∀ d ∈ s.deliveries, (d.id ∈ s.cancelled ++ marks (s.events.cancel id).2 ↔
      d.id ∈ s.cancelled) := by
    intro d hd
    rw [hmem]
    exact or_iff_left fun hk => hid d hd hk.1
  refine { h with
    ordered := h.ordered.cancel id, present := h.present, ahead := fun e he => ?ahead,
    marked := fun e he => ?marked, cancelled_lt := fun k hk => ?cancelled_lt,
    waiting := fun d hd hlt => ?waiting, gone := fun d hd hle e he => ?gone,
    handed_eq := fun d hd => ?handed_eq, collided := fun d hd => ?collided,
    cancelledDeliveries := ?cancelledDeliveries }
  case ahead =>
    obtain ⟨x, hx, rfl⟩ := EventQueue.mem_cancel.1 he
    rw [EventQueue.key_cancelEntry]
    exact h.ahead x hx
  case marked =>
    obtain ⟨x, hx, rfl⟩ := EventQueue.mem_cancel.1 he
    rw [EventQueue.cancelled_cancelEntry, EventQueue.id_cancelEntry, hmem, h.marked x hx]
    exact or_congr_right ⟨fun hk => ⟨hk, x, hx, hk⟩, And.left⟩
  case cancelled_lt =>
    rcases (hmem k).1 hk with hk | ⟨rfl, e, he, rfl⟩
    · exact h.cancelled_lt k hk
    · exact h.ordered.lt_nextId e he
  case waiting =>
    obtain ⟨e, he, hed⟩ := h.waiting d hd hlt
    refine ⟨_, EventQueue.mem_cancel.2 ⟨e, he, rfl⟩, ?_⟩
    rw [EventQueue.time_cancelEntry, EventQueue.id_cancelEntry, EventQueue.event_cancelEntry]
    exact hed
  case gone =>
    obtain ⟨x, hx, rfl⟩ := EventQueue.mem_cancel.1 he
    rw [EventQueue.id_cancelEntry]
    exact h.gone d hd hle x hx
  case handed_eq =>
    simp only [hsame d hd]
    exact h.handed_eq d hd
  case collided =>
    simp only [hsame d hd]
    exact h.collided d hd
  case cancelledDeliveries =>
    rw [h.cancelledDeliveries]
    exact List.countP_congr fun d hd => by simp only [decide_eq_true_eq, hsame d hd]

/-- When an event was handed out, a delivery is among those handed out if its turn has come. -/
theorem Sound.filter_handed_append (h : Sound s) {e : Entry Event} (he : e ∈ s.events.entries)
    (hec : e.cancelled = false) (hdrop : ∀ x ∈ s.events.entries, x.key < e.key → x.cancelled = true)
    {d : Delivery} (hd : d ∈ s.deliveries) : (s.handed ++ [e]).filter (·.id == d.id)
      = if d.key ≤ (e.key : WithBot Key) ∧ d.id ∉ s.cancelled then [⟨d.time, d.id, d.event, false⟩]
        else [] := by
  have hlt : s.handling < e.key := h.ahead e he
  rw [List.filter_append, h.handed_eq d hd]
  by_cases hle : d.key ≤ s.handling
  · -- its turn is over
    have hne : (e.id == d.id) = false := beq_eq_false_iff_ne.2 (h.gone d hd hle e he)
    simp only [hle, hle.trans hlt.le, List.filter_cons, hne, List.filter_nil]
    simp
  · obtain ⟨x, hx, ht, hid, hev⟩ := h.waiting d hd (lt_of_not_ge hle)
    have hkey : d.key = x.key := by rw [Delivery.key, Entry.key, ht, hid]
    rw [if_neg fun hc => hle hc.1, List.nil_append]
    simp only [hkey, WithBot.coe_le_coe]
    by_cases hxe : x = e
    · -- its turn has come
      subst hxe
      have hnc : d.id ∉ s.cancelled := by
        rw [← hid, ← h.marked x hx, hec]
        simp
      obtain ⟨time, id, event, cancelled⟩ := x
      dsimp only at ht hid hev hec
      subst ht hid hev hec
      simp [hnc]
    · have hne : (e.id == d.id) = false := by
        rw [beq_eq_false_iff_ne, ← hid]
        exact fun hex => hxe (h.ordered.eq_of_id hx he hex.symm)
      simp only [List.filter_cons, hne, List.filter_nil, Bool.false_eq_true, if_false]
      rw [if_neg]
      rintro ⟨hxk, hnc⟩
      rcases hxk.lt_or_eq with hxk | hxk
      · rw [← hid, ← h.marked x hx] at hnc
        exact hnc (hdrop x hx hxk)
      · rw [Entry.key, Entry.key, toLex_inj, Prod.mk.injEq] at hxk
        exact hxe (h.ordered.eq_of_id hx he hxk.2)

theorem Sound.handle (h : Sound s) (hstep : s.step .handle = some s') : Sound s' := by
  obtain ⟨e, he, hec, hord, hnow, hnext, hmem, hdrop, hs⟩ := step_handle h.ordered hstep
  have hlt : s.handling < e.key := h.ahead e he
  rw [hs]
  refine { h with
    ordered := hord, present := fun k hk => ?present, ahead := fun x hx => ?ahead,
    marked := fun x hx => h.marked x ((hmem x).1 hx).1, cancelled_lt := ?cancelled_lt,
    delivery_lt := ?delivery_lt, waiting := fun d hd hd' => ?waiting,
    gone := fun d hd hle x hx => ?gone, handed_sorted := ?handed_sorted,
    handed_le := fun x hx => ?handed_le, handed_lt := fun x hx => ?handed_lt,
    handed_eq := fun d hd => ?handed_eq,
    underWay := fun d hd hd' => h.underWay d hd (hlt.trans hd') }
  case present =>
    obtain rfl := WithBot.coe_injective hk
    rw [hnow, hnext]
    exact ⟨rfl, h.ordered.lt_nextId e he⟩
  case ahead =>
    exact WithBot.coe_lt_coe.2 ((hmem x).1 hx).2
  case cancelled_lt =>
    rw [hnext]; exact h.cancelled_lt
  case delivery_lt =>
    rw [hnext]; exact h.delivery_lt
  case waiting =>
    obtain ⟨x, hx, ht, hid, hev⟩ := h.waiting d hd (hlt.trans hd')
    refine ⟨x, (hmem x).2 ⟨hx, ?_⟩, ht, hid, hev⟩
    rw [show x.key = d.key by rw [Delivery.key, Entry.key, ht, hid]]
    exact WithBot.coe_lt_coe.1 hd'
  case gone =>
    obtain ⟨hx, hex⟩ := (hmem x).1 hx
    by_cases hle' : d.key ≤ s.handling
    · exact h.gone d hd hle' x hx
    · obtain ⟨y, hy, ht, hid, -⟩ := h.waiting d hd (lt_of_not_ge hle')
      intro hxd
      obtain rfl := h.ordered.eq_of_id hx hy (hxd.trans hid.symm)
      refine absurd (WithBot.coe_le_coe.1 hle) (not_le_of_gt ?_)
      rw [Delivery.key, ← ht, ← hid]
      exact hex
  case handed_sorted =>
    refine List.pairwise_append.2 ⟨h.handed_sorted, List.pairwise_singleton _ _, ?_⟩
    intro x hx y hy
    obtain rfl := List.mem_singleton.1 hy
    exact WithBot.coe_lt_coe.1 ((h.handed_le x hx).trans_lt hlt)
  case handed_le =>
    rcases List.mem_append.1 hx with hx | hx
    · exact (h.handed_le x hx).trans hlt.le
    · rw [List.mem_singleton.1 hx]
  case handed_lt =>
    rw [hnext]
    rcases List.mem_append.1 hx with hx | hx
    · exact h.handed_lt x hx
    · rw [List.mem_singleton.1 hx]
      exact h.ordered.lt_nextId e he
  case handed_eq => exact h.filter_handed_append he hec hdrop hd

/-! ## Transmissions -/

/-- The state after a delivery was sent to one listener; `before` are the numbers of the events that
were cancelled before the transmission. -/
def sentTo (s : Loop) (before : List Nat) (d : Delivery) (t : Channel.Spread) : Loop :=
  { s with
    events := t.events
    stats := t.stats
    channel := { s.channel with inFlight := s.channel.inFlight ++ [d.inFlight] }
    deliveries := s.deliveries ++ [d]
    cancelled := before ++ marks t.events
    reached := s.reached + 1 }

section Delivery

variable {sender : Endpoint} {frame : Frame} {listener : Endpoint} {distance : Float}
  {underWay sent : List InFlight} {outcome : TransmitOutcome} {before : List Nat}
  {t : Channel.Spread}

def deliveryTo (s : Loop) (sender : Endpoint) (frame : Frame) (listener : Endpoint)
    (distance : Float) : Delivery where
  call := s.calls
  during := s.handling
  time := s.events.now + Timing.propagationDelay distance
  id := s.events.nextId
  sender := sender.address
  receiver := listener.address
  event := .deliver listener.node frame

section overlapping

variable (sender) (frame) (listener) (distance)
  (hunder : ∀ x, x ∈ underWay ↔
    ∃ d ∈ s.deliveries, d.call < s.calls ∧ s.handling < d.key ∧ x = d.inFlight)

include hunder

theorem mem_overlapping (x : InFlight) :
    x ∈ Channel.overlapping underWay sender.address listener.address ↔
      ∃ d ∈ s.deliveries, (d.Rivals (s.deliveryTo sender frame listener distance) ∧
        d.Overlaps (s.deliveryTo sender frame listener distance)) ∧ x = d.inFlight := by
  simp only [Channel.overlapping, List.mem_filter, hunder, Bool.and_eq_true, beq_iff_eq, bne_iff_ne]
  constructor
  · rintro ⟨⟨d, hd, hc, hlt, rfl⟩, hr, hs⟩
    exact ⟨d, hd, ⟨⟨hr, hs⟩, hc, hlt⟩, rfl⟩
  · rintro ⟨d, hd, ⟨⟨hr, hs⟩, hc, hlt⟩, rfl⟩
    exact ⟨⟨d, hd, hc, hlt, rfl⟩, hr, hs⟩

theorem numbered_overlapping (id : Nat) :
    InFlight.numbered (Channel.overlapping underWay sender.address listener.address) id = true ↔
      ∃ d ∈ s.deliveries, (d.Rivals (s.deliveryTo sender frame listener distance) ∧
        d.Overlaps (s.deliveryTo sender frame listener distance)) ∧ d.id = id := by
  simp only [InFlight.numbered_iff,
    mem_overlapping sender frame listener distance hunder]
  constructor
  · rintro ⟨-, ⟨x, hx, hxd, rfl⟩, hk⟩
    exact ⟨x, hx, hxd, hk⟩
  · rintro ⟨x, hx, hxd, hk⟩
    exact ⟨_, ⟨x, hx, hxd, rfl⟩, hk⟩

theorem overlapping_nonempty :
    (!(Channel.overlapping underWay sender.address listener.address).isEmpty) = true ↔
      ∃ d ∈ s.deliveries, d.Rivals (s.deliveryTo sender frame listener distance) ∧
        d.Overlaps (s.deliveryTo sender frame listener distance) := by
  rw [Bool.not_eq_true', List.isEmpty_eq_false_iff_exists_mem]
  simp only [mem_overlapping sender frame listener distance hunder]
  constructor
  · rintro ⟨-, x, hx, hxd, -⟩
    exact ⟨x, hx, hxd⟩
  · rintro ⟨x, hx, hxd⟩
    exact ⟨_, x, hx, hxd, rfl⟩

end overlapping

section sentTo

variable {d : Delivery} (h : Sound s) (hd : s.deliveryTo sender frame listener distance = d)

include h hd

theorem Sound.handling_lt_new : s.handling < d.key := by
  rw [← hd]
  exact h.handling_lt (Nat.le_add_right _ _) (Nat.le_refl _)

theorem Sound.id_ne_new {x : Delivery} (hx : x ∈ s.deliveries) : x.id ≠ d.id := by
  rw [← hd]
  exact Nat.ne_of_lt (h.delivery_lt x hx)

theorem Sound.not_new_overlaps {x : Delivery} (hx : x ∈ s.deliveries) : ¬ d.Overlaps x := by
  rw [← hd]
  intro ho
  have hcall := h.called x hx
  have hlt : s.calls < x.call := ho.1
  omega

variable
  (hunder : ∀ x, x ∈ underWay ↔
    ∃ d ∈ s.deliveries, d.call < s.calls ∧ s.handling < d.key ∧ x = d.inFlight)
  (hbefore : ∀ id, id ∈ s.cancelled ↔ id ∈ before ∨ id ∈ marks s.events)
  (ht : Channel.deliver underWay sender.address frame listener distance
    ⟨s.events, s.stats, sent, outcome⟩ = .ok t)

include hunder hbefore ht

/-- A new delivery and those that it runs into are cancelled, and no others. -/
theorem Sound.mem_cancelled_sentTo (id : Nat) :
    id ∈ before ++ marks t.events ↔ id ∈ s.cancelled ∨
      (∃ x ∈ s.deliveries, (x.Rivals d ∧ x.Overlaps d) ∧ x.id = id) ∨
      (id = d.id ∧ ∃ x ∈ s.deliveries, x.Rivals d ∧ x.Overlaps d) := by
  obtain ⟨-, -, -, -, -, -, hmem⟩ := Channel.deliver_ok h.ordered ht
  have hnum := numbered_overlapping sender frame listener distance hunder
  have hany := overlapping_nonempty sender frame listener distance hunder
  rw [hd] at hnum hany
  have hdid : d.id = s.events.nextId := by rw [← hd]; rfl
  rw [List.mem_append, mem_marks, hdid]
  constructor
  · rintro (hk | ⟨e, he, hc, rfl⟩)
    · exact .inl ((hbefore id).2 (.inl hk))
    · rcases (hmem e).1 he with rfl | ⟨x, hx, rfl⟩
      · exact .inr (.inr ⟨rfl, hany.1 hc⟩)
      · simp only [Entry.cancelIf, Bool.or_eq_true, hnum] at hc ⊢
        exact hc.imp (h.marked x hx).1 .inl
  · rintro (hk | ⟨x, hx, hxd, rfl⟩ | ⟨rfl, hx⟩)
    · refine ((hbefore id).1 hk).imp_right fun hk => ?_
      obtain ⟨e, he, hc, rfl⟩ := mem_marks.1 hk
      exact ⟨_, (hmem _).2 (.inr ⟨e, he, rfl⟩), by simp [Entry.cancelIf, hc], rfl⟩
    · have hlt : s.handling < x.key := by
        have ho := hxd.2.2
        rwa [← hd] at ho
      obtain ⟨e, he, -, hid, -⟩ := h.waiting x hx hlt
      refine .inr ⟨_, (hmem _).2 (.inr ⟨e, he, rfl⟩), ?_, hid⟩
      simp only [Entry.cancelIf, Bool.or_eq_true, hnum]
      exact .inr ⟨x, hx, hxd, hid.symm⟩
    · exact .inr ⟨_, (hmem _).2 (.inl rfl), hany.2 hx, rfl⟩

theorem Sound.mem_cancelled_old {x : Delivery} (hx : x ∈ s.deliveries) :
    x.id ∈ before ++ marks t.events ↔ x.id ∈ s.cancelled ∨ (x.Rivals d ∧ x.Overlaps d) := by
  rw [h.mem_cancelled_sentTo hd hunder hbefore ht]
  constructor
  · rintro (hc | ⟨y, hy, hyd, he⟩ | ⟨he, -⟩)
    · exact .inl hc
    · obtain rfl := List.inj_on_of_nodup_map h.distinct hy hx he
      exact .inr hyd
    · exact absurd he (h.id_ne_new hd hx)
  · exact fun hc => hc.imp_right fun hxd => .inl ⟨x, hx, hxd, rfl⟩

theorem Sound.mem_cancelled_new :
    d.id ∈ before ++ marks t.events ↔ ∃ x ∈ s.deliveries, x.Rivals d ∧ x.Overlaps d := by
  rw [h.mem_cancelled_sentTo hd hunder hbefore ht]
  constructor
  · rintro (hc | ⟨y, hy, -, he⟩ | ⟨-, hx⟩)
    · rw [← hd] at hc
      exact absurd (h.cancelled_lt _ hc) (Nat.lt_irrefl _)
    · exact absurd he (h.id_ne_new hd hy)
    · exact hx
  · exact fun hx => .inr (.inr ⟨rfl, hx⟩)

theorem Sound.collided_sentTo {x : Delivery} (hx : x ∈ s.deliveries ++ [d]) :
    x.id ∈ before ++ marks t.events ↔
      ∃ e ∈ s.deliveries ++ [d], x.Rivals e ∧ (x.Overlaps e ∨ e.Overlaps x) := by
  rcases List.mem_append.1 hx with hx | hx
  · rw [h.mem_cancelled_old hd hunder hbefore ht hx, h.collided x hx]
    constructor
    · rintro (⟨e, he, hxe⟩ | hxd)
      · exact ⟨e, List.mem_append_left _ he, hxe⟩
      · exact ⟨d, by simp, hxd.1, .inl hxd.2⟩
    · rintro ⟨e, he, hxe⟩
      rcases List.mem_append.1 he with he | he
      · exact .inl ⟨e, he, hxe⟩
      · rw [List.mem_singleton.1 he] at hxe
        exact .inr ⟨hxe.1, hxe.2.resolve_right (h.not_new_overlaps hd hx)⟩
  · rw [List.mem_singleton.1 hx, h.mem_cancelled_new hd hunder hbefore ht]
    constructor
    · rintro ⟨y, hy, hyd⟩
      exact ⟨y, List.mem_append_left _ hy, ⟨hyd.1.1.symm, hyd.1.2.symm⟩, .inr hyd.2⟩
    · rintro ⟨e, he, hde, ho⟩
      rcases List.mem_append.1 he with he | he
      · exact ⟨e, he, ⟨hde.1.symm, hde.2.symm⟩, ho.resolve_left (h.not_new_overlaps hd he)⟩
      · rw [List.mem_singleton.1 he] at hde
        exact absurd rfl hde.2

omit hbefore in
theorem Sound.collisions_sentTo : t.stats.collisions
    = (s.deliveries ++ [d]).countP fun e =>
      ∃ x ∈ s.deliveries ++ [d], x.Rivals e ∧ x.Overlaps e := by
  obtain ⟨-, -, hstats, -⟩ := Channel.deliver_ok h.ordered ht
  have hany := overlapping_nonempty sender frame listener distance hunder
  rw [hd] at hany
  rw [hstats, List.countP_append, List.countP_singleton]
  refine congrArg₂ (· + ·) (h.collisions.trans (List.countP_congr fun x hx => ?_)) ?_
  · rw [decide_eq_true_eq, decide_eq_true_eq]
    constructor
    · rintro ⟨y, hy, hyx⟩
      exact ⟨y, List.mem_append_left _ hy, hyx⟩
    · rintro ⟨y, hy, hyx⟩
      rcases List.mem_append.1 hy with hy | hy
      · exact ⟨y, hy, hyx⟩
      · rw [List.mem_singleton.1 hy] at hyx
        exact absurd hyx.2 (h.not_new_overlaps hd hx)
  · have hself : (∃ y ∈ s.deliveries ++ [d], y.Rivals d ∧ y.Overlaps d) ↔
        ∃ y ∈ s.deliveries, y.Rivals d ∧ y.Overlaps d := by
      constructor
      · rintro ⟨y, hy, hyd⟩
        rcases List.mem_append.1 hy with hy | hy
        · exact ⟨y, hy, hyd⟩
        · rw [List.mem_singleton.1 hy] at hyd
          exact absurd rfl hyd.1.2
      · rintro ⟨y, hy, hyd⟩
        exact ⟨y, List.mem_append_left _ hy, hyd⟩
    simp only [decide_eq_true_eq, hself, ← hany]
    cases (Channel.overlapping underWay sender.address listener.address).isEmpty <;> rfl

theorem Sound.cancelledDeliveries_sentTo : t.stats.cancelledDeliveries
    = (s.deliveries ++ [d]).countP (·.id ∈ before ++ marks t.events) := by
  obtain ⟨-, -, hstats, -⟩ := Channel.deliver_ok h.ordered ht
  have hnum := numbered_overlapping sender frame listener distance hunder
  have hany := overlapping_nonempty sender frame listener distance hunder
  rw [hd] at hnum hany
  have hcount := countP_cancelAll h.distinct h.ordered s.cancelled h.marked
    (Channel.overlapping underWay sender.address listener.address) (fun u hu => by
      obtain ⟨x, hx, hxd, rfl⟩ := (mem_overlapping sender frame listener distance hunder u).1 hu
      obtain ⟨e, he, -, hid, -⟩ := h.waiting x hx hxd.2.2
      exact ⟨x, hx, rfl, e, he, hid⟩)
  rw [hstats, List.countP_append, List.countP_singleton, Channel.countHit,
    h.cancelledDeliveries, ← hcount]
  refine congrArg₂ (· + ·) (List.countP_congr fun x hx => ?_) ?_
  · rw [decide_eq_true_eq, decide_eq_true_eq, h.mem_cancelled_old hd hunder hbefore ht hx,
      List.mem_append, List.mem_map, ← InFlight.numbered_iff, hnum]
    refine or_congr_right ⟨?_, fun hxd => ⟨x, hx, hxd, rfl⟩⟩
    rintro ⟨y, hy, hyd, he⟩
    rw [← List.inj_on_of_nodup_map h.distinct hy hx he]
    exact hyd
  · simp only [decide_eq_true_eq, h.mem_cancelled_new hd hunder hbefore ht, ← hany]
    cases (Channel.overlapping underWay sender.address listener.address).isEmpty <;> rfl

omit hd in
theorem Sound.sentTo : Sound (s.sentTo before (s.deliveryTo sender frame listener distance) t) := by
  obtain ⟨-, -, -, hord, hnow, hnext, hmem⟩ := Channel.deliver_ok h.ordered ht
  have hnum := numbered_overlapping sender frame listener distance hunder
  have hany := overlapping_nonempty sender frame listener distance hunder
  dsimp only at hmem
  generalize hd : s.deliveryTo sender frame listener distance = d at hnum hany ⊢
  have hcancelled := h.mem_cancelled_sentTo hd hunder hbefore ht
  have hdid : d.id = s.events.nextId := by rw [← hd]; rfl
  have hdcall : d.call = s.calls := by rw [← hd]; rfl
  have hkey := h.handling_lt_new hd
  have hdeliveries : ∀ {P : Delivery → Prop}, (∀ x ∈ s.deliveries, P x) → P d →
      ∀ x ∈ s.deliveries ++ [d], P x := by
    intro P hP hPd x hx
    rcases List.mem_append.1 hx with hx | hx
    · exact hP x hx
    · rw [List.mem_singleton.1 hx]
      exact hPd
  have hentries : ∀ {P : Entry Event → Prop},
      (∀ x ∈ s.events.entries, P (x.cancelIf (InFlight.numbered
        (Channel.overlapping underWay sender.address listener.address) x.id))) →
      P ⟨d.time, d.id, d.event,
        !(Channel.overlapping underWay sender.address listener.address).isEmpty⟩ →
      ∀ x ∈ t.events.entries, P x := by
    intro P hP hPd x hx
    rcases (hmem x).1 hx with rfl | ⟨y, hy, rfl⟩
    · rw [← hd] at hPd
      exact hPd
    · exact hP y hy
  refine
    { ordered := hord, present := fun k hk => ?present,
      ahead := hentries h.ahead hkey,
      marked := hentries (fun x hx => ?marked)
        (hany.trans (h.mem_cancelled_new hd hunder hbefore ht).symm),
      cancelled_lt := fun k hk => ?cancelled_lt, distinct := ?distinct, delivery_lt := ?delivery_lt,
      called := hdeliveries h.called (Nat.le_of_eq hdcall),
      waiting := hdeliveries (fun x hx hlt => ?waiting_old) fun _ => ?waiting_new,
      gone := hdeliveries (fun x hx hle => ?gone) fun hle => absurd hle (not_le_of_gt hkey),
      handed_sorted := h.handed_sorted, handed_le := h.handed_le, handed_lt := fun x hx => ?handed_lt,
      handed_eq := hdeliveries (fun x hx => ?handed_eq_old) ?handed_eq_new,
      known := fun x hx => ?known,
      underWay := hdeliveries (fun x hx hlt => List.mem_append_left _ (h.underWay x hx hlt))
        fun _ => by simp [Loop.sentTo],
      collided := fun x hx => h.collided_sentTo hd hunder hbefore ht hx,
      collisions := h.collisions_sentTo hd hunder ht,
      cancelledDeliveries := h.cancelledDeliveries_sentTo hd hunder hbefore ht,
      reached := by simp [Loop.sentTo, h.reached] }
  case present =>
    show _ ∧ _ < t.events.nextId
    rw [hnext]
    exact ⟨(h.present k hk).1.trans hnow.symm, Nat.lt_succ_of_lt (h.present k hk).2⟩
  case marked =>
    show _ ↔ x.id ∈ before ++ marks t.events
    rw [hcancelled, ← h.marked x hx, Entry.cancelIf, Bool.or_eq_true, hnum]
    refine or_congr_right (or_iff_left fun hc => ?_).symm
    rw [hdid] at hc
    exact Nat.ne_of_lt (h.ordered.lt_nextId x hx) hc.1
  case cancelled_lt =>
    show k < t.events.nextId
    rw [hnext]
    rcases (hcancelled k).1 hk with hk | ⟨x, hx, -, rfl⟩ | ⟨rfl, -⟩
    · exact Nat.lt_succ_of_lt (h.cancelled_lt k hk)
    · exact Nat.lt_succ_of_lt (h.delivery_lt x hx)
    · rw [hdid]
      exact Nat.lt_succ_self _
  case distinct =>
    show ((s.deliveries ++ [d]).map (·.id)).Nodup
    rw [List.map_append, List.map_singleton, List.nodup_append]
    refine ⟨h.distinct, List.nodup_singleton _, fun k hk j hj => ?_⟩
    obtain ⟨x, hx, rfl⟩ := List.mem_map.1 hk
    rw [List.mem_singleton.1 hj]
    exact h.id_ne_new hd hx
  case delivery_lt =>
    show ∀ x ∈ s.deliveries ++ [d], x.id < t.events.nextId
    rw [hnext]
    exact hdeliveries (fun x hx => Nat.lt_succ_of_lt (h.delivery_lt x hx))
      (by rw [hdid]; exact Nat.lt_succ_self _)
  case waiting_old =>
    obtain ⟨e, he, hed⟩ := h.waiting x hx hlt
    exact ⟨_, (hmem _).2 (.inr ⟨e, he, rfl⟩), hed⟩
  case waiting_new =>
    refine ⟨_, (hmem _).2 (.inl rfl), ?_⟩
    rw [← hd]
    exact ⟨rfl, rfl, rfl⟩
  case gone =>
    refine hentries (fun y hy => h.gone x hx hle y hy) ?_
    exact (h.id_ne_new hd hx).symm
  case handed_lt =>
    show x.id < t.events.nextId
    rw [hnext]
    exact Nat.lt_succ_of_lt (h.handed_lt x hx)
  case handed_eq_old =>
    refine (h.handed_eq x hx).trans ?_
    by_cases hle : x.key ≤ s.handling
    · have hno : ¬ (x.Rivals d ∧ x.Overlaps d) := fun hxd => by
        rw [← hd] at hxd
        exact absurd hle (not_le_of_gt hxd.2.2)
      simp only [Loop.sentTo, h.mem_cancelled_old hd hunder hbefore ht hx, hno, or_false]
    · rw [if_neg fun hc => hle hc.1, if_neg fun hc => hle hc.1]
  case handed_eq_new =>
    rw [if_neg fun hc => absurd hc.1 (not_le_of_gt hkey), List.filter_eq_nil_iff]
    intro x hx hc
    rw [beq_iff_eq, hdid] at hc
    exact Nat.ne_of_lt (h.handed_lt x hx) hc
  case known =>
    rcases List.mem_append.1 hx with hx | hx
    · obtain ⟨y, hy, he⟩ := h.known x hx
      exact ⟨y, List.mem_append_left _ hy, he⟩
    · exact ⟨d, by simp [Loop.sentTo], List.mem_singleton.1 hx⟩

end sentTo

end Delivery

/-- Only which events are cancelled matters, not how often that was written down. -/
theorem Sound.congr_cancelled (h : Sound s) {cancelled : List Nat}
    (hc : ∀ id, id ∈ cancelled ↔ id ∈ s.cancelled) : Sound { s with cancelled } := by
  refine { h with
    marked := ?_, cancelled_lt := ?_, handed_eq := ?_, collided := ?_, cancelledDeliveries := ?_ }
  · simp only [hc]; exact h.marked
  · simp only [hc]; exact h.cancelled_lt
  · simp only [hc]; exact h.handed_eq
  · simp only [hc]; exact h.collided
  · simp only [hc]; exact h.cancelledDeliveries

theorem Sound.mem_marks (h : Sound s) (id : Nat) :
    id ∈ s.cancelled ++ marks s.events ↔ id ∈ s.cancelled := by
  rw [List.mem_append, or_iff_left_of_imp]
  intro hid
  obtain ⟨e, he, hc, rfl⟩ := Loop.mem_marks.1 hid
  exact (h.marked e he).1 hc

/-- The state in the middle of a transmission that has scheduled some deliveries so far. -/
def spreading (s : Loop) (underWay : List InFlight) (ds : List Delivery) (t : Channel.Spread) :
    Loop :=
  { s with
    events := t.events
    stats := t.stats
    channel := { s.channel with inFlight := underWay ++ t.sent }
    deliveries := s.deliveries ++ ds
    cancelled := s.cancelled ++ marks t.events
    reached := s.reached + t.outcome.reached }

theorem Sound.spread {underWay : List InFlight} {ds : List Delivery} {sender : Endpoint}
    {here : Point} {frame : Frame} {positions : List Point} {listeners : List Endpoint}
    {t t' : Channel.Spread}
    (hunder : ∀ x, x ∈ underWay ↔
      ∃ d ∈ s.deliveries, d.call < s.calls ∧ s.handling < d.key ∧ x = d.inFlight)
    (hds : ∀ d ∈ ds, d.call = s.calls) (hnow : t.events.now = s.events.now)
    (h : Sound (s.spreading underWay ds t))
    (ht : Channel.spread s.channel.maxRange positions underWay sender here frame listeners t
      = .ok t') :
    Sound (s.spreading underWay (ds ++ s.deliveriesTo sender here frame positions t.events.nextId
      listeners) t') := by
  induction listeners generalizing ds t with
  | nil =>
    cases ht
    rw [deliveriesTo, List.append_nil]
    exact h
  | cons listener rest ih =>
    obtain ⟨u, hu, ht⟩ := Fault.bind_eq_ok.1 ht
    unfold deliveriesTo
    cases hd : Channel.hearingDistance s.channel.maxRange positions sender.node here listener with
    | none =>
      simp only [hd] at hu
      cases hu
      exact ih hds hnow h ht
    | some distance =>
      simp only [hd] at hu
      obtain ⟨hsent, hreached, -, -, hnow', hnext', -⟩ := Channel.deliver_ok h.ordered hu
      have hunder' : ∀ x, x ∈ underWay ↔ ∃ d ∈ (s.spreading underWay ds t).deliveries,
          d.call < s.calls ∧ s.handling < d.key ∧ x = d.inFlight := by
        intro x
        rw [hunder]
        constructor
        · rintro ⟨d, hd, hx⟩
          exact ⟨d, List.mem_append_left _ hd, hx⟩
        · rintro ⟨d, hd, hx⟩
          rcases List.mem_append.1 hd with hd | hd
          · exact ⟨d, hd, hx⟩
          · exact absurd (hds d hd) (Nat.ne_of_lt hx.1)
      -- the state after this listener is again one in the middle of the transmission
      have hnext := h.sentTo hunder' (fun _ => List.mem_append) hu
      have hstate : (s.spreading underWay ds t).sentTo s.cancelled
          ((s.spreading underWay ds t).deliveryTo sender frame listener distance) u
          = s.spreading underWay
              (ds ++ [(s.spreading underWay ds t).deliveryTo sender frame listener distance]) u := by
        simp only [Loop.sentTo, spreading, hsent, hreached, List.append_assoc]
        rfl
      rw [hstate] at hnext
      have hrest := ih (fun d hd => ?_) (hnow'.trans hnow) hnext ht
      · rw [hnext', List.append_assoc] at hrest
        convert hrest using 3
        rw [List.singleton_append, deliveryTo]
        simp only [spreading, hnow]
      · rcases List.mem_append.1 hd with hd | hd
        · exact hds d hd
        · rw [List.mem_singleton.1 hd]
          rfl

/-- Between two transmissions all deliveries are of those that were made. -/
def Resting (s : Loop) : Prop := ∀ d ∈ s.deliveries, d.call < s.calls

theorem Sound.mem_underWay (h : Sound s) (hr : s.Resting) (x : InFlight) :
    x ∈ s.channel.inFlight.filter (fun t => !s.events.isExpired t.delivery) ↔
      ∃ d ∈ s.deliveries, d.call < s.calls ∧ s.handling < d.key ∧ x = d.inFlight := by
  rw [List.mem_filter, Bool.not_eq_true', Bool.eq_false_iff, ne_eq, EventQueue.isExpired_iff]
  constructor
  · rintro ⟨hx, he⟩
    obtain ⟨d, hd, rfl⟩ := h.known x hx
    refine ⟨d, hd, hr d hd, lt_of_not_ge fun hle => he ?_, rfl⟩
    exact h.gone d hd hle
  · rintro ⟨d, hd, -, hlt, rfl⟩
    refine ⟨h.underWay d hd hlt, fun he => ?_⟩
    obtain ⟨e, hmem, -, hid, -⟩ := h.waiting d hd hlt
    exact he e hmem hid

theorem Sound.transmit (h : Sound s) (hr : s.Resting) {sender : Nat} {frame : Frame}
    {positions : List Point} (hstep : s.step (.transmit sender frame positions) = some s') :
    Sound s' ∧ s'.Resting := by
  have hinit := h.congr_cancelled h.mem_marks
  rw [step] at hstep
  unfold deliveriesOf at hstep
  unfold Channel.transmit at hstep
  cases hf : s.channel.endpoints.find? (·.node == sender) with
  | none =>
    simp only [hf, List.append_nil, Nat.add_zero, Option.some.injEq] at hstep
    subst hstep
    exact ⟨{ hinit with called := fun d hd => Nat.le_succ_of_le (h.called d hd) },
      fun d hd => Nat.lt_succ_of_lt (hr d hd)⟩
  | some endpoint =>
    cases hp : positions[sender]? with
    | none =>
      simp only [hf, hp, List.append_nil, Nat.add_zero, Option.some.injEq] at hstep
      subst hstep
      exact ⟨{ hinit with called := fun d hd => Nat.le_succ_of_le (h.called d hd) },
        fun d hd => Nat.lt_succ_of_lt (hr d hd)⟩
    | some here =>
      simp only [hf, hp] at hstep
      generalize hu : s.channel.inFlight.filter (fun t => !s.events.isExpired t.delivery)
        = underWay at hstep
      cases hsp : Channel.spread s.channel.maxRange positions underWay endpoint here frame
          s.channel.endpoints ⟨s.events, s.stats, [], ⟨0, 0⟩⟩ with
      | error e =>
        rw [hsp] at hstep
        cases hstep
      | ok t =>
        rw [hsp] at hstep
        obtain rfl := (Option.some.inj hstep).symm
        have hunder : ∀ x, x ∈ underWay ↔
            ∃ d ∈ s.deliveries, d.call < s.calls ∧ s.handling < d.key ∧ x = d.inFlight := by
          rw [← hu]
          exact h.mem_underWay hr
        have hbegin : Sound (s.spreading underWay [] ⟨s.events, s.stats, [], ⟨0, 0⟩⟩) := by
          simp only [spreading, List.append_nil, Nat.add_zero]
          refine { hinit with known := fun x hx => ?_, underWay := fun d hd hlt => ?_ }
          · obtain ⟨d, hd, -, -, he⟩ := (hunder x).1 hx
            exact ⟨d, hd, he⟩
          · exact (hunder _).2 ⟨d, hd, hr d hd, hlt, rfl⟩
        have hend := hbegin.spread hunder (fun _ hd => absurd hd List.not_mem_nil) rfl hsp
        rw [List.nil_append] at hend
        exact ⟨{ hend with called := fun d hd => Nat.le_succ_of_le (hend.called d hd) },
          fun d hd => Nat.lt_succ_of_le (hend.called d hd)⟩

theorem Sound.step (h : Sound s) (hr : s.Resting) {a : Act} (hstep : s.step a = some s') :
    Sound s' ∧ s'.Resting := by
  cases a with
  | register node address =>
    cases hstep
    exact ⟨{ h with }, hr⟩
  | schedule delay event =>
    rw [Loop.step] at hstep
    cases he : s.events.schedule delay event with
    | error e => simp [he] at hstep
    | ok r =>
      obtain ⟨id, events⟩ := r
      simp only [he] at hstep
      cases hstep
      obtain ⟨-, rfl⟩ := EventQueue.schedule_ok he
      exact ⟨h.scheduleAt _ event, hr⟩
  | scheduleAt time event =>
    cases hstep
    exact ⟨h.scheduleAt time event, hr⟩
  | cancel id =>
    rw [Loop.step] at hstep
    split at hstep
    · rename_i hid
      cases hstep
      exact ⟨h.cancel (by simpa using hid), hr⟩
    · cases hstep
  | count stats =>
    rw [Loop.step] at hstep
    split at hstep
    · rename_i hstats
      cases hstep
      exact ⟨{ h with
        collisions := hstats.1.trans h.collisions
        cancelledDeliveries := hstats.2.trans h.cancelledDeliveries }, hr⟩
    · cases hstep
  | handle =>
    refine ⟨h.handle hstep, ?_⟩
    obtain ⟨e, -, -, -, -, -, -, -, hs⟩ := step_handle h.ordered hstep
    rw [hs]
    exact hr
  | transmit sender frame positions => exact h.transmit hr hstep

theorem Sound.run {maxRange : Float} {acts : List Act}
    (hrun : Loop.run acts (Loop.start maxRange) = some s) : Sound s :=
  (Acts.run_induction (P := fun s => Sound s ∧ s.Resting) (fun _ _ _ _ h hstep => h.1.step h.2 hstep)
    ⟨.start maxRange, fun _ hd => absurd hd List.not_mem_nil⟩ hrun).1

theorem Sound.isPending_iff (h : Sound s) {d : Delivery} (hd : d ∈ s.deliveries) :
    s.events.isPending d.id = true ↔ s.handling < d.key ∧ d.id ∉ s.cancelled := by
  rw [EventQueue.isPending_iff]
  constructor
  · rintro ⟨e, he, hid, hc⟩
    refine ⟨lt_of_not_ge fun hle => h.gone d hd hle e he hid, fun hdc => ?_⟩
    rw [← hid, ← h.marked e he, hc] at hdc
    cases hdc
  · rintro ⟨hlt, hc⟩
    obtain ⟨e, he, -, hid, -⟩ := h.waiting d hd hlt
    refine ⟨e, he, hid, ?_⟩
    rw [← hid, ← h.marked e he] at hc
    simpa using hc

theorem countP_add_countP_add_countP {α : Type} {p q r : α → Bool} {l : List α}
    (h : ∀ x ∈ l, (p x).toNat + (q x).toNat + (r x).toNat = 1) :
    l.countP p + l.countP q + l.countP r = l.length := by
  induction l with
  | nil => rfl
  | cons x l ih =>
    have hx := h x (.head _)
    have hl := ih fun y hy => h y (.tail _ hy)
    simp only [List.countP_cons, List.length_cons]
    cases hp : p x <;> cases hq : q x <;> cases hr : r x <;>
      simp only [hp, hq, hr, Bool.toNat_true, Bool.toNat_false] at hx <;> simp <;> omega

/-- In every run of an event loop with a channel: a delivery is cancelled if and only if it overlaps
a delivery of another sender to the same receiver. What was handed out came in order, and a delivery
was handed out once if its turn has come and it was not cancelled, and else not at all. Collisions,
cancelled deliveries and receivers reached are counted rightly. -/
theorem collisions_exact {maxRange : Float} {acts : List Act}
    (hrun : run acts (Loop.start maxRange) = some s) :
    (∀ d ∈ s.deliveries, d.id ∈ s.cancelled ↔
      ∃ e ∈ s.deliveries, d.Rivals e ∧ (d.Overlaps e ∨ e.Overlaps d)) ∧
    (s.handed.Pairwise fun a b => a.key < b.key) ∧
    (∀ d ∈ s.deliveries, s.handed.filter (·.id == d.id)
      = if d.key ≤ s.handling ∧ d.id ∉ s.cancelled then [⟨d.time, d.id, d.event, false⟩] else []) ∧
    (s.stats.collisions
      = s.deliveries.countP fun e => ∃ d ∈ s.deliveries, d.Rivals e ∧ d.Overlaps e) ∧
    (s.stats.cancelledDeliveries = s.deliveries.countP (·.id ∈ s.cancelled)) ∧
    s.reached = s.deliveries.countP (fun d => s.handed.any (·.id == d.id))
      + s.deliveries.countP (fun d => s.events.isPending d.id)
      + s.deliveries.countP (·.id ∈ s.cancelled) := by
  have h := Sound.run hrun
  refine ⟨h.collided, h.handed_sorted, h.handed_eq, h.collisions, h.cancelledDeliveries, ?_⟩
  rw [h.reached, countP_add_countP_add_countP]
  intro d hd
  -- a delivery was handed out, or is pending, or is cancelled
  have hany : s.handed.any (·.id == d.id) = true ↔ d.key ≤ s.handling ∧ d.id ∉ s.cancelled := by
    have hf := h.handed_eq d hd
    rw [List.any_eq_true]
    constructor
    · rintro ⟨x, hx, hid⟩
      by_contra hc
      rw [if_neg hc, List.filter_eq_nil_iff] at hf
      exact hf x hx hid
    · intro hc
      rw [if_pos hc] at hf
      have := List.mem_filter.1 (hf ▸ List.mem_singleton_self _ :
        (⟨d.time, d.id, d.event, false⟩ : Entry Event) ∈ s.handed.filter (·.id == d.id))
      exact ⟨_, this.1, this.2⟩
  have hpending := h.isPending_iff hd
  by_cases hc : d.id ∈ s.cancelled
  · have h1 : s.handed.any (·.id == d.id) = false := by
      rw [Bool.eq_false_iff, ne_eq, hany]
      exact fun hx => hx.2 hc
    have h2 : s.events.isPending d.id = false := by
      rw [Bool.eq_false_iff, ne_eq, hpending]
      exact fun hx => hx.2 hc
    simp [h1, h2, hc]
  · by_cases hle : d.key ≤ s.handling
    · have h2 : s.events.isPending d.id = false := by
        rw [Bool.eq_false_iff, ne_eq, hpending]
        exact fun hx => not_le_of_gt hx.1 hle
      simp [hany.2 ⟨hle, hc⟩, h2, hc]
    · have h1 : s.handed.any (·.id == d.id) = false := by
        rw [Bool.eq_false_iff, ne_eq, hany]
        exact fun hx => hle hx.1
      simp [hpending.2 ⟨lt_of_not_ge hle, hc⟩, h1, hc]

/-- Three nodes in a row, of which the first two transmit at the same time: they hear each other, and
the third hears neither. -/
def twoAtOnce : List Act :=
  let positions : List Point := [⟨0.0, 0.0⟩, ⟨100.0, 0.0⟩, ⟨200.0, 0.0⟩]
  let frame (node : Nat) : Frame :=
    { uid := node, kind := .data, transmitter := .ofNode node, receiver := .broadcast, source := node
      destination := 2, createdAt := 0, payload := .blank 10 }
  [.register 0 (.ofNode 0), .register 1 (.ofNode 1), .register 2 (.ofNode 2),
    .schedule 0 .envStep, .schedule 0 .envStep, .handle, .transmit 0 (frame 0) positions,
    .handle, .transmit 1 (frame 1) positions, .handle]

theorem run_twoAtOnce :
    (run twoAtOnce (Loop.start 250.0)).map
      (fun s => (s.reached, s.stats.collisions, s.stats.cancelledDeliveries, s.cancelled))
      = some (4, 1, 2, [5, 3]) := by decide +kernel

theorem collisions_exact_twoAtOnce :
    ∃ s, run twoAtOnce (Loop.start 250.0) = some s ∧ s.cancelled = [5, 3] ∧
      (∀ d ∈ s.deliveries, d.id ∈ [5, 3] ↔
        ∃ e ∈ s.deliveries, d.Rivals e ∧ (d.Overlaps e ∨ e.Overlaps d)) ∧
      (s.deliveries.countP fun e => ∃ d ∈ s.deliveries, d.Rivals e ∧ d.Overlaps e) = 1 ∧
      4 = s.deliveries.countP (fun d => s.handed.any (·.id == d.id))
        + s.deliveries.countP (fun d => s.events.isPending d.id)
        + s.deliveries.countP (·.id ∈ s.cancelled) := by
  obtain ⟨s, hs, hv⟩ := Option.map_eq_some_iff.1 run_twoAtOnce
  simp only [Prod.mk.injEq] at hv
  obtain ⟨hreached, hcollisions, -, hcancelled⟩ := hv
  obtain ⟨h1, -, -, h2, -, h3⟩ := collisions_exact hs
  rw [hcancelled] at h1
  exact ⟨s, hs, hcancelled, h1, h2.symm.trans hcollisions, hreached.symm.trans h3⟩

end Loop

end SlotNet
