import SlotNet.Proofs.QueueAges
import SlotNet.Proofs.Sending
import SlotNet.Proofs.Unblocked

/-!
# Frames that cannot go on

Before a station sends, it drops the frames of both queues that are too old. From the front of the queue of
its slot it then drops those that have no way to go (`Station.stuck`) until one has (`Station.ready`); it
takes each one out by its number, and the one in front is the first with its number. `nextToSend_clears` says
that looking for the next frame leaves exactly the others, in order, with the drops counted, and
`exists_nextToSend` that it succeeds as long as deadlines are times and the counters have room.
-/

namespace SlotNet

/-! ## Counting one after the other -/

namespace Stats

variable {s s' : Stats}

theorem foldlM_count_iff {α : Type} (get : Stats → Nat) (set : Stats → Nat → Stats)
    {step : Stats → α → Except Fault Stats}
    (hstep : ∀ s a, step s a = (Count.add (get s) 1).map (set s)) (hget : ∀ s n, get (set s n) = n)
    (hset : ∀ s n n', set (set s n) n' = set s n') (hself : ∀ s, set s (get s) = s) {items : List α} :
    items.foldlM step s = .ok s' ↔
      s' = set s (get s + items.length) ∧ (items = [] ∨ get s + items.length < Count.limit) := by
  induction items generalizing s with
  | nil =>
    rw [List.length_nil, Nat.add_zero, hself]
    exact ⟨fun h => ⟨(Except.ok.inj h).symm, .inl rfl⟩, fun h => congrArg Except.ok h.1.symm⟩
  | cons a items ih =>
    have hlength : get s + 1 + items.length = get s + (a :: items).length := by
      rw [List.length_cons, Nat.add_assoc, Nat.add_comm 1]
    rw [List.foldlM_cons, Fault.bind_eq_ok]
    constructor
    · rintro ⟨t, ht, h⟩
      rw [hstep] at ht
      obtain ⟨n, hn, rfl⟩ := Fault.map_eq_ok.1 ht
      obtain ⟨rfl, hlt⟩ := Count.add_eq_ok hn
      obtain ⟨rfl, hroom⟩ := ih.1 h
      rw [hget, hlength] at hroom
      rw [hget, hset, hlength]
      refine ⟨rfl, .inr ?_⟩
      rcases hroom with rfl | hroom
      · exact hlt
      · exact hroom
    · rintro ⟨rfl, hroom⟩
      replace hroom := hroom.resolve_left (List.cons_ne_nil _ _)
      have hfirst : Count.add (get s) 1 = .ok (get s + 1) := if_pos (by omega)
      refine ⟨set s (get s + 1), by rw [hstep, hfirst]; rfl, ih.2 ⟨?_, .inr ?_⟩⟩
      · rw [hget, hset, hlength]
      · rw [hget, hlength]
        exact hroom

theorem recordDrops_expired_iff {items : List QueueItem} :
    s.recordDrops (items.map (⟨·, .expired⟩)) = .ok s' ↔
      s' = { s with expiredDrops := s.expiredDrops + items.length } ∧
        (items = [] ∨ s.expiredDrops + items.length < Count.limit) := by
  rw [recordDrops, List.foldlM_map]
  exact foldlM_count_iff (·.expiredDrops) (fun s n => { s with expiredDrops := n }) (fun _ _ => rfl)
    (fun _ _ => rfl) (fun _ _ _ => rfl) fun _ => rfl

/-- Frames that had no way to go are counted. -/
def recordStuck (s : Stats) (items : List QueueItem) : Except Fault Stats :=
  items.foldlM (fun s _ => s.recordNoRoute) s

theorem recordStuck_iff {items : List QueueItem} :
    s.recordStuck items = .ok s' ↔
      s' = { s with noRouteDrops := s.noRouteDrops + items.length } ∧
        (items = [] ∨ s.noRouteDrops + items.length < Count.limit) :=
  foldlM_count_iff (·.noRouteDrops) (fun s n => { s with noRouteDrops := n }) (fun _ _ => rfl)
    (fun _ _ => rfl) (fun _ _ _ => rfl) fun _ => rfl

end Stats

/-! ## Queues -/

namespace TransmitQueue

variable {q q' q'' : TransmitQueue} {kind : QueueKind} {now : Time} {item : QueueItem}
  {rest rest' : List QueueItem} {drops : List Drop}

/-- The frames of a queue that ageing leaves. -/
def kept (q : TransmitQueue) (now : Time) (kind : QueueKind) : List QueueItem :=
  (q.items kind).filter (·.isYoung q.maxDelay now)

/-- The frames of both queues that are too old, in the order in which they are dropped. -/
def expired (q : TransmitQueue) (now : Time) : List QueueItem :=
  (q.items .control).filter (!·.isYoung q.maxDelay now) ++
    (q.items .data).filter (!·.isYoung q.maxDelay now)

/-- These frames are left in a queue, and the other queue is as it was. -/
structure Leaves (q : TransmitQueue) (kind : QueueKind) (rest : List QueueItem) (q' : TransmitQueue) :
    Prop where
  maxDelay : q'.maxDelay = q.maxDelay
  items : q'.items kind = rest
  others : ∀ k, k ≠ kind → q'.items k = q.items k
  lawful : q.Lawful → q'.Lawful ∧ q'.maxPackets = q.maxPackets

theorem Leaves.refl (hi : q.items kind = rest) : q.Leaves kind rest q :=
  ⟨rfl, hi, fun _ _ => rfl, fun hq => ⟨hq, rfl⟩⟩

theorem Leaves.trans (h : q.Leaves kind rest q') (h' : q'.Leaves kind rest' q'') :
    q.Leaves kind rest' q'' := by
  refine ⟨h'.maxDelay.trans h.maxDelay, h'.items, fun k hk => (h'.others k hk).trans (h.others k hk),
    fun hq => ?_⟩
  obtain ⟨hq', hmax⟩ := h.lawful hq
  exact (h'.lawful hq').imp_right (·.trans hmax)

theorem prune_sublist {maxDelay : Time} {items sub : List QueueItem}
    (h : prune maxDelay now items = .ok (items, [])) (hsub : sub.Sublist items) :
    prune maxDelay now sub = .ok (sub, []) := by
  -- if nothing is dropped, the first frame has a deadline and has not reached it
  have hcons : ∀ {item : QueueItem} {items : List QueueItem},
      prune maxDelay now (item :: items) = .ok (item :: items, []) →
      prune maxDelay now items = .ok (items, []) ∧
        ∀ sub, prune maxDelay now sub = .ok (sub, []) →
          prune maxDelay now (item :: sub) = .ok (item :: sub, []) := by
    intro item items h
    unfold prune at h
    obtain ⟨deadline, hd, h⟩ := Fault.bind_eq_ok.1 h
    obtain ⟨⟨kept, expired⟩, hp, h⟩ := Fault.bind_eq_ok.1 h
    dsimp only at h
    split at h
    · rename_i hyoung
      cases h
      refine ⟨hp, fun sub hsub => ?_⟩
      rw [prune, hd, hsub]
      exact congrArg Except.ok (if_pos hyoung)
    · cases h
  induction hsub with
  | slnil => exact h
  | cons item _ ih => exact ih (hcons h).1
  | cons_cons item _ ih => exact (hcons h).2 _ (ih (hcons h).1)

theorem Fresh.leaves (hq : q.Fresh now) (h : q.Leaves kind rest q')
    (hsub : rest.Sublist (q.items kind)) : q'.Fresh now := by
  intro k
  rw [h.maxDelay]
  by_cases hk : k = kind
  · subst hk
    rw [h.items]
    exact prune_sublist (hq k) hsub
  · rw [h.others k hk]
    exact hq k

theorem cleanupBoth_drops {first second : QueueKind} (hne : first ≠ second)
    (h : q.cleanupBoth first second now = .ok (q', drops)) :
    drops = ((q.items first).filter (!·.isYoung q.maxDelay now) ++
      (q.items second).filter (!·.isYoung q.maxDelay now)).map (⟨·, .expired⟩) := by
  have hone : ∀ {q q' : TransmitQueue} {kind : QueueKind} {drops : List Drop},
      q.cleanup kind now = .ok (q', drops) →
      drops = ((q.items kind).filter (!·.isYoung q.maxDelay now)).map (⟨·, .expired⟩) := by
    intro q q' kind drops h
    obtain ⟨⟨kept, expired⟩, hp, h⟩ := Fault.bind_eq_ok.1 h
    obtain ⟨q₁, -, h⟩ := Fault.bind_eq_ok.1 h
    cases h
    rw [(prune_eq_filter hp).2]
  obtain ⟨⟨q₁, drops₁⟩, h1, h⟩ := Fault.bind_eq_ok.1 h
  obtain ⟨⟨q₂, drops₂⟩, h2, h⟩ := Fault.bind_eq_ok.1 h
  cases h
  obtain ⟨hsheds, -, hothers⟩ := cleanup_sheds h1
  rw [hone h1, hone h2, hothers second hne.symm, hsheds.maxDelay, List.map_append]

/-! ### The frame in front -/

theorem Lawful.takes_head (hq : q.Lawful) (hi : q.items kind = item :: rest) :
    ∃ q', (q.setItems kind rest).release kind item.frame.size = .ok q' ∧ q.Takes kind rest [item] q' :=
  hq.takes (hi ▸ List.perm_append_singleton item rest)

theorem release_leaves (hi : q.items kind = item :: rest)
    (h : (q.setItems kind rest).release kind item.frame.size = .ok q') : q.Leaves kind rest q' := by
  obtain ⟨hdelay, hitems⟩ := release_keeps h
  refine ⟨hdelay.trans (maxDelay_setItems kind rest), ?_, fun k hk => ?_, fun hq => ?_⟩
  · rw [hitems, items_setItems, if_pos rfl]
  · rw [hitems, items_setItems, if_neg hk]
  · obtain ⟨q₁, hr, htakes⟩ := hq.takes_head hi
    cases hr.symm.trans h
    exact ⟨htakes.lawful, htakes.maxPackets⟩

/-- The frame in front is the first one with its number, even if others have the same. -/
theorem remove_head (hi : q.items kind = item :: rest) :
    q.remove kind item.frame.uid =
      ((q.setItems kind rest).release kind item.frame.size).map (·, true) := by
  unfold remove
  rw [hi, List.find?_cons_of_pos (by simp), List.eraseP_cons_of_pos (by simp)]
  rfl

theorem Fresh.dequeue_head (hq : q.Fresh now) (hi : q.items kind = item :: rest) :
    q.dequeue kind now =
      ((q.setItems kind rest).release kind item.frame.size).map (·, [], some item) := by
  unfold TransmitQueue.dequeue
  rw [hq.cleanupBoth_eq .control .data]
  dsimp only [Bind.bind, Except.bind]
  rw [hi]
  rfl

end TransmitQueue

/-! ## Looking for the next frame -/

namespace Station

variable {s s' : Station} {m m' : Medium} {kind : QueueKind} {fuel : Nat} {item : QueueItem}
  {rest : List QueueItem} {head : Option QueueItem} {next : Option (QueueItem × Address)}

/-- Has a frame no way to go? Control frames go to all, data needs a next hop. -/
def lacksWay (s : Station) (m : Medium) (kind : QueueKind) (item : QueueItem) : Bool :=
  match kind with
  | .control => false
  | .data => (m.routes.nextHop s.node item.frame.destination).isNone

theorem isNone_receiverOf (item : QueueItem) :
    (s.receiverOf m kind item).isNone = s.lacksWay m kind item := by
  cases kind with
  | control => rfl
  | data => exact Option.isNone_map

/-- The frames in front of a queue that have no way to go. -/
def stuck (s : Station) (m : Medium) (kind : QueueKind) : List QueueItem :=
  (s.queue.kept m.now kind).takeWhile (s.lacksWay m kind)

/-- The first frame of a queue that has a way to go, and those behind it. -/
def ready (s : Station) (m : Medium) (kind : QueueKind) : List QueueItem :=
  (s.queue.kept m.now kind).dropWhile (s.lacksWay m kind)

def addressed (s : Station) (m : Medium) (kind : QueueKind) (item : QueueItem) :
    Option (QueueItem × Address) :=
  (s.receiverOf m kind item).map (item, ·)

/-- The counters with all frames that were too old, or stuck in front of a queue. -/
def counted (s : Station) (m : Medium) (kind : QueueKind) : Medium :=
  { m with stats := { m.stats with
      expiredDrops := m.stats.expiredDrops + (s.queue.expired m.now).length
      noRouteDrops := m.stats.noRouteDrops + (s.stuck m kind).length } }

/-- The deadlines of the frames can be told, and so can the numbers of those that are dropped. -/
structure Tellable (s : Station) (m : Medium) (kind : QueueKind) : Prop where
  deadlines : ∀ k, ∀ item ∈ s.queue.items k, item.enqueuedAt + s.queue.maxDelay < Time.limit
  expired : m.stats.expiredDrops + (s.queue.expired m.now).length < Count.limit
  stuck : m.stats.noRouteDrops + (s.stuck m kind).length < Count.limit

/-- Both queues are without the frames that are too old, one of them also without those that are stuck in
front, and nothing else has changed but the counters. -/
structure Clears (s : Station) (m : Medium) (kind : QueueKind) (s' : Station) (m' : Medium) :
    Prop where
  station : s' = { s with queue := s'.queue }
  maxDelay : s'.queue.maxDelay = s.queue.maxDelay
  fresh : s'.queue.Fresh m.now
  items : s'.queue.items kind = s.ready m kind
  others : ∀ k, k ≠ kind → s'.queue.items k = s.queue.kept m.now k
  lawful : s.queue.Lawful → s'.queue.Lawful ∧ s'.queue.maxPackets = s.queue.maxPackets
  medium : m' = s.counted m kind

/-! ### Ageing -/

theorem peek_fresh (hfresh : s.queue.Fresh m.now) :
    s.peek m kind = .ok (s, m, (s.queue.items kind).head?) := by
  unfold peek TransmitQueue.peek
  rw [hfresh.cleanupBoth_eq .control .data]
  rfl

theorem peek_counts (h : s.peek m kind = .ok (s', m', head)) :
    m' = { m with stats := { m.stats with
      expiredDrops := m.stats.expiredDrops + (s.queue.expired m.now).length } } := by
  obtain ⟨⟨queue, drops, head'⟩, h1, h⟩ := Fault.bind_eq_ok.1 h
  obtain ⟨stats, h2, h⟩ := Fault.bind_eq_ok.1 h
  cases h
  have hdrops := TransmitQueue.cleanupBoth_drops (by decide) (TransmitQueue.peek_eq_ok h1).1
  rw [hdrops] at h2
  rw [(Stats.recordDrops_expired_iff.1 h2).1]
  rfl

theorem peek_lawful (hq : s.queue.Lawful) (h : s.peek m kind = .ok (s', m', head)) :
    s'.queue.Lawful ∧ s'.queue.maxPackets = s.queue.maxPackets := by
  obtain ⟨⟨queue, drops, head'⟩, h1, h⟩ := Fault.bind_eq_ok.1 h
  obtain ⟨stats, -, h⟩ := Fault.bind_eq_ok.1 h
  cases h
  obtain ⟨hprunes, -⟩ := hq.cleanupBoth (by decide) (TransmitQueue.peek_eq_ok h1).1
  exact ⟨hprunes.lawful, hprunes.maxPackets⟩

theorem exists_peek (hq : s.queue.Lawful)
    (hdeadlines : ∀ k, ∀ item ∈ s.queue.items k, item.enqueuedAt + s.queue.maxDelay < Time.limit)
    (hroom : m.stats.expiredDrops + (s.queue.expired m.now).length < Count.limit) (kind : QueueKind) :
    ∃ s' m' head, s.peek m kind = .ok (s', m', head) := by
  obtain ⟨⟨queue, drops⟩, hclean⟩ :=
    hq.exists_cleanupBoth (by decide : QueueKind.control ≠ .data) m.now hdeadlines
  have hdrops := TransmitQueue.cleanupBoth_drops (by decide) hclean
  have hcounts := Stats.recordDrops_expired_iff.2 ⟨rfl, .inr hroom⟩
  rw [TransmitQueue.expired, ← hdrops] at hcounts
  exact ⟨_, _, _, Fault.bind_eq_ok.2 ⟨_, Fault.bind_eq_ok.2 ⟨_, hclean, rfl⟩,
    Fault.bind_eq_ok.2 ⟨_, hcounts, rfl⟩⟩⟩

theorem nextToSend_after_peek (h : s.peek m kind = .ok (s', m', head)) :
    nextToSend kind (fuel + 1) s m = nextToSend kind (fuel + 1) s' m' := by
  obtain ⟨hsheds, hfresh, hhead⟩ := peek_sheds h
  rw [← hsheds.now] at hfresh
  rw [nextToSend, nextToSend, h, peek_fresh hfresh, hhead]

/-! ### One frame after the other -/

theorem nextToSend_nil (hfresh : s.queue.Fresh m.now) (hi : s.queue.items kind = []) :
    nextToSend kind (fuel + 1) s m = .ok (s, m, none) := by
  rw [nextToSend, peek_fresh hfresh, hi]
  rfl

theorem nextToSend_ready (hfresh : s.queue.Fresh m.now) (hi : s.queue.items kind = item :: rest)
    (hway : s.lacksWay m kind item = false) :
    nextToSend kind (fuel + 1) s m = .ok (s, m, s.addressed m kind item) := by
  rw [nextToSend, peek_fresh hfresh, hi, addressed]
  dsimp only [List.head?_cons, Bind.bind, Except.bind]
  cases hr : s.receiverOf m kind item with
  | some address => rfl
  | none =>
    rw [← isNone_receiverOf, hr] at hway
    cases hway

theorem nextToSend_stuck (hfresh : s.queue.Fresh m.now) (hi : s.queue.items kind = item :: rest)
    (hway : s.lacksWay m kind item = true) :
    nextToSend kind (fuel + 1) s m = (do
      let queue ← (s.queue.setItems kind rest).release kind item.frame.size
      let stats ← m.stats.recordNoRoute
      nextToSend kind fuel { s with queue } { m with stats }) := by
  have hnone : s.receiverOf m kind item = none := by
    rw [← Option.isNone_iff_eq_none, isNone_receiverOf, hway]
  rw [nextToSend, peek_fresh hfresh, hi]
  dsimp only [List.head?_cons, Bind.bind, Except.bind]
  rw [hnone]
  dsimp only
  rw [TransmitQueue.remove_head hi]
  cases (s.queue.setItems kind rest).release kind item.frame.size <;> rfl

/-- Among frames that are young the search drops the stuck ones in front, and finds the one behind them. -/
theorem nextToSend_fresh (hfresh : s.queue.Fresh m.now) (hfuel : (s.queue.items kind).length < fuel)
    (h : nextToSend kind fuel s m = .ok (s', m', next)) :
    s' = { s with queue := s'.queue } ∧
      s.queue.Leaves kind ((s.queue.items kind).dropWhile (s.lacksWay m kind)) s'.queue ∧
      m' = { m with stats := m'.stats } ∧
      m.stats.recordStuck ((s.queue.items kind).takeWhile (s.lacksWay m kind)) = .ok m'.stats ∧
      next = ((s.queue.items kind).dropWhile (s.lacksWay m kind)).head?.bind (s.addressed m kind) := by
  induction fuel generalizing s m with
  | zero => exact absurd hfuel (Nat.not_lt_zero _)
  | succ fuel ih =>
    cases hi : s.queue.items kind with
    | nil =>
      cases (nextToSend_nil hfresh hi).symm.trans h
      exact ⟨rfl, .refl hi, rfl, rfl, rfl⟩
    | cons item rest =>
      cases hway : s.lacksWay m kind item with
      | false =>
        cases (nextToSend_ready hfresh hi hway).symm.trans h
        rw [List.takeWhile_cons_of_neg (by simp [hway]), List.dropWhile_cons_of_neg (by simp [hway])]
        exact ⟨rfl, .refl hi, rfl, rfl, rfl⟩
      | true =>
        rw [nextToSend_stuck hfresh hi hway] at h
        obtain ⟨queue, hrelease, h⟩ := Fault.bind_eq_ok.1 h
        obtain ⟨stats, hcount, h⟩ := Fault.bind_eq_ok.1 h
        have hleaves := TransmitQueue.release_leaves hi hrelease
        have hsub : rest.Sublist (s.queue.items kind) := hi ▸ List.sublist_cons_self item rest
        have hshorter : (queue.items kind).length < fuel := by
          rw [hleaves.items]
          rw [hi, List.length_cons] at hfuel
          exact Nat.lt_of_succ_lt_succ hfuel
        obtain ⟨hstation, hrest, hmedium, hstuck, hnext⟩ :=
          @ih { s with queue } { m with stats } (hfresh.leaves hleaves hsub) hshorter h
        -- the queue and the counters make no difference to the ways
        have hways : lacksWay { s with queue } { m with stats } kind = s.lacksWay m kind := rfl
        rw [hways, hleaves.items] at hrest hstuck hnext
        rw [List.takeWhile_cons_of_pos hway, List.dropWhile_cons_of_pos hway]
        exact ⟨hstation, hleaves.trans hrest, hmedium, Fault.bind_eq_ok.2 ⟨stats, hcount, hstuck⟩, hnext⟩

theorem exists_nextToSend_fresh (hq : s.queue.Lawful) (hfresh : s.queue.Fresh m.now)
    (hroom : m.stats.noRouteDrops + ((s.queue.items kind).takeWhile (s.lacksWay m kind)).length
      < Count.limit) (fuel : Nat) :
    ∃ found, nextToSend kind fuel s m = .ok found := by
  induction fuel generalizing s m with
  | zero => exact ⟨_, rfl⟩
  | succ fuel ih =>
    cases hi : s.queue.items kind with
    | nil => exact ⟨_, nextToSend_nil hfresh hi⟩
    | cons item rest =>
      cases hway : s.lacksWay m kind item with
      | false => exact ⟨_, nextToSend_ready hfresh hi hway⟩
      | true =>
        rw [hi, List.takeWhile_cons_of_pos hway, List.length_cons] at hroom
        obtain ⟨queue, hrelease, -⟩ := hq.takes_head hi
        have hleaves := TransmitQueue.release_leaves hi hrelease
        have hsub : rest.Sublist (s.queue.items kind) := hi ▸ List.sublist_cons_self item rest
        have hcount : m.stats.recordNoRoute
            = .ok { m.stats with noRouteDrops := m.stats.noRouteDrops + 1 } :=
          Fault.map_eq_ok.2 ⟨_, if_pos (by omega), rfl⟩
        have hless : m.stats.noRouteDrops + 1
            + ((queue.items kind).takeWhile (s.lacksWay m kind)).length < Count.limit := by
          rw [hleaves.items, Nat.add_assoc, Nat.add_comm 1]
          exact hroom
        obtain ⟨found, hfound⟩ := @ih { s with queue }
          { m with stats := { m.stats with noRouteDrops := m.stats.noRouteDrops + 1 } }
          (hleaves.lawful hq).1 (hfresh.leaves hleaves hsub) hless
        rw [nextToSend_stuck hfresh hi hway]
        exact ⟨found, Fault.bind_eq_ok.2 ⟨_, hrelease, Fault.bind_eq_ok.2 ⟨_, hcount, hfound⟩⟩⟩

/-! ### The whole search -/

theorem peek_parts (h : s.peek m kind = .ok (s', m', head)) :
    (s'.queue.items kind).takeWhile (s'.lacksWay m' kind) = s.stuck m kind ∧
      (s'.queue.items kind).dropWhile (s'.lacksWay m' kind) = s.ready m kind := by
  have hways : s'.lacksWay m' kind = s.lacksWay m kind := by
    funext item
    rw [← isNone_receiverOf, ← isNone_receiverOf, (peek_sheds h).1.receiverOf]
  rw [hways, peek_items h]
  exact ⟨rfl, rfl⟩

/-- Looking for the next frame drops the frames that are too old and those that are stuck in front, and finds
the first one that is ready. -/
theorem nextToSend_clears (hfuel : (s.queue.items kind).length < fuel)
    (h : nextToSend kind fuel s m = .ok (s', m', next)) :
    s.Clears m kind s' m' ∧ next = (s.ready m kind).head?.bind (s.addressed m kind) := by
  cases fuel with
  | zero => exact absurd hfuel (Nat.not_lt_zero _)
  | succ fuel =>
    obtain ⟨⟨s₁, m₁, head⟩, hpeek, -⟩ := Fault.bind_eq_ok.1 h
    obtain ⟨hsheds, hfresh, -⟩ := peek_sheds hpeek
    obtain ⟨hstuck, hready⟩ := peek_parts hpeek
    have hcounts := peek_counts hpeek
    -- from here on all frames are young
    rw [nextToSend_after_peek hpeek] at h
    have hshorter : (s₁.queue.items kind).length < fuel + 1 :=
      (hsheds.queue.items kind).length_le.trans_lt hfuel
    obtain ⟨hstation, hleaves, hmedium, hrecord, hnext⟩ :=
      nextToSend_fresh (hsheds.now.symm ▸ hfresh) hshorter h
    rw [hready] at hleaves hnext
    rw [hstuck] at hrecord
    have haddressed : s₁.addressed m₁ kind = s.addressed m kind := by
      funext item
      rw [addressed, addressed, hsheds.receiverOf]
    have hsub : (s.ready m kind).Sublist (s₁.queue.items kind) :=
      hready ▸ (List.dropWhile_suffix _).sublist
    refine ⟨⟨?_, hleaves.maxDelay.trans hsheds.queue.maxDelay, hfresh.leaves hleaves hsub, hleaves.items,
      fun k hk => (hleaves.others k hk).trans (peek_items hpeek k), fun hq => ?_, ?_⟩, ?_⟩
    · rw [hstation, hsheds.station]
    · obtain ⟨hq₁, hmax⟩ := peek_lawful hq hpeek
      exact (hleaves.lawful hq₁).imp_right (·.trans hmax)
    · rw [hmedium, (Stats.recordStuck_iff.1 hrecord).1, hcounts]
      rfl
    · rw [hnext, haddressed]

theorem exists_nextToSend (hq : s.queue.Lawful) (ht : s.Tellable m kind) (fuel : Nat) :
    ∃ found, nextToSend kind fuel s m = .ok found := by
  cases fuel with
  | zero => exact ⟨_, rfl⟩
  | succ fuel =>
    obtain ⟨s₁, m₁, head, hpeek⟩ := exists_peek hq ht.deadlines ht.expired kind
    obtain ⟨hsheds, hfresh, -⟩ := peek_sheds hpeek
    rw [nextToSend_after_peek hpeek]
    refine exists_nextToSend_fresh (peek_lawful hq hpeek).1 (hsheds.now.symm ▸ hfresh) ?_ _
    rw [(peek_parts hpeek).1, peek_counts hpeek]
    exact ht.stuck

end Station

end SlotNet
