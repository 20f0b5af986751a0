import SlotNet.Proofs.QueueAccounts

/-!
# The ages of queued frames

As long as the times of the operations do not go back, frames wait in the order in which they were queued
(`TransmitQueue.Aged`), so the frames that have reached the greatest delay are in front of the others.
What is handed out is then the oldest frame that is not too old, and what is dropped on the way are the
front parts of both queues (`QueueAccount.dequeue_in_order`).
-/

namespace SlotNet

def QueueItem.age (now : Time) (item : QueueItem) : Time := now - item.enqueuedAt

theorem QueueItem.isYoung_eq {maxDelay now : Time} {item : QueueItem} (h : item.enqueuedAt ≤ now) :
    item.isYoung maxDelay now = decide (item.age now < maxDelay) :=
  decide_eq_decide.2 (Nat.sub_lt_iff_lt_add' h).symm

namespace TransmitQueue

variable {p q q' : TransmitQueue} {kind : QueueKind} {maxDelay time now : Time} {drops : List Drop}

/-- The frames of a queue that have reached the greatest delay. -/
def old (q : TransmitQueue) (now : Time) (kind : QueueKind) : List QueueItem :=
  (q.items kind).filter fun item => q.maxDelay ≤ item.age now

/-- The frames of a queue that have not. -/
def young (q : TransmitQueue) (now : Time) (kind : QueueKind) : List QueueItem :=
  (q.items kind).filter fun item => item.age now < q.maxDelay

/-- Frames wait in the order in which they were queued, and none was queued later than `time`. -/
structure Aged (maxDelay time : Time) (q : TransmitQueue) : Prop where
  maxDelay : q.maxDelay = maxDelay
  sorted : ∀ kind, (q.items kind).Pairwise fun x y => x.enqueuedAt ≤ y.enqueuedAt
  past : ∀ kind, ∀ item ∈ q.items kind, item.enqueuedAt ≤ time

theorem Aged.mono (h : q.Aged maxDelay time) (hle : time ≤ now) : q.Aged maxDelay now :=
  ⟨h.maxDelay, h.sorted, fun kind item hi => Nat.le_trans (h.past kind item hi) hle⟩

theorem aged_new (maxPackets : Nat) (maxDelay : Time) : (new maxPackets maxDelay).Aged maxDelay 0 := by
  refine ⟨rfl, fun kind => ?_, fun kind => ?_⟩
  · cases kind <;> exact .nil
  · cases kind <;> exact nofun

theorem Aged.sheds (h : q.Aged maxDelay time) (hs : q.Sheds q') : q'.Aged maxDelay time :=
  ⟨hs.maxDelay.trans h.maxDelay, fun kind => (h.sorted kind).sublist (hs.items kind),
    fun kind item hi => h.past kind item ((hs.items kind).subset hi)⟩

theorem sheds_flush (q : TransmitQueue) : q.Sheds q.flush := by
  refine ⟨rfl, fun kind => ?_⟩
  cases kind <;> exact List.nil_sublist _

theorem dequeue_sheds {head : Option QueueItem} (h : q.dequeue kind now = .ok (q', drops, head)) :
    q.Sheds q' := by
  obtain ⟨⟨q₁, drops₁⟩, h1, h⟩ := Fault.bind_eq_ok.1 h
  have hs := (cleanupBoth_sheds (by decide : QueueKind.control ≠ .data) h1).1
  dsimp only at h
  cases hi : q₁.items kind with
  | nil =>
    rw [hi] at h
    cases h
    exact hs
  | cons item rest =>
    rw [hi] at h
    obtain ⟨q₂, hr, h⟩ := Fault.bind_eq_ok.1 h
    cases h
    obtain ⟨hdelay, hitems⟩ := release_keeps hr
    refine hs.trans ⟨by rw [hdelay, maxDelay_setItems], fun k => ?_⟩
    rw [hitems, items_setItems]
    split
    · rename_i hk
      rw [hk, hi]
      exact List.sublist_cons_self item rest
    · exact .refl _

theorem Aged.enqueue {frame : Frame} {result : Except EnqueueError QueueKind}
    (h : q.Aged maxDelay time) (hq : q.Lawful) (hle : time ≤ now)
    (he : q.enqueue frame now = .ok (q', drops, result)) : q'.Aged maxDelay now := by
  have hdelay : q'.maxDelay = q.maxDelay := by
    obtain ⟨q₁, expired, h1, hcases⟩ := hq.enqueue he
    have hsame := (hq.cleanupBoth (by decide) h1).1.maxDelay
    rcases hcases with ⟨e, -, rfl, -⟩ | ⟨-, -, hadmits⟩
    · exact hsame
    · exact hadmits.maxDelay.trans hsame
  have hadded : ∀ k, ∀ item ∈ (if k = QueueKind.ofFrame frame then [⟨frame, now⟩] else
      ([] : List QueueItem)), item.enqueuedAt = now := by
    intro k item hi
    split at hi
    · rw [List.mem_singleton.1 hi]
    · cases hi
  refine ⟨hdelay.trans h.maxDelay, fun k => ?sorted, fun k item hi => ?past⟩
  case sorted =>
    refine (List.pairwise_append.2 ⟨h.sorted k, ?_, fun x hx y hy => ?_⟩).sublist (enqueue_last he k)
    · split
      · exact List.pairwise_singleton ..
      · exact .nil
    · rw [hadded k y hy]
      exact Nat.le_trans (h.past k x hx) hle
  case past =>
    rcases List.mem_append.1 ((enqueue_last he k).subset hi) with hi | hi
    · exact Nat.le_trans (h.past k item hi) hle
    · exact Nat.le_of_eq (hadded k item hi)

/-! ## Old and young frames -/

theorem Aged.old_append_young (h : q.Aged maxDelay now) (kind : QueueKind) :
    q.old now kind ++ q.young now kind = q.items kind := by
  have hsorted := h.sorted kind
  rw [old, young]
  generalize q.items kind = items at hsorted ⊢
  induction items with
  | nil => rfl
  | cons item items ih =>
    obtain ⟨hfirst, hsorted⟩ := List.pairwise_cons.1 hsorted
    by_cases hold : q.maxDelay ≤ item.age now
    · simpa [hold, Nat.not_lt.2 hold] using ih hsorted
    · -- the first one is young, and the others came later
      have hothers : ∀ x ∈ item :: items, x.age now < q.maxDelay := by
        intro x hx
        rcases List.mem_cons.1 hx with rfl | hx
        · exact Nat.lt_of_not_le hold
        · exact Nat.lt_of_le_of_lt (Nat.sub_le_sub_left (hfirst x hx) now) (Nat.lt_of_not_le hold)
      rw [List.filter_eq_nil_iff.2 fun x hx => by simpa using hothers x hx,
        List.filter_eq_self.2 fun x hx => decide_eq_true (hothers x hx), List.nil_append]

/-- With the times in order, ageing drops the old frames. -/
theorem Aged.filter_isYoung (h : q.Aged maxDelay now) (kind : QueueKind) :
    (q.items kind).filter (·.isYoung q.maxDelay now) = q.young now kind ∧
      (q.items kind).filter (!·.isYoung q.maxDelay now) = q.old now kind := by
  refine ⟨List.filter_congr fun item hi => ?_, List.filter_congr fun item hi => ?_⟩
  · rw [QueueItem.isYoung_eq (h.past kind item hi)]
  · rw [QueueItem.isYoung_eq (h.past kind item hi)]
    exact decide_not.symm.trans (decide_eq_decide.2 Nat.not_lt)

theorem Aged.head_young (h : q.Aged maxDelay now) (kind : QueueKind) (item : QueueItem)
    (hi : (q.young now kind).head? = some item) : item ∈ q.items kind ∧ item.age now < maxDelay ∧
      ∀ x ∈ q.items kind, x.age now < maxDelay → item.enqueuedAt ≤ x.enqueuedAt := by
  obtain ⟨rest, hyoung⟩ := List.head?_eq_some_iff.1 hi
  have hmem : ∀ x, x ∈ item :: rest ↔ x ∈ q.items kind ∧ x.age now < maxDelay := by
    intro x
    rw [← hyoung, young, List.mem_filter, h.maxDelay, decide_eq_true_eq]
  have hsorted := (h.sorted kind).filter fun item => item.age now < q.maxDelay
  rw [← young, hyoung] at hsorted
  refine ⟨((hmem item).1 (.head _)).1, ((hmem item).1 (.head _)).2, fun x hx hage => ?_⟩
  rcases List.mem_cons.1 ((hmem x).2 ⟨hx, hage⟩) with rfl | hx
  · exact Nat.le_refl _
  · exact (List.pairwise_cons.1 hsorted).1 x hx

theorem Aged.young_eq_nil (h : q.Aged maxDelay now) (kind : QueueKind)
    (hnone : (q.young now kind).head? = none) : ∀ x ∈ q.items kind, maxDelay ≤ x.age now := by
  intro x hx
  have hold := List.filter_eq_nil_iff.1 (List.head?_eq_none_iff.1 hnone) x hx
  rw [h.maxDelay, decide_eq_true_eq] at hold
  exact Nat.le_of_not_lt hold

theorem exists_prune {items : List QueueItem} (now : Time)
    (h : ∀ item ∈ items, item.enqueuedAt + maxDelay < Time.limit) :
    ∃ parts, prune maxDelay now items = .ok parts := by
  induction items with
  | nil => exact ⟨_, rfl⟩
  | cons item items ih =>
    obtain ⟨parts, hparts⟩ := ih fun x hx => h x (.tail _ hx)
    have hdeadline : Time.add item.enqueuedAt maxDelay = .ok (item.enqueuedAt + maxDelay) :=
      if_pos (h item (.head _))
    exact ⟨_, Fault.bind_eq_ok.2 ⟨_, hdeadline, Fault.bind_eq_ok.2 ⟨parts, hparts, rfl⟩⟩⟩

theorem Lawful.exists_cleanup (hq : q.Lawful) (now : Time)
    (h : ∀ item ∈ q.items kind, item.enqueuedAt + q.maxDelay < Time.limit) :
    ∃ p, q.cleanup kind now = .ok p := by
  obtain ⟨⟨kept, expired⟩, hp⟩ := exists_prune now h
  obtain ⟨hkept, hexpired⟩ := prune_eq_filter hp
  obtain ⟨q', hr, -⟩ :=
    hq.takes (List.filter_append_perm (·.isYoung q.maxDelay now) (q.items kind))
  rw [← hkept, ← hexpired] at hr
  exact ⟨_, Fault.bind_eq_ok.2 ⟨_, hp, Fault.bind_eq_ok.2 ⟨q', hr, rfl⟩⟩⟩

theorem Lawful.exists_cleanupBoth {first second : QueueKind} (hne : first ≠ second) (hq : q.Lawful)
    (now : Time) (h : ∀ kind, ∀ item ∈ q.items kind, item.enqueuedAt + q.maxDelay < Time.limit) :
    ∃ p, q.cleanupBoth first second now = .ok p := by
  obtain ⟨⟨q₁, drops₁⟩, h1⟩ := hq.exists_cleanup now (h first)
  have htakes := (hq.cleanup h1).1
  have hsecond := h second
  rw [← htakes.others second hne.symm, ← htakes.maxDelay] at hsecond
  obtain ⟨⟨q₂, drops₂⟩, h2⟩ := htakes.lawful.exists_cleanup now hsecond
  exact ⟨_, Fault.bind_eq_ok.2 ⟨_, h1, Fault.bind_eq_ok.2 ⟨_, h2, rfl⟩⟩⟩

theorem Fresh.cleanup_eq (h : q.Fresh now) (kind : QueueKind) : q.cleanup kind now = .ok (q, []) := by
  refine Fault.bind_eq_ok.2 ⟨_, h kind, Fault.bind_eq_ok.2 ⟨q, ?_, rfl⟩⟩
  cases kind with
  | control => rfl
  | data =>
    show (Count.sub q.queuedBytes 0).map _ = _
    rw [Count.sub, if_pos (Nat.zero_le _)]
    rfl

theorem Fresh.cleanupBoth_eq (h : q.Fresh now) (first second : QueueKind) :
    q.cleanupBoth first second now = .ok (q, []) :=
  Fault.bind_eq_ok.2 ⟨_, h.cleanup_eq first, Fault.bind_eq_ok.2 ⟨_, h.cleanup_eq second, rfl⟩⟩

/-- When the old frames are gone already, the same frame is taken out, and nothing is dropped. -/
theorem Fresh.dequeue_after (hp : p.Fresh now) (hc : q.cleanupBoth .control .data now = .ok (p, drops))
    {head : Option QueueItem} (h : q.dequeue kind now = .ok (q', drops, head)) :
    p.dequeue kind now = .ok (q', [], head) := by
  obtain ⟨⟨p', drops'⟩, hc', h⟩ := Fault.bind_eq_ok.1 h
  obtain ⟨rfl, rfl⟩ := Prod.mk.inj (Except.ok.inj (hc'.symm.trans hc))
  refine Fault.bind_eq_ok.2 ⟨_, hp.cleanupBoth_eq .control .data, ?_⟩
  dsimp only at h ⊢
  cases hi : p'.items kind with
  | nil =>
    rw [hi] at h
    cases h
    rfl
  | cons item rest =>
    rw [hi] at h
    obtain ⟨q₂, hr, h⟩ := Fault.bind_eq_ok.1 h
    cases h
    exact Fault.bind_eq_ok.2 ⟨_, hr, rfl⟩

end TransmitQueue

/-! ## Any operations in order -/

/-- The time of an operation, if it has one. -/
def QueueOperation.time? : QueueOperation → Option Time
  | .enqueue _ now => some now
  | .dequeue _ now => some now
  | .peek _ now => some now
  | .cleanup _ now => some now
  | .remove _ _ => none
  | .flush => none
  | .top _ => none

/-- The times of the operations do not go back, and none is later than `now`. -/
def InOrder (ops : List QueueOperation) (now : Time) : Prop :=
  (ops.filterMap (·.time?) ++ [now]).Pairwise (· ≤ ·)

namespace QueueAccount

variable {a a' : QueueAccount} {maxPackets : Nat} {maxDelay time now : Time} {op : QueueOperation}
  {ops : List QueueOperation}

theorem Accounted.aged (h : a.Accounted maxPackets) (ha : a.queue.Aged maxDelay time)
    (htime : ∀ t, op.time? = some t → time ≤ t) (hs : a.step op = .ok a') :
    a'.queue.Aged maxDelay (op.time?.getD time) := by
  cases op with
  | enqueue frame now =>
    obtain ⟨⟨q, drops, result⟩, he, hs⟩ := Fault.bind_eq_ok.1 hs
    have haged := ha.enqueue h.lawful (htime now rfl) he
    cases result <;> cases hs <;> exact haged
  | dequeue kind now =>
    obtain ⟨⟨q, drops, head⟩, hd, hs⟩ := Fault.bind_eq_ok.1 hs
    cases hs
    exact (ha.mono (htime now rfl)).sheds (TransmitQueue.dequeue_sheds hd)
  | peek kind now =>
    obtain ⟨⟨q, drops, head⟩, hp, hs⟩ := Fault.bind_eq_ok.1 hs
    cases hs
    exact (ha.mono (htime now rfl)).sheds (TransmitQueue.peek_sheds hp).1
  | cleanup kind now =>
    obtain ⟨⟨q, drops⟩, hc, hs⟩ := Fault.bind_eq_ok.1 hs
    cases hs
    exact (ha.mono (htime now rfl)).sheds (TransmitQueue.cleanup_sheds hc).1
  | remove kind uid =>
    obtain ⟨⟨q, found⟩, hr, hs⟩ := Fault.bind_eq_ok.1 hs
    cases hs
    exact ha.sheds (TransmitQueue.remove_sheds hr)
  | flush =>
    cases hs
    exact ha.sheds (TransmitQueue.sheds_flush _)
  | top k =>
    cases hs
    exact ha

theorem Accounted.run_aged (h : a.Accounted maxPackets) (ha : a.queue.Aged maxDelay time)
    (htimes : (time :: (ops.filterMap (·.time?) ++ [now])).Pairwise (· ≤ ·))
    (hr : a.run ops = .ok a') : a'.queue.Aged maxDelay now := by
  induction ops generalizing a time with
  | nil =>
    cases hr
    exact ha.mono ((List.pairwise_cons.1 htimes).1 now (.head _))
  | cons op ops ih =>
    obtain ⟨a₁, hs, hr⟩ := Fault.bind_eq_ok.1 hr
    cases htime : op.time? with
    | none =>
      rw [List.filterMap_cons_none htime] at htimes
      have hstep := h.aged ha (fun t ht => nomatch htime.symm.trans ht) hs
      rw [htime] at hstep
      exact ih (h.step hs) hstep htimes hr
    | some t =>
      rw [List.filterMap_cons_some htime] at htimes
      obtain ⟨hfirst, htimes⟩ := List.pairwise_cons.1 htimes
      have hlater : ∀ t', op.time? = some t' → time ≤ t' := fun t' ht' => by
        rw [← Option.some.inj (htime.symm.trans ht')]
        exact hfirst t (.head _)
      have hstep := h.aged ha hlater hs
      rw [htime] at hstep
      exact ih (h.step hs) hstep htimes hr

/-- After operations whose times do not go back, the frames of each queue wait in the order of their times,
and those that have reached the greatest delay are in front. As long as every deadline is a time, a frame
can be asked for: dropped are the old frames of both queues and no others, in order, and what is handed out
is the first of the others. No frame of its queue that is not too old was queued before it, and there is none
only if all are too old. If one looks at the frame first, then the same one is handed out and nothing more is
dropped. -/
theorem dequeue_in_order (hr : (start maxPackets maxDelay).run ops = .ok a) (hops : InOrder ops now)
    (hdeadlines : ∀ kind, ∀ item ∈ a.queue.items kind, item.enqueuedAt + maxDelay < Time.limit)
    (kind : QueueKind) :
    a.queue.Aged maxDelay now ∧
    (∀ k, a.queue.old now k ++ a.queue.young now k = a.queue.items k) ∧
    ∃ p q head, a.queue.dequeue kind now =
        .ok (q, (a.queue.old now .control ++ a.queue.old now .data).map (⟨·, .expired⟩), head) ∧
      head = (a.queue.young now kind).head? ∧ q.items kind = (a.queue.young now kind).tail ∧
      (∀ k, k ≠ kind → q.items k = a.queue.young now k) ∧
      (∀ item, head = some item → item ∈ a.queue.items kind ∧ item.age now < maxDelay ∧
        ∀ x ∈ a.queue.items kind, x.age now < maxDelay → item.enqueuedAt ≤ x.enqueuedAt) ∧
      (head = none → ∀ x ∈ a.queue.items kind, maxDelay ≤ x.age now) ∧
      a.queue.peek kind now =
        .ok (p, (a.queue.old now .control ++ a.queue.old now .data).map (⟨·, .expired⟩), head) ∧
      p.dequeue kind now = .ok (q, [], head) := by
  have haccounted := (accounted_start maxPackets maxDelay).run hr
  have haged : a.queue.Aged maxDelay now := by
    refine (accounted_start maxPackets maxDelay).run_aged (TransmitQueue.aged_new ..) ?_ hr
    exact List.pairwise_cons.2 ⟨fun _ _ => Nat.zero_le _, hops⟩
  rw [← haged.maxDelay] at hdeadlines
  obtain ⟨⟨p, drops⟩, hclean⟩ :=
    haccounted.lawful.exists_cleanupBoth (by decide : QueueKind.control ≠ .data) now hdeadlines
  obtain ⟨hprunes, hdrops⟩ := haccounted.lawful.cleanupBoth (by decide) hclean
  rw [(haged.filter_isYoung .control).2, (haged.filter_isYoung .data).2] at hdrops
  subst hdrops
  have hitems : ∀ k, p.items k = a.queue.young now k := fun k =>
    (hprunes.items k).trans (haged.filter_isYoung k).1
  have hfresh := (TransmitQueue.cleanupBoth_sheds (by decide) hclean).2
  obtain ⟨q, hdequeue, htakes⟩ := haccounted.lawful.dequeue hclean kind
  have hrest := htakes.items
  rw [hitems] at hdequeue hrest
  refine ⟨haged, haged.old_append_young, p, q, _, hdequeue, rfl, hrest,
    fun k hk => (htakes.others k hk).trans (hitems k), haged.head_young kind,
    haged.young_eq_nil kind, ?_, hfresh.dequeue_after hclean hdequeue⟩
  rw [← hitems]
  exact Fault.bind_eq_ok.2 ⟨_, hclean, rfl⟩

def routingFrame (uid : Nat) : Frame := { blankFrame uid 100 with kind := .routing }

/-- A control frame and a data frame reach the greatest delay of 10 at the time 10; a data frame waits. -/
def staggered : List QueueOperation :=
  [.enqueue (routingFrame 0) 0, .enqueue (blankFrame 1 200) 0, .enqueue (blankFrame 2 300) 3,
    .enqueue (blankFrame 3 400) 3, .remove .data 2, .peek .control 9]

theorem dequeue_in_order_staggered :
    InOrder staggered 10 ∧ ∃ a, (start 4 10).run staggered = .ok a ∧
      (∀ kind, ∀ item ∈ a.queue.items kind, item.enqueuedAt + 10 < Time.limit) ∧
      a.queue.old 10 .control = [⟨routingFrame 0, 0⟩] ∧ a.queue.old 10 .data = [⟨blankFrame 1 200, 0⟩] ∧
      a.queue.young 10 .data = [⟨blankFrame 3 400, 3⟩] ∧ a.queue.Aged 10 10 ∧
      ∃ p q : TransmitQueue, a.queue.dequeue .data 10 = .ok (q, [⟨⟨routingFrame 0, 0⟩, .expired⟩,
          ⟨⟨blankFrame 1 200, 0⟩, .expired⟩], some ⟨blankFrame 3 400, 3⟩) ∧
        p.dequeue .data 10 = .ok (q, [], some ⟨blankFrame 3 400, 3⟩) := by
  have hops : InOrder staggered 10 := by unfold InOrder; decide
  have hrun : (start 4 10).run staggered = .ok ⟨⟨[⟨routingFrame 0, 0⟩],
      [⟨blankFrame 1 200, 0⟩, ⟨blankFrame 3 400, 3⟩], 4, 10, 656⟩, _, _, _, _, _, _⟩ := rfl
  have hdeadlines : ∀ kind, ∀ item ∈ TransmitQueue.items ⟨[⟨routingFrame 0, 0⟩],
      [⟨blankFrame 1 200, 0⟩, ⟨blankFrame 3 400, 3⟩], 4, 10, 656⟩ kind,
      item.enqueuedAt + 10 < Time.limit := by
    intro kind
    cases kind <;> decide
  obtain ⟨haged, -, p, q, head, hdequeue, hhead, -, -, -, -, -, hagain⟩ :=
    dequeue_in_order hrun hops hdeadlines .data
  subst hhead
  exact ⟨hops, _, hrun, hdeadlines, rfl, rfl, rfl, haged, p, q, hdequeue, hagain⟩

end QueueAccount

end SlotNet
