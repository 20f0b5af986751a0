import Mathlib.Tactic.Abel
import SlotNet.Proofs.QueueContents

/-!
# Every queued frame is accounted for

An account keeps, for a sequence of operations on the queues of a station, which frames were taken in, which
were refused, and how the others went out (`QueueAccount`). Whatever the operations and their times are, the
byte count is that of the data queue, the bounds are kept, each frame that was taken in waits or went out in
one way, and each one that was refused was reported once (`frames_balance`).
-/

namespace SlotNet

/-- What can be asked of the queues of a station. -/
inductive QueueOperation where
  | enqueue (frame : Frame) (now : Time)
  | dequeue (kind : QueueKind) (now : Time)
  | peek (kind : QueueKind) (now : Time)
  | cleanup (kind : QueueKind) (now : Time)
  | remove (kind : QueueKind) (uid : Nat)
  | flush
  | top (k : Nat)
  deriving DecidableEq, Repr

/-- The queues of a station, and what became of the frames. -/
structure QueueAccount where
  queue : TransmitQueue
  accepted : List QueueItem
  refused : List (QueueItem × EnqueueError)
  dequeued : List QueueItem
  removed : List QueueItem
  flushed : List QueueItem
  /-- Everything that was reported as dropped. -/
  told : List Drop
  deriving DecidableEq, Repr

def expiredOf (drops : List Drop) : List QueueItem :=
  (drops.filter (·.reason = .expired)).map (·.item)

/-- The drops of frames that were refused. -/
def refusalsOf (drops : List Drop) : List Drop := drops.filter (·.reason ≠ .expired)

theorem expiredOf_append (drops more : List Drop) :
    expiredOf (drops ++ more) = expiredOf drops ++ expiredOf more := by
  rw [expiredOf, List.filter_append, List.map_append]
  rfl

theorem refusalsOf_append (drops more : List Drop) :
    refusalsOf (drops ++ more) = refusalsOf drops ++ refusalsOf more := List.filter_append ..

theorem expiredOf_map (items : List QueueItem) : expiredOf (items.map (⟨·, .expired⟩)) = items := by
  simp [expiredOf, List.filter_map, Function.comp_def]

theorem refusalsOf_map (items : List QueueItem) : refusalsOf (items.map (⟨·, .expired⟩)) = [] := by
  simp [refusalsOf, List.filter_map, Function.comp_def]

theorem EnqueueError.reason_ne (e : EnqueueError) : e.reason ≠ .expired := by
  cases e <;> exact nofun

namespace QueueAccount

def start (maxPackets : Nat) (maxDelay : Time) : QueueAccount :=
  ⟨.new maxPackets maxDelay, [], [], [], [], [], []⟩

def step (a : QueueAccount) : QueueOperation → Except Fault QueueAccount
  | .enqueue frame now => do
    let (queue, drops, result) ← a.queue.enqueue frame now
    match result with
    | .ok _ => return { a with queue, told := a.told ++ drops, accepted := a.accepted ++ [⟨frame, now⟩] }
    | .error e =>
      return { a with queue, told := a.told ++ drops, refused := a.refused ++ [(⟨frame, now⟩, e)] }
  | .dequeue kind now => do
    let (queue, drops, head) ← a.queue.dequeue kind now
    return { a with queue, told := a.told ++ drops, dequeued := a.dequeued ++ head.toList }
  | .peek kind now => do
    let (queue, drops, _) ← a.queue.peek kind now
    return { a with queue, told := a.told ++ drops }
  | .cleanup kind now => do
    let (queue, drops) ← a.queue.cleanup kind now
    return { a with queue, told := a.told ++ drops }
  | .remove kind uid => do
    let first := (a.queue.items kind).find? (·.frame.uid == uid)
    let (queue, found) ← a.queue.remove kind uid
    return { a with queue, removed := a.removed ++ if found then first.toList else [] }
  | .flush =>
    return { a with queue := a.queue.flush, flushed := a.flushed ++ (a.queue.control ++ a.queue.data) }
  | .top _ => return a

def run (a : QueueAccount) : List QueueOperation → Except Fault QueueAccount
  | [] => .ok a
  | op :: ops => do (← a.step op).run ops

/-- The frames that went out, each in one way. -/
def left (a : QueueAccount) : Multiset QueueItem :=
  (a.dequeued : Multiset QueueItem) + a.removed + a.flushed + expiredOf a.told

/-- Every frame that was taken in waits or went out, and every one that was refused was reported. -/
structure Accounted (maxPackets : Nat) (a : QueueAccount) : Prop where
  lawful : a.queue.Lawful
  maxPackets : a.queue.maxPackets = maxPackets
  balance : (a.accepted : Multiset QueueItem) = a.queue.all + a.left
  reported : refusalsOf a.told = a.refused.map fun (item, e) => ⟨item, e.reason⟩

variable {a a' : QueueAccount} {maxPackets : Nat} {maxDelay : Time} {op : QueueOperation} {fault : Fault}

theorem accounted_start (maxPackets : Nat) (maxDelay : Time) :
    (start maxPackets maxDelay).Accounted maxPackets :=
  ⟨.new maxPackets maxDelay, rfl, rfl, rfl⟩

/-! ## One operation -/

theorem Accounted.yields {out : List QueueItem} (h : a.Accounted maxPackets)
    (hy : a.queue.Yields out a'.queue) (haccepted : a'.accepted = a.accepted)
    (hrefused : a'.refused = a.refused) (htold : refusalsOf a'.told = refusalsOf a.told)
    (hleft : a'.left = a.left + out) : a'.Accounted maxPackets := by
  refine ⟨hy.lawful, hy.maxPackets.trans h.maxPackets, ?_, ?_⟩
  · rw [haccepted, h.balance, hy.all, hleft, add_assoc, add_comm (out : Multiset QueueItem)]
  · rw [htold, hrefused]
    exact h.reported

theorem Accounted.ages {q : TransmitQueue} {expired : List QueueItem} (h : a.Accounted maxPackets)
    (hy : a.queue.Yields expired q) :
    Accounted maxPackets { a with queue := q, told := a.told ++ expired.map (⟨·, .expired⟩) } := by
  refine h.yields hy rfl rfl ?_ ?_
  · rw [refusalsOf_append, refusalsOf_map, List.append_nil]
  · show _ + _ + _ + ((expiredOf (a.told ++ _) : List QueueItem) : Multiset QueueItem) = _
    rw [expiredOf_append, expiredOf_map, ← Multiset.coe_add, ← add_assoc]
    rfl

theorem Accounted.refuses (h : a.Accounted maxPackets) (item : QueueItem) (e : EnqueueError) :
    Accounted maxPackets
      { a with told := a.told ++ [⟨item, e.reason⟩], refused := a.refused ++ [(item, e)] } := by
  have hnone : expiredOf [⟨item, e.reason⟩] = [] := by
    simp [expiredOf, e.reason_ne]
  have hone : refusalsOf [⟨item, e.reason⟩] = [⟨item, e.reason⟩] := by
    simp [refusalsOf, e.reason_ne]
  refine ⟨h.lawful, h.maxPackets, ?_, ?_⟩
  · rw [left, expiredOf_append, hnone, List.append_nil]
    exact h.balance
  · show refusalsOf (a.told ++ _) = (a.refused ++ _).map _
    rw [refusalsOf_append, hone, h.reported, List.map_append]
    rfl

theorem Accounted.admits {kind : QueueKind} {item : QueueItem} {q : TransmitQueue}
    (h : a.Accounted maxPackets) (ha : a.queue.Admits kind item q) :
    Accounted maxPackets { a with queue := q, accepted := a.accepted ++ [item] } := by
  refine ⟨ha.lawful, ha.maxPackets.trans h.maxPackets, ?_, h.reported⟩
  show ((a.accepted ++ [item] : List QueueItem) : Multiset QueueItem) = q.all + a.left
  rw [← Multiset.coe_add, ha.all, h.balance, add_right_comm]
  rfl

theorem Accounted.enqueue {frame : Frame} {now : Time} (h : a.Accounted maxPackets)
    (hs : a.step (.enqueue frame now) = .ok a') : a'.Accounted maxPackets := by
  obtain ⟨⟨q, drops, result⟩, he, hs⟩ := Fault.bind_eq_ok.1 hs
  obtain ⟨q₁, expired, h1, hcases⟩ := h.lawful.enqueue he
  obtain ⟨hprunes, rfl⟩ := h.lawful.cleanupBoth (by decide) h1
  rcases hcases with ⟨e, rfl, rfl, rfl⟩ | ⟨rfl, rfl, hadmits⟩
  · cases hs
    have hrefuses := (h.ages hprunes.toYields).refuses ⟨frame, now⟩ e
    dsimp only at hrefuses
    rw [List.append_assoc] at hrefuses
    exact hrefuses
  · cases hs
    exact (h.ages hprunes.toYields).admits hadmits

theorem Accounted.dequeue {kind : QueueKind} {now : Time} (h : a.Accounted maxPackets)
    (hs : a.step (.dequeue kind now) = .ok a') : a'.Accounted maxPackets := by
  obtain ⟨⟨q, drops, head⟩, hd, hs⟩ := Fault.bind_eq_ok.1 hs
  obtain ⟨⟨q₁, drops₁⟩, h1, -⟩ := Fault.bind_eq_ok.1 hd
  obtain ⟨q₂, hd', htakes⟩ := h.lawful.dequeue h1 kind
  cases hd.symm.trans hd'
  cases hs
  obtain ⟨hprunes, rfl⟩ := h.lawful.cleanupBoth (by decide) h1
  refine (h.ages hprunes.toYields).yields htakes.toYields rfl rfl rfl ?_
  show ((a.dequeued ++ _ : List QueueItem) : Multiset QueueItem) + a.removed + a.flushed + _ = _
  rw [← Multiset.coe_add, left]
  abel

/-- Whatever is asked, the frames stay accounted for. -/
theorem Accounted.step (h : a.Accounted maxPackets) (hs : a.step op = .ok a') :
    a'.Accounted maxPackets := by
  cases op with
  | enqueue frame now => exact h.enqueue hs
  | dequeue kind now => exact h.dequeue hs
  | peek kind now =>
    obtain ⟨⟨q, drops, head⟩, hp, hs⟩ := Fault.bind_eq_ok.1 hs
    obtain ⟨hprunes, rfl⟩ := h.lawful.cleanupBoth (by decide) (TransmitQueue.peek_eq_ok hp).1
    cases hs
    exact h.ages hprunes.toYields
  | cleanup kind now =>
    obtain ⟨⟨q, drops⟩, hc, hs⟩ := Fault.bind_eq_ok.1 hs
    obtain ⟨htakes, rfl⟩ := h.lawful.cleanup hc
    cases hs
    exact h.ages htakes.toYields
  | remove kind uid =>
    obtain ⟨⟨q, found⟩, hr, hs⟩ := Fault.bind_eq_ok.1 hs
    obtain ⟨q', hr', htakes⟩ := h.lawful.remove kind uid
    cases hr.symm.trans hr'
    cases hs
    refine h.yields htakes.toYields rfl rfl rfl ?_
    have hout : (if ((a.queue.items kind).find? (·.frame.uid == uid)).isSome then
        ((a.queue.items kind).find? (·.frame.uid == uid)).toList else []) =
        ((a.queue.items kind).find? (·.frame.uid == uid)).toList := by
      cases (a.queue.items kind).find? (·.frame.uid == uid) <;> rfl
    show _ + ((a.removed ++ _ : List QueueItem) : Multiset QueueItem) + _ + _ = _
    rw [hout, ← Multiset.coe_add, left]
    abel
  | flush =>
    cases hs
    refine h.yields (TransmitQueue.flush_yields a.queue) rfl rfl rfl ?_
    show _ + _ + ((a.flushed ++ _ : List QueueItem) : Multiset QueueItem) + _ = _
    rw [← Multiset.coe_add, left]
    abel
  | top k =>
    cases hs
    exact h

/-- An operation fails only where a deadline is no time or the bytes have no count. -/
theorem Accounted.step_error (h : a.Accounted maxPackets) (hs : a.step op = .error fault) :
    fault = .timeOverflow ∨
      ∃ frame now, op = .enqueue frame now ∧ Count.limit ≤ a.queue.queuedBytes + frame.size := by
  cases op with
  | enqueue frame now =>
    rcases Fault.bind_eq_error.1 hs with he | ⟨⟨q, drops, result⟩, -, hs⟩
    · exact (h.lawful.enqueue_error he).imp_right fun hlimit => ⟨frame, now, rfl, hlimit⟩
    · cases result <;> cases hs
  | dequeue kind now =>
    rcases Fault.bind_eq_error.1 hs with hd | ⟨⟨q, drops, head⟩, -, hs⟩
    · exact .inl (h.lawful.dequeue_error hd)
    · cases hs
  | peek kind now =>
    rcases Fault.bind_eq_error.1 hs with hp | ⟨⟨q, drops, head⟩, -, hs⟩
    · exact .inl (h.lawful.peek_error hp)
    · cases hs
  | cleanup kind now =>
    rcases Fault.bind_eq_error.1 hs with hc | ⟨⟨q, drops⟩, -, hs⟩
    · exact .inl (h.lawful.cleanup_error hc)
    · cases hs
  | remove kind uid =>
    obtain ⟨q, hr, -⟩ := h.lawful.remove kind uid
    rcases Fault.bind_eq_error.1 hs with hr' | ⟨⟨q, found⟩, -, hs⟩
    · cases hr.symm.trans hr'
    · cases hs
  | flush => cases hs
  | top k => cases hs

/-! ## Any operations -/

theorem Accounted.run {ops : List QueueOperation} (h : a.Accounted maxPackets)
    (hr : a.run ops = .ok a') : a'.Accounted maxPackets := by
  induction ops generalizing a with
  | nil =>
    cases hr
    exact h
  | cons op ops ih =>
    obtain ⟨a₁, hs, hr⟩ := Fault.bind_eq_ok.1 hr
    exact ih (h.step hs) hr

theorem Accounted.run_error {ops : List QueueOperation} (h : a.Accounted maxPackets)
    (hr : a.run ops = .error fault) :
    fault = .timeOverflow ∨ ∃ before frame now after a', ops = before ++ .enqueue frame now :: after ∧
      a.run before = .ok a' ∧ Count.limit ≤ a'.queue.queuedBytes + frame.size := by
  induction ops generalizing a with
  | nil => cases hr
  | cons op ops ih =>
    rcases Fault.bind_eq_error.1 hr with hs | ⟨a₁, hs, hr⟩
    · rcases h.step_error hs with htime | ⟨frame, now, rfl, hlimit⟩
      · exact .inl htime
      · exact .inr ⟨[], frame, now, ops, a, rfl, rfl, hlimit⟩
    · refine (ih (h.step hs) hr).imp_right ?_
      rintro ⟨before, frame, now, after, a', rfl, hbefore, hlimit⟩
      exact ⟨op :: before, frame, now, after, a', rfl, Fault.bind_eq_ok.2 ⟨a₁, hs, hbefore⟩, hlimit⟩

/-- After any operations at any times the frames are accounted for: the byte count is that of the data queue,
no queue is longer than it may be, no frame is too large, each frame that was taken in waits or went out in
one way, and each one that was refused was reported once. A frame that is refused then leaves the queues as
the ageing leaves them. The operations fail only at a deadline that is no time, or when the data queue would
hold more bytes than can be counted. -/
theorem frames_balance (maxPackets : Nat) (maxDelay : Time) (ops : List QueueOperation) :
    (∀ a, (start maxPackets maxDelay).run ops = .ok a → a.Accounted maxPackets ∧
      ∀ frame now q drops e, a.queue.enqueue frame now = .ok (q, drops, .error e) →
        ∃ expired, a.queue.cleanupBoth .data .control now = .ok (q, expired.map (⟨·, .expired⟩)) ∧
          a.queue.Prunes now expired q ∧
          drops = expired.map (⟨·, .expired⟩) ++ [⟨⟨frame, now⟩, e.reason⟩]) ∧
    ∀ fault, (start maxPackets maxDelay).run ops = .error fault →
      fault = .timeOverflow ∨ ∃ before frame now after a, ops = before ++ .enqueue frame now :: after ∧
        (start maxPackets maxDelay).run before = .ok a ∧
        Count.limit ≤ a.queue.queuedBytes + frame.size := by
  have hstart := accounted_start maxPackets maxDelay
  refine ⟨fun a hr => ⟨hstart.run hr, fun frame now q drops e he => ?_⟩, fun fault hr => hstart.run_error hr⟩
  have ha := hstart.run hr
  obtain ⟨q₁, expired, h1, hcases⟩ := ha.lawful.enqueue he
  obtain ⟨hprunes, rfl⟩ := ha.lawful.cleanupBoth (by decide) h1
  rcases hcases with ⟨e', he', rfl, rfl⟩ | ⟨hok, -⟩
  · cases he'
    exact ⟨_, h1, hprunes, rfl⟩
  · cases hok

/-- Data of one node for another. -/
def blankFrame (uid size : Nat) : Frame :=
  ⟨uid, .data, .ofNode 0, .ofNode 1, 0, 1, 0, .blank size⟩

/-- There is room for one frame. The second is refused, the third is too large, and the fourth is taken in
when the first is too old; it is the one that is handed out. -/
def roomForOne : List QueueOperation :=
  [.enqueue (blankFrame 0 100) 0, .enqueue (blankFrame 1 200) 9, .enqueue (blankFrame 2 1500) 9,
    .enqueue (blankFrame 3 300) 10, .top 1, .peek .data 11, .dequeue .data 12]

theorem frames_balance_roomForOne :
    ∃ a, (start 1 10).run roomForOne = .ok a ∧
      a.refused = [(⟨blankFrame 1 200, 9⟩, .queueFull .data), (⟨blankFrame 2 1500, 9⟩, .tooLarge 1528)] ∧
      expiredOf a.told = [⟨blankFrame 0 100, 0⟩] ∧ a.dequeued = [⟨blankFrame 3 300, 10⟩] ∧
      a.queue.queuedBytes = 0 ∧ a.Accounted 1 :=
  ⟨_, rfl, rfl, rfl, rfl, rfl, ((frames_balance 1 10 roomForOne).1 _ rfl).1⟩

end QueueAccount

end SlotNet
