import SlotNet.Proofs.OnAir
import SlotNet.Proofs.StuckFrames

/-!
# The loop over the frames of a slot

A station goes through the front of a queue in passes (`Station.pass`): it drops a frame that has no way to
go and starts over, or it sends the frame if that ends in time, and is done. No pass makes the queue longer
and each but the last makes it shorter, so the loop ends (`exists_runs`), with what `continueSlot` gives.
`slot_loop_ends` says what it has done then: the frames that were too old are gone and so are those stuck in
front, and of the others the first has been sent if, and only if, it ends in time.
-/

namespace SlotNet

/-! ## Any next hops -/

namespace Routes

/-- Routes with given next hops between the first nodes. -/
def ofNextHops (nodes : Nat) (nextHop : Nat → Nat → Option Nat) : Routes :=
  ⟨(List.range nodes).map fun node => (List.range nodes).map fun destination =>
    (nextHop node destination).map fun hop => ⟨destination, hop, 1⟩⟩

theorem nextHop_ofNextHops {nodes node destination : Nat} (nextHop : Nat → Nat → Option Nat)
    (hnode : node < nodes) (hdestination : destination < nodes) :
    (ofNextHops nodes nextHop).nextHop node destination = nextHop node destination := by
  simp [ofNextHops, Routes.nextHop, hnode, hdestination, Function.comp_def]

end Routes

/-! ## Passes -/

/-- What one pass over the front of a queue comes to. -/
inductive Pass where
  /-- The loop is over, and this is the frame that was sent. -/
  | ended (s : Station) (m : Medium) (sent : Option Frame)
  /-- A frame was dropped, and another pass follows. -/
  | again (s : Station) (m : Medium)

namespace Station

variable {s s' : Station} {m m' : Medium} {kind : QueueKind} {slotEnd : Time} {control : Bool}
  {passes passes' fuel : Nat} {item : QueueItem} {rest : List QueueItem} {sent : Option Frame}
  {r r' : Except Fault (Station × Medium × Option Frame)}

def pass (slotEnd : Time) (control : Bool) (s : Station) (m : Medium) : Except Fault Pass := do
  let kind := QueueKind.ofSlot control
  let (s, m, head) ← s.peek m kind
  match head with
  | none => return .ended s m none
  | some item =>
    match s.receiverOf m kind item with
    | none =>
      let (queue, _) ← s.queue.remove kind item.frame.uid
      let stats ← m.stats.recordNoRoute
      return .again { s with queue } { m with stats }
    | some receiver =>
      let airtime := Timing.airtime item.frame.size m.dataRate
      let finish ← Time.add m.now airtime
      if slotEnd < finish then return .ended s m none
      else
        let (s, m, sent) ← s.sendHead m kind receiver airtime slotEnd
        return .ended s m sent

/-- The loop comes to a result after so many passes. -/
inductive Runs (slotEnd : Time) (control : Bool) :
    Nat → Station → Medium → Except Fault (Station × Medium × Option Frame) → Prop
  | fault {s : Station} {m : Medium} {fault : Fault} (h : pass slotEnd control s m = .error fault) :
    Runs slotEnd control 1 s m (.error fault)
  | ended {s s' : Station} {m m' : Medium} {sent : Option Frame}
    (h : pass slotEnd control s m = .ok (.ended s' m' sent)) :
    Runs slotEnd control 1 s m (.ok (s', m', sent))
  | again {passes : Nat} {s s' : Station} {m m' : Medium}
    {r : Except Fault (Station × Medium × Option Frame)}
    (h : pass slotEnd control s m = .ok (.again s' m')) (hrest : Runs slotEnd control passes s' m' r) :
    Runs slotEnd control (passes + 1) s m r

/-- What a station does with the frame that it has found. -/
def sendNext (slotEnd : Time) (control : Bool) :
    Station × Medium × Option (QueueItem × Address) → Except Fault (Station × Medium × Option Frame)
  | (s, m, none) => .ok (s, m, none)
  | (s, m, some (item, receiver)) => do
    let airtime := Timing.airtime item.frame.size m.dataRate
    let finish ← Time.add m.now airtime
    if slotEnd < finish then return (s, m, none)
    else s.sendHead m (QueueKind.ofSlot control) receiver airtime slotEnd

theorem continueSlot_eq (s : Station) (m : Medium) (slotEnd : Time) (control : Bool) :
    s.continueSlot m slotEnd control =
      (nextToSend (QueueKind.ofSlot control) ((s.queue.items (QueueKind.ofSlot control)).length + 1) s m
        >>= sendNext slotEnd control) := by
  unfold continueSlot
  refine congrArg (_ >>= ·) (funext fun found => ?_)
  obtain ⟨s, m, next⟩ := found
  cases next <;> rfl

/-- What a station does after a pass, if as many more as `fuel` may follow. -/
def resume (slotEnd : Time) (control : Bool) (fuel : Nat) :
    Pass → Except Fault (Station × Medium × Option Frame)
  | .ended s m sent => .ok (s, m, sent)
  | .again s m => nextToSend (QueueKind.ofSlot control) fuel s m >>= sendNext slotEnd control

theorem search_step (fuel : Nat) (s : Station) (m : Medium) :
    (nextToSend (QueueKind.ofSlot control) (fuel + 1) s m >>= sendNext slotEnd control) =
      pass slotEnd control s m >>= resume slotEnd control fuel := by
  rw [nextToSend, pass, bind_assoc, bind_assoc]
  refine congrArg (_ >>= ·) (funext fun peeked => ?_)
  obtain ⟨s, m, head⟩ := peeked
  cases head with
  | none => rfl
  | some item =>
    dsimp only
    cases s.receiverOf m (QueueKind.ofSlot control) item with
    | none => simp only [bind_assoc, pure_bind, resume]
    | some receiver =>
      simp only [bind_assoc, pure_bind, sendNext]
      refine congrArg (_ >>= ·) (funext fun finish => ?_)
      split
      · rfl
      · rw [bind_assoc]
        exact (bind_pure _).symm

/-- A pass after which another one follows has dropped a frame. -/
theorem pass_again (h : pass slotEnd control s m = .ok (.again s' m')) :
    (s'.queue.items (QueueKind.ofSlot control)).length
      < (s.queue.items (QueueKind.ofSlot control)).length := by
  obtain ⟨⟨s₁, m₁, head⟩, hpeek, h⟩ := Fault.bind_eq_ok.1 h
  obtain ⟨hsheds, -, hhead⟩ := peek_sheds hpeek
  cases head with
  | none => cases h
  | some item =>
    dsimp only at h
    split at h
    · obtain ⟨⟨queue, found⟩, hremove, h⟩ := Fault.bind_eq_ok.1 h
      obtain ⟨stats, -, h⟩ := Fault.bind_eq_ok.1 h
      cases h
      obtain ⟨rest, hi⟩ := List.head?_eq_some_iff.1 hhead
      rw [TransmitQueue.remove_head hi] at hremove
      obtain ⟨q, hrelease, hq⟩ := Fault.map_eq_ok.1 hremove
      obtain ⟨rfl, -⟩ := Prod.mk.inj hq
      -- ageing adds nothing to the queue, and then its first frame goes
      have hshorter := (hsheds.queue.items (QueueKind.ofSlot control)).length_le
      rw [hi] at hshorter
      show (q.items (QueueKind.ofSlot control)).length < _
      rw [(TransmitQueue.release_leaves hi hrelease).items]
      exact hshorter
    · obtain ⟨finish, -, h⟩ := Fault.bind_eq_ok.1 h
      split at h
      · cases h
      · obtain ⟨⟨s₂, m₂, sent⟩, -, h⟩ := Fault.bind_eq_ok.1 h
        cases h

theorem Runs.unique (h : Runs slotEnd control passes s m r) (h' : Runs slotEnd control passes' s m r') :
    passes' = passes ∧ r' = r := by
  induction h generalizing passes' r' with
  | fault hpass =>
    cases h' with
    | fault hpass' =>
      cases hpass.symm.trans hpass'
      exact ⟨rfl, rfl⟩
    | ended hpass' => cases hpass.symm.trans hpass'
    | again hpass' _ => cases hpass.symm.trans hpass'
  | ended hpass =>
    cases h' with
    | fault hpass' => cases hpass.symm.trans hpass'
    | ended hpass' =>
      cases hpass.symm.trans hpass'
      exact ⟨rfl, rfl⟩
    | again hpass' _ => cases hpass.symm.trans hpass'
  | again hpass _ ih =>
    cases h' with
    | fault hpass' => cases hpass.symm.trans hpass'
    | ended hpass' => cases hpass.symm.trans hpass'
    | again hpass' hruns =>
      cases hpass.symm.trans hpass'
      obtain ⟨rfl, rfl⟩ := ih hruns
      exact ⟨rfl, rfl⟩

/-- The loop ends, whatever waits: each pass but the last takes a frame out. -/
theorem exists_runs (slotEnd : Time)
    (hfuel : (s.queue.items (QueueKind.ofSlot control)).length < fuel) :
    ∃ passes ≤ (s.queue.items (QueueKind.ofSlot control)).length + 1,
      Runs slotEnd control passes s m
        (nextToSend (QueueKind.ofSlot control) fuel s m >>= sendNext slotEnd control) := by
  induction fuel generalizing s m with
  | zero => exact absurd hfuel (Nat.not_lt_zero _)
  | succ fuel ih =>
    rw [search_step]
    cases hpass : pass slotEnd control s m with
    | error fault => exact ⟨1, Nat.le_add_left _ _, .fault hpass⟩
    | ok p =>
      cases p with
      | ended s' m' sent => exact ⟨1, Nat.le_add_left _ _, .ended hpass⟩
      | again s' m' =>
        -- the queue is shorter now, so what is left of the fuel is enough
        have hshorter := pass_again hpass
        obtain ⟨passes, hpasses, hruns⟩ := @ih s' m' (by omega)
        exact ⟨passes + 1, by omega, .again hpass hruns⟩

/-! ## What the loop has done -/

theorem sendHead_eq (hfresh : s.queue.Fresh m.now)
    (hi : s.queue.items (QueueKind.ofSlot control) = item :: rest) (receiver : Address) (slotEnd : Time) :
    s.sendHead m (QueueKind.ofSlot control) receiver (Timing.airtime item.frame.size m.dataRate) slotEnd =
      (do
        let queue ← (s.queue.setItems (QueueKind.ofSlot control) rest).release (QueueKind.ofSlot control)
          item.frame.size
        let m' ← m.air s.node slotEnd control (s.aired item receiver)
        return ({ s with queue }, m', some (s.aired item receiver))) := by
  unfold sendHead dequeue
  rw [hfresh.dequeue_head hi]
  cases (s.queue.setItems (QueueKind.ofSlot control) rest).release (QueueKind.ofSlot control)
      item.frame.size with
  | error fault => rfl
  | ok queue =>
    rw [QueueKind.decide_ofSlot]
    simp only [Medium.air, bind_assoc]
    rfl

theorem receiverOf_ready (h : s.ready m kind = item :: rest) :
    ∃ receiver, s.receiverOf m kind item = some receiver := by
  have hway := List.head?_dropWhile_not (s.lacksWay m kind) (s.queue.kept m.now kind)
  rw [← ready, h] at hway
  rw [← Option.isSome_iff_exists, ← Option.not_isNone, isNone_receiverOf, hway]
  rfl

theorem Clears.sendNext_eq (h : s.Clears m (QueueKind.ofSlot control) s' m')
    (hready : s.ready m (QueueKind.ofSlot control) = item :: rest) (slotEnd : Time) :
    ∃ receiver, s.receiverOf m (QueueKind.ofSlot control) item = some receiver ∧
      sendNext slotEnd control (s', m', (s.ready m (QueueKind.ofSlot control)).head?.bind
          (s.addressed m (QueueKind.ofSlot control))) =
        (do
          let finish ← Time.add m.now (Timing.airtime item.frame.size m.dataRate)
          if slotEnd < finish then return (s', m', none)
          else
            let queue ← (s'.queue.setItems (QueueKind.ofSlot control) rest).release
              (QueueKind.ofSlot control) item.frame.size
            let m₁ ← m'.air s.node slotEnd control (s.aired item receiver)
            return ({ s' with queue }, m₁, some (s.aired item receiver))) := by
  obtain ⟨receiver, hreceiver⟩ := receiverOf_ready hready
  -- the search has changed neither the clock nor the rate nor the station's name
  have hnow : m'.now = m.now := by rw [h.medium]; rfl
  have hrate : m'.dataRate = m.dataRate := by rw [h.medium]; rfl
  have hnode : s'.node = s.node := by rw [h.station]
  have haired : s'.aired item receiver = s.aired item receiver := by rw [aired, aired, h.station]
  refine ⟨receiver, hreceiver, ?_⟩
  rw [hready, List.head?_cons, Option.bind_some, addressed, hreceiver]
  show (Time.add m'.now (Timing.airtime item.frame.size m'.dataRate) >>= fun finish => ite _ _ _) = _
  rw [sendHead_eq (hnow ▸ h.fresh) (h.items.trans hready), hnow, hrate, hnode, haired]

/-- What is left of a slot's queue, and what was sent: the frames that were too old are gone, those stuck in
front too, and of the others the first has been sent if, and only if, it ends in time. -/
structure Spends (s : Station) (m : Medium) (slotEnd : Time) (control : Bool) (s' : Station)
    (m' : Medium) (sent : Option Frame) : Prop where
  station : s' = { s with queue := s'.queue }
  maxDelay : s'.queue.maxDelay = s.queue.maxDelay
  lawful : s.queue.Lawful → s'.queue.Lawful ∧ s'.queue.maxPackets = s.queue.maxPackets
  others : ∀ k, k ≠ QueueKind.ofSlot control → s'.queue.items k = s.queue.kept m.now k
  rest : s'.queue.items (QueueKind.ofSlot control)
    = (s.ready m (QueueKind.ofSlot control)).drop sent.toList.length
  sends : sent.isSome ↔ ∃ item, (s.ready m (QueueKind.ofSlot control)).head? = some item ∧
    m.now + Timing.airtime item.frame.size m.dataRate ≤ slotEnd
  idle : sent = none → m' = s.counted m (QueueKind.ofSlot control)
  airs : ∀ frame, sent = some frame → ∃ item receiver,
    (s.ready m (QueueKind.ofSlot control)).head? = some item ∧
      s.receiverOf m (QueueKind.ofSlot control) item = some receiver ∧
      frame = s.aired item receiver ∧
      (s.counted m (QueueKind.ofSlot control)).air s.node slotEnd control frame = .ok m'

theorem Clears.spends (h : s.Clears m (QueueKind.ofSlot control) s' m')
    (hlate : ∀ item, (s.ready m (QueueKind.ofSlot control)).head? = some item →
      slotEnd < m.now + Timing.airtime item.frame.size m.dataRate) :
    s.Spends m slotEnd control s' m' none where
  station := h.station
  maxDelay := h.maxDelay
  lawful := h.lawful
  others := h.others
  rest := h.items
  sends := by
    refine ⟨nofun, ?_⟩
    rintro ⟨item, hitem, hfits⟩
    exact absurd hfits (Nat.not_le_of_lt (hlate item hitem))
  idle _ := h.medium
  airs := nofun

theorem Clears.spends_head (h : s.Clears m (QueueKind.ofSlot control) s' m')
    (hready : s.ready m (QueueKind.ofSlot control) = item :: rest) {receiver : Address}
    (hreceiver : s.receiverOf m (QueueKind.ofSlot control) item = some receiver)
    (hfits : m.now + Timing.airtime item.frame.size m.dataRate ≤ slotEnd) {queue : TransmitQueue}
    (hrelease : (s'.queue.setItems (QueueKind.ofSlot control) rest).release (QueueKind.ofSlot control)
      item.frame.size = .ok queue) {m'' : Medium}
    (hair : m'.air s.node slotEnd control (s.aired item receiver) = .ok m'') :
    s.Spends m slotEnd control { s' with queue } m'' (some (s.aired item receiver)) := by
  have hleaves := TransmitQueue.release_leaves (h.items.trans hready) hrelease
  have hhead : (s.ready m (QueueKind.ofSlot control)).head? = some item := by rw [hready]; rfl
  exact
    { station := by rw [h.station]
      maxDelay := hleaves.maxDelay.trans h.maxDelay
      lawful := fun hq => by
        obtain ⟨hq', hmax⟩ := h.lawful hq
        exact (hleaves.lawful hq').imp_right (·.trans hmax)
      others := fun k hk => (hleaves.others k hk).trans (h.others k hk)
      rest := by
        rw [hready]
        exact hleaves.items
      sends := ⟨fun _ => ⟨item, hhead, hfits⟩, fun _ => rfl⟩
      idle := fun hnone => absurd hnone (Option.some_ne_none _)
      airs := fun frame hframe => by
        cases hframe
        exact ⟨item, receiver, hhead, hreceiver, rfl, h.medium ▸ hair⟩ }

theorem continueSlot_spends (h : s.continueSlot m slotEnd control = .ok (s', m', sent)) :
    s.Spends m slotEnd control s' m' sent := by
  rw [continueSlot_eq] at h
  obtain ⟨⟨s₁, m₁, next⟩, hnext, h⟩ := Fault.bind_eq_ok.1 h
  obtain ⟨hclears, rfl⟩ := nextToSend_clears (Nat.lt_succ_self _) hnext
  cases hready : s.ready m (QueueKind.ofSlot control) with
  | nil =>
    rw [hready] at h
    cases h
    refine hclears.spends fun item hitem => ?_
    rw [hready] at hitem
    cases hitem
  | cons item rest =>
    obtain ⟨receiver, hreceiver, hsend⟩ := hclears.sendNext_eq hready slotEnd
    rw [hsend] at h
    obtain ⟨finish, hfinish, h⟩ := Fault.bind_eq_ok.1 h
    obtain rfl := (Time.add_eq_ok hfinish).1
    split at h
    · rename_i hlate
      cases h
      refine hclears.spends fun item' hitem' => ?_
      rw [hready] at hitem'
      cases hitem'
      exact hlate
    · rename_i hfits
      obtain ⟨queue, hrelease, h⟩ := Fault.bind_eq_ok.1 h
      obtain ⟨m₂, hair, h⟩ := Fault.bind_eq_ok.1 h
      cases h
      exact hclears.spends_head hready hreceiver (Nat.le_of_not_lt hfits) hrelease hair

/-- The clock and the counters have room for all that may come in a slot. -/
structure HasRoom (s : Station) (m : Medium) (kind : QueueKind) : Prop extends s.Tellable m kind where
  finish : ∀ item, (s.ready m kind).head? = some item →
    m.now + Timing.airtime item.frame.size m.dataRate < Time.limit
  air : ∀ item, (s.ready m kind).head? = some item → m.CanAir item.frame.size

theorem exists_continueSlot (hq : s.queue.Lawful) (hroom : s.HasRoom m (QueueKind.ofSlot control))
    (slotEnd : Time) : ∃ result, s.continueSlot m slotEnd control = .ok result := by
  obtain ⟨⟨s₁, m₁, next⟩, hnext⟩ := exists_nextToSend hq hroom.toTellable
    ((s.queue.items (QueueKind.ofSlot control)).length + 1)
  rw [continueSlot_eq, hnext]
  obtain ⟨hclears, rfl⟩ := nextToSend_clears (Nat.lt_succ_self _) hnext
  show ∃ result, sendNext slotEnd control (s₁, m₁, _) = .ok result
  cases hready : s.ready m (QueueKind.ofSlot control) with
  | nil => exact ⟨_, rfl⟩
  | cons item rest =>
    obtain ⟨receiver, -, hsend⟩ := hclears.sendNext_eq hready slotEnd
    rw [hready] at hsend
    rw [hsend]
    have hhead : (s.ready m (QueueKind.ofSlot control)).head? = some item := by rw [hready]; rfl
    have hends := hroom.finish item hhead
    have hfinish : Time.add m.now (Timing.airtime item.frame.size m.dataRate) = .ok _ := if_pos hends
    by_cases hlate : slotEnd < m.now + Timing.airtime item.frame.size m.dataRate
    · exact ⟨_, Fault.bind_eq_ok.2 ⟨_, hfinish, if_pos hlate⟩⟩
    · obtain ⟨queue, hrelease, -⟩ := (hclears.lawful hq).1.takes_head (hclears.items.trans hready)
      have hcan : m₁.CanAir (s.aired item receiver).size := by
        obtain ⟨hframes, htotal, hcontrol, hcollisions, hcancelled, hclock⟩ := hroom.air item hhead
        rw [hclears.medium]
        exact ⟨hframes, htotal, hcontrol, hcollisions, hcancelled, hclock⟩
      have hrate : m₁.now + Timing.airtime item.frame.size m₁.dataRate < Time.limit := by
        rw [hclears.medium]
        exact hends
      obtain ⟨m', hair⟩ := Medium.exists_air hcan hrate s.node slotEnd control
      exact ⟨_, Fault.bind_eq_ok.2 ⟨_, hfinish, (if_neg hlate).trans
        (Fault.bind_eq_ok.2 ⟨queue, hrelease, Fault.bind_eq_ok.2 ⟨m', hair, rfl⟩⟩)⟩⟩

/-- The loop over the frames of a slot ends, whatever waits, whatever the numbers of the frames are, and
whatever the next hops (`Routes.nextHop_ofNextHops`): after one pass at most for each frame and one more it
has its only result, that of `continueSlot`. The queues are then without the frames that were too old, and the
slot's queue is without those in front that had no way to go, which are counted as such. Of the others, which
are left in order, the first is gone too if, and only if, there is one and it ends in time; then it is on the
air, and it alone, with one event to go on after it. The result is no fault where the clock and the counters
have room. -/
theorem slot_loop_ends (s : Station) (m : Medium) (slotEnd : Time) (control : Bool) :
    (∃ passes ≤ (s.queue.items (QueueKind.ofSlot control)).length + 1, ∀ n r,
      Runs slotEnd control n s m r ↔ n = passes ∧ r = s.continueSlot m slotEnd control) ∧
    (∀ s' m' sent, s.continueSlot m slotEnd control = .ok (s', m', sent) →
      s.Spends m slotEnd control s' m' sent ∧
      m'.stats.noRouteDrops
        = m.stats.noRouteDrops + (s.stuck m (QueueKind.ofSlot control)).length ∧
      m'.stats.framesSent = m.stats.framesSent + sent.toList.length ∧
      ∃ receivers : List Nat, m'.events.planned.Perm
        (sent.toList.flatMap (fun frame =>
          .continueSlot s.node slotEnd control :: receivers.map (.deliver · frame))
          ++ m.events.planned)) ∧
    (s.queue.Lawful → s.HasRoom m (QueueKind.ofSlot control) →
      ∃ result, s.continueSlot m slotEnd control = .ok result) := by
  refine ⟨?_, fun s' m' sent h => ?_, fun hq hroom => exists_continueSlot hq hroom slotEnd⟩
  · obtain ⟨passes, hpasses, hruns⟩ := exists_runs (s := s) (m := m) slotEnd (Nat.lt_succ_self _)
    rw [← continueSlot_eq] at hruns
    refine ⟨passes, hpasses, fun n r => ⟨fun hr => hruns.unique hr, ?_⟩⟩
    rintro ⟨rfl, rfl⟩
    exact hruns
  · have hspends := continueSlot_spends h
    cases sent with
    | none =>
      obtain rfl := hspends.idle rfl
      exact ⟨hspends, rfl, rfl, [], .refl _⟩
    | some frame =>
      obtain ⟨item, receiver, -, -, -, hair⟩ := hspends.airs frame rfl
      obtain ⟨hsent, hdrops, receivers, hevents⟩ := Medium.air_once hair
      refine ⟨hspends, hdrops, hsent, receivers, ?_⟩
      rw [Option.toList_some, List.flatMap_singleton]
      exact hevents.planned

/-- The first frame will be too old. Those behind it have one number, but only the third of these has a way to
go; the last frame has none, and waits behind it. -/
def sameNumbers : List QueueOperation :=
  [.enqueue (QueueAccount.blankFrame 1 100) 0,
    .enqueue { QueueAccount.blankFrame 7 100 with destination := 8 } 500000,
    .enqueue { QueueAccount.blankFrame 7 200 with destination := 9 } 600000,
    .enqueue (QueueAccount.blankFrame 7 100) 700000,
    .enqueue { QueueAccount.blankFrame 2 100 with destination := 9 } 800000]

/-- The queues after that. -/
def waitingAlike : TransmitQueue where
  control := []
  data :=
    [⟨QueueAccount.blankFrame 1 100, 0⟩,
      ⟨{ QueueAccount.blankFrame 7 100 with destination := 8 }, 500000⟩,
      ⟨{ QueueAccount.blankFrame 7 200 with destination := 9 }, 600000⟩,
      ⟨QueueAccount.blankFrame 7 100, 700000⟩,
      ⟨{ QueueAccount.blankFrame 2 100 with destination := 9 }, 800000⟩]
  maxPackets := 8
  maxDelay := 1000000
  queuedBytes := 740

/-- A millisecond has passed, and the first node knows a way to the second. -/
def aloneOnAir : Medium where
  events := ⟨1000000, 0, []⟩
  channel := ⟨100.0, [⟨0, .ofNode 0⟩], []⟩
  positions := [⟨0.0, 0.0⟩]
  routes := .ofNextHops 10 fun node destination => if node = 0 ∧ destination = 1 then some 1 else none
  stats := {}
  nextUid := 8
  dataRate := 11000000

theorem slot_loop_ends_sameNumbers :
    (∃ a, (QueueAccount.start 8 1000000).run sameNumbers = .ok a ∧ a.queue = waitingAlike) ∧
    waitingAlike.Lawful ∧ HasRoom ⟨0, .ofNode 0, waitingAlike⟩ aloneOnAir (.ofSlot false) ∧
    ∃ s' m' frame, continueSlot ⟨0, .ofNode 0, waitingAlike⟩ aloneOnAir 1093091 false
        = .ok (s', m', some frame) ∧
      (∃ passes ≤ 6, Runs 1093091 false passes ⟨0, .ofNode 0, waitingAlike⟩ aloneOnAir
        (.ok (s', m', some frame))) ∧
      s'.queue.items .data = [⟨{ QueueAccount.blankFrame 2 100 with destination := 9 }, 800000⟩] ∧
      m'.stats.noRouteDrops = 2 ∧ m'.stats.framesSent = 1 := by
  have hrun : (QueueAccount.start 8 1000000).run sameNumbers = .ok ⟨waitingAlike, _, _, _, _, _, _⟩ := rfl
  have hlawful := ((QueueAccount.accounted_start 8 1000000).run hrun).lawful
  have hready : ready ⟨0, .ofNode 0, waitingAlike⟩ aloneOnAir (.ofSlot false) =
      [⟨QueueAccount.blankFrame 7 100, 700000⟩,
        ⟨{ QueueAccount.blankFrame 2 100 with destination := 9 }, 800000⟩] := rfl
  have hroom : HasRoom ⟨0, .ofNode 0, waitingAlike⟩ aloneOnAir (.ofSlot false) := by
    refine ⟨⟨fun k => ?_, by decide, by decide⟩, ?_, ?_⟩
    · cases k <;> decide
    · rw [hready]
      rintro item ⟨⟩
      decide
    · rw [hready]
      rintro item ⟨⟩
      exact ⟨by decide, by decide, by decide, by decide, by decide, by decide⟩
  obtain ⟨⟨passes, hpasses, hruns⟩, hresult, hok⟩ :=
    slot_loop_ends ⟨0, .ofNode 0, waitingAlike⟩ aloneOnAir 1093091 false
  obtain ⟨⟨s', m', sent⟩, hslot⟩ := hok hlawful hroom
  obtain ⟨hspends, hdrops, hsent, -⟩ := hresult s' m' sent hslot
  have hgoes : sent.isSome := hspends.sends.2 ⟨_, by rw [hready]; rfl, by decide⟩
  obtain ⟨frame, rfl⟩ := Option.isSome_iff_exists.1 hgoes
  have hrest := hspends.rest
  rw [hready] at hrest
  exact ⟨⟨_, hrun, rfl⟩, hlawful, hroom, s', m', frame, hslot,
    ⟨passes, hpasses, (hruns _ _).2 ⟨rfl, hslot.symm⟩⟩, hrest, hdrops, hsent⟩

end Station

end SlotNet
