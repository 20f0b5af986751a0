import Mathlib.Algebra.BigOperators.Group.List.Basic
import Mathlib.Algebra.GroupWithZero.Nat
import Mathlib.Algebra.Order.BigOperators.Group.List
import Mathlib.Algebra.Order.Group.Multiset
import Mathlib.Algebra.Order.Group.Nat
import SlotNet.Proofs.QueueOrder

/-!
# What the queues hold

`Lawful` queues count the bytes of their data and keep the bounds. Every frame that goes out is taken out of
its queue and its bytes out of the count, whichever operation does so; `Lawful.takes` says that this never
fails. So an operation on lawful queues can fail in two ways only: a deadline that is no time, or a byte
count that is too great.
-/

namespace SlotNet

def EnqueueError.reason : EnqueueError → DropReason
  | .queueFull _ => .queueFull
  | .tooLarge _ => .tooLarge

def QueueItem.isYoung (maxDelay now : Time) (item : QueueItem) : Bool :=
  now < item.enqueuedAt + maxDelay

namespace TransmitQueue

variable {q q' q'' : TransmitQueue} {kind : QueueKind} {now : Time} {drops : List Drop} {fault : Fault}

/-! ## Ageing -/

theorem prune_eq_filter {maxDelay : Time} {items kept expired : List QueueItem}
    (h : prune maxDelay now items = .ok (kept, expired)) :
    kept = items.filter (·.isYoung maxDelay now) ∧
      expired = items.filter (!·.isYoung maxDelay now) := by
  induction items generalizing kept expired with
  | nil =>
    cases h
    exact ⟨rfl, rfl⟩
  | cons item items ih =>
    unfold prune at h
    obtain ⟨deadline, hd, h⟩ := Fault.bind_eq_ok.1 h
    obtain ⟨⟨kept', expired'⟩, hp, h⟩ := Fault.bind_eq_ok.1 h
    obtain ⟨rfl, rfl⟩ := ih hp
    obtain ⟨rfl, -⟩ := Time.add_eq_ok hd
    dsimp only at h
    split at h <;> rename_i hage <;> cases h
    · have hyoung : item.isYoung maxDelay now = true := decide_eq_true hage
      simp [hyoung]
    · have hold : item.isYoung maxDelay now = false := decide_eq_false hage
      simp [hold]

/-- Ageing fails only where a deadline is no time. -/
theorem prune_error {maxDelay : Time} {items : List QueueItem}
    (h : prune maxDelay now items = .error fault) : fault = .timeOverflow := by
  induction items with
  | nil => cases h
  | cons item items ih =>
    unfold prune at h
    rcases Fault.bind_eq_error.1 h with hd | ⟨deadline, -, h⟩
    · unfold Time.add at hd
      split at hd <;> cases hd
      rfl
    rcases Fault.bind_eq_error.1 h with hp | ⟨⟨kept, expired⟩, -, h⟩
    · exact ih hp
    · cases h

theorem cleanup_items (h : q.cleanup kind now = .ok (q', drops)) :
    q'.items kind = (q.items kind).filter (·.isYoung q.maxDelay now) := by
  obtain ⟨⟨kept, expired⟩, hp, h⟩ := Fault.bind_eq_ok.1 h
  obtain ⟨q₁, hr, h⟩ := Fault.bind_eq_ok.1 h
  cases h
  obtain ⟨-, hitems⟩ := release_keeps hr
  rw [hitems, items_setItems, if_pos rfl]
  exact (prune_eq_filter hp).1

theorem cleanupBoth_items {first second : QueueKind} (hne : first ≠ second)
    (h : q.cleanupBoth first second now = .ok (q', drops)) (k : QueueKind) :
    q'.items k = (q.items k).filter (·.isYoung q.maxDelay now) := by
  obtain ⟨⟨q₁, drops₁⟩, h1, h⟩ := Fault.bind_eq_ok.1 h
  obtain ⟨⟨q₂, drops₂⟩, h2, h⟩ := Fault.bind_eq_ok.1 h
  cases h
  obtain ⟨hs₁, -, hothers₁⟩ := cleanup_sheds h1
  obtain ⟨-, -, hothers₂⟩ := cleanup_sheds h2
  by_cases hk : k = second
  · rw [hk, cleanup_items h2, hothers₁ second hne.symm, hs₁.maxDelay]
  · have hfirst : k = first := by
      cases k <;> cases first <;> cases second <;> simp_all
    rw [hothers₂ k hk, hfirst, cleanup_items h1]

theorem bytesOf_eq_sum (items : List QueueItem) : bytesOf items = (items.map (·.frame.size)).sum := by
  induction items with
  | nil => rfl
  | cons item items ih => rw [bytesOf, ih, List.map_cons, List.sum_cons]

theorem bytesOf_append (items items' : List QueueItem) :
    bytesOf (items ++ items') = bytesOf items + bytesOf items' := by
  simp only [bytesOf_eq_sum, List.map_append, List.sum_append]

theorem bytesOf_perm {items items' : List QueueItem} (h : items.Perm items') :
    bytesOf items = bytesOf items' := by
  rw [bytesOf_eq_sum, bytesOf_eq_sum, (h.map _).sum_eq]

/-! ## Taking frames out -/

def all (q : TransmitQueue) : Multiset QueueItem := (q.control : Multiset QueueItem) + q.data

/-- The count is that of the data queue, and the bounds are kept. -/
structure Lawful (q : TransmitQueue) : Prop where
  counted : q.queuedBytes = bytesOf q.data
  room : ∀ kind, (q.items kind).length ≤ q.maxPackets
  small : ∀ kind, ∀ item ∈ q.items kind, item.frame.size ≤ maxFrameBytes

/-- Some frames go out. -/
structure Yields (q : TransmitQueue) (out : List QueueItem) (q' : TransmitQueue) : Prop where
  lawful : q'.Lawful
  maxPackets : q'.maxPackets = q.maxPackets
  maxDelay : q'.maxDelay = q.maxDelay
  all : q.all = q'.all + out

/-- Some frames of one queue go out, and the others wait in it. -/
structure Takes (q : TransmitQueue) (kind : QueueKind) (rest out : List QueueItem)
    (q' : TransmitQueue) : Prop extends q.Yields out q' where
  items : q'.items kind = rest
  others : ∀ k, k ≠ kind → q'.items k = q.items k

theorem Lawful.takes (hq : q.Lawful) {rest out : List QueueItem}
    (hperm : (rest ++ out).Perm (q.items kind)) :
    ∃ q', (q.setItems kind rest).release kind (bytesOf out) = .ok q' ∧ q.Takes kind rest out q' := by
  have hlength : rest.length ≤ (q.items kind).length := by
    rw [← hperm.length_eq, List.length_append]
    exact Nat.le_add_right _ _
  have hsmall : ∀ item ∈ rest, item.frame.size ≤ maxFrameBytes := fun item hi =>
    hq.small kind item (hperm.subset (List.mem_append_left _ hi))
  have hsplit : ((q.items kind : List QueueItem) : Multiset QueueItem) = rest + out := by
    rw [Multiset.coe_add]
    exact Multiset.coe_eq_coe.2 hperm.symm
  cases kind with
  | control =>
    refine ⟨{ q with control := rest }, rfl,
      ⟨⟨hq.counted, fun k => ?_, fun k => ?_⟩, rfl, rfl, ?_⟩, rfl, fun k hk => ?_⟩
    · cases k with
      | control => exact hlength.trans (hq.room .control)
      | data => exact hq.room .data
    · cases k with
      | control => exact hsmall
      | data => exact hq.small .data
    · show (q.control : Multiset QueueItem) + q.data = (rest : Multiset QueueItem) + q.data + out
      rw [show (q.control : Multiset QueueItem) = rest + out from hsplit, add_right_comm]
    · cases k with
      | control => exact absurd rfl hk
      | data => rfl
  | data =>
    have hbytes : q.queuedBytes = bytesOf rest + bytesOf out := by
      rw [hq.counted, ← bytesOf_append]
      exact (bytesOf_perm hperm).symm
    refine ⟨{ q with data := rest, queuedBytes := bytesOf rest }, ?_,
      ⟨⟨rfl, fun k => ?_, fun k => ?_⟩, rfl, rfl, ?_⟩, rfl, fun k hk => ?_⟩
    · show (Count.sub q.queuedBytes (bytesOf out)).map _ = _
      rw [hbytes, Count.sub, if_pos (Nat.le_add_left _ _), Nat.add_sub_cancel]
      rfl
    · cases k with
      | control => exact hq.room .control
      | data => exact hlength.trans (hq.room .data)
    · cases k with
      | control => exact hq.small .control
      | data => exact hsmall
    · show (q.control : Multiset QueueItem) + q.data = q.control + (rest : Multiset QueueItem) + out
      rw [show (q.data : Multiset QueueItem) = rest + out from hsplit, add_assoc]
    · cases k with
      | control => rfl
      | data => exact absurd rfl hk

theorem Lawful.cleanup (hq : q.Lawful) (h : q.cleanup kind now = .ok (q', drops)) :
    q.Takes kind ((q.items kind).filter (·.isYoung q.maxDelay now))
      ((q.items kind).filter (!·.isYoung q.maxDelay now)) q' ∧
    drops = ((q.items kind).filter (!·.isYoung q.maxDelay now)).map (⟨·, .expired⟩) := by
  obtain ⟨⟨kept, expired⟩, hp, h⟩ := Fault.bind_eq_ok.1 h
  obtain ⟨q₁, hr, h⟩ := Fault.bind_eq_ok.1 h
  cases h
  obtain ⟨rfl, rfl⟩ := prune_eq_filter hp
  obtain ⟨q₂, hr', htakes⟩ := hq.takes (List.filter_append_perm (·.isYoung q.maxDelay now) (q.items kind))
  obtain rfl := Except.ok.inj (hr.symm.trans hr')
  exact ⟨htakes, rfl⟩

theorem Lawful.cleanup_error (hq : q.Lawful) (h : q.cleanup kind now = .error fault) :
    fault = .timeOverflow := by
  rcases Fault.bind_eq_error.1 h with hp | ⟨⟨kept, expired⟩, hp, h⟩
  · exact prune_error hp
  rcases Fault.bind_eq_error.1 h with hr | ⟨q₁, -, h⟩
  · obtain ⟨rfl, rfl⟩ := prune_eq_filter hp
    obtain ⟨q₂, hr', -⟩ := hq.takes (List.filter_append_perm (·.isYoung q.maxDelay now) (q.items kind))
    rw [hr'] at hr
    cases hr
  · cases h

/-- The frames of both queues that are too old go out. -/
structure Prunes (q : TransmitQueue) (now : Time) (expired : List QueueItem) (q' : TransmitQueue) :
    Prop extends q.Yields expired q' where
  items : ∀ kind, q'.items kind = (q.items kind).filter (·.isYoung q.maxDelay now)

theorem Lawful.cleanupBoth {first second : QueueKind} (hne : first ≠ second) (hq : q.Lawful)
    (h : q.cleanupBoth first second now = .ok (q', drops)) :
    q.Prunes now ((q.items first).filter (!·.isYoung q.maxDelay now) ++
      (q.items second).filter (!·.isYoung q.maxDelay now)) q' ∧
    drops = ((q.items first).filter (!·.isYoung q.maxDelay now) ++
      (q.items second).filter (!·.isYoung q.maxDelay now)).map (⟨·, .expired⟩) := by
  obtain ⟨⟨q₁, drops₁⟩, h1, h'⟩ := Fault.bind_eq_ok.1 h
  obtain ⟨⟨q₂, drops₂⟩, h2, h'⟩ := Fault.bind_eq_ok.1 h'
  cases h'
  obtain ⟨ht₁, rfl⟩ := hq.cleanup h1
  obtain ⟨ht₂, rfl⟩ := ht₁.lawful.cleanup h2
  rw [ht₁.others second hne.symm, ht₁.maxDelay] at ht₂ ⊢
  refine ⟨⟨⟨ht₂.lawful, ht₂.maxPackets.trans ht₁.maxPackets, ht₂.maxDelay.trans ht₁.maxDelay, ?_⟩,
    cleanupBoth_items hne h⟩, (List.map_append ..).symm⟩
  rw [ht₁.all, ht₂.all, ← Multiset.coe_add, ← add_assoc, add_right_comm]

theorem Lawful.cleanupBoth_error {first second : QueueKind} (hq : q.Lawful)
    (h : q.cleanupBoth first second now = .error fault) : fault = .timeOverflow := by
  rcases Fault.bind_eq_error.1 h with h1 | ⟨⟨q₁, drops₁⟩, h1, h⟩
  · exact hq.cleanup_error h1
  rcases Fault.bind_eq_error.1 h with h2 | ⟨⟨q₂, drops₂⟩, -, h⟩
  · exact (hq.cleanup h1).1.lawful.cleanup_error h2
  · cases h

theorem Prunes.bytes_le {expired : List QueueItem} (h : q.Prunes now expired q') (hq : q.Lawful) :
    q'.queuedBytes ≤ q.queuedBytes := by
  rw [h.lawful.counted, hq.counted, show q'.data = _ from h.items .data, bytesOf_eq_sum, bytesOf_eq_sum]
  exact (List.filter_sublist.map _).sum_le_sum fun _ _ => Nat.zero_le _

/-! ## Operations -/

theorem Lawful.new (maxPackets : Nat) (maxDelay : Time) : (new maxPackets maxDelay).Lawful := by
  refine ⟨rfl, fun kind => ?_, fun kind => ?_⟩
  · cases kind <;> exact Nat.zero_le _
  · cases kind <;> exact nofun

/-- A frame comes last in one of the queues. -/
structure Admits (q : TransmitQueue) (kind : QueueKind) (item : QueueItem) (q' : TransmitQueue) :
    Prop where
  lawful : q'.Lawful
  maxPackets : q'.maxPackets = q.maxPackets
  maxDelay : q'.maxDelay = q.maxDelay
  all : q'.all = q.all + {item}
  items : q'.items kind = q.items kind ++ [item]
  others : ∀ k, k ≠ kind → q'.items k = q.items k

theorem Lawful.admits {bytes : Nat} (hq : q.Lawful) (item : QueueItem)
    (hsmall : item.frame.size ≤ maxFrameBytes) (hroom : (q.items kind).length < q.maxPackets)
    (hbytes : bytes = q.queuedBytes + if kind = .data then item.frame.size else 0) :
    q.Admits kind item { q.setItems kind (q.items kind ++ [item]) with queuedBytes := bytes } := by
  have hlength : (q.items kind ++ [item]).length ≤ q.maxPackets := by
    rw [List.length_append]
    exact hroom
  have hall : ∀ x ∈ q.items kind ++ [item], x.frame.size ≤ maxFrameBytes := by
    intro x hx
    rcases List.mem_append.1 hx with hx | hx
    · exact hq.small kind x hx
    · exact List.mem_singleton.1 hx ▸ hsmall
  cases kind with
  | control =>
    refine ⟨⟨hbytes.trans hq.counted, fun k => ?_, fun k => ?_⟩, rfl, rfl, ?_, rfl, fun k hk => ?_⟩
    · cases k with
      | control => exact hlength
      | data => exact hq.room .data
    · cases k with
      | control => exact hall
      | data => exact hq.small .data
    · show ((q.control ++ [item] : List QueueItem) : Multiset QueueItem) + q.data =
        q.control + q.data + {item}
      rw [← Multiset.coe_add, add_right_comm]
      rfl
    · cases k with
      | control => exact absurd rfl hk
      | data => rfl
  | data =>
    refine ⟨⟨?_, fun k => ?_, fun k => ?_⟩, rfl, rfl, ?_, rfl, fun k hk => ?_⟩
    · show bytes = bytesOf (q.data ++ [item])
      rw [hbytes, if_pos rfl, hq.counted, bytesOf_append]
      rfl
    · cases k with
      | control => exact hq.room .control
      | data => exact hlength
    · cases k with
      | control => exact hq.small .control
      | data => exact hall
    · show (q.control : Multiset QueueItem) + ((q.data ++ [item] : List QueueItem) : Multiset QueueItem) =
        q.control + q.data + {item}
      rw [← Multiset.coe_add, add_assoc]
      rfl
    · cases k with
      | control => rfl
      | data => exact absurd rfl hk

theorem Lawful.enqueue {frame : Frame} {result : Except EnqueueError QueueKind} (hq : q.Lawful)
    (h : q.enqueue frame now = .ok (q', drops, result)) :
    ∃ q₁ expired, q.cleanupBoth .data .control now = .ok (q₁, expired) ∧
      ((∃ e, result = .error e ∧ q' = q₁ ∧ drops = expired ++ [⟨⟨frame, now⟩, e.reason⟩]) ∨
        (result = .ok (.ofFrame frame) ∧ drops = expired ∧
          q₁.Admits (.ofFrame frame) ⟨frame, now⟩ q')) := by
  obtain ⟨⟨q₁, expired⟩, h1, h⟩ := Fault.bind_eq_ok.1 h
  refine ⟨q₁, expired, h1, ?_⟩
  have hq₁ := (hq.cleanupBoth (by decide) h1).1.lawful
  dsimp only at h
  split at h
  · cases h
    exact .inl ⟨_, rfl, rfl, rfl⟩
  split at h
  · cases h
    exact .inl ⟨_, rfl, rfl, rfl⟩
  rename_i hsmall hroom
  split at h <;> rename_i hkind <;> obtain ⟨bytes, hb, h⟩ := Fault.bind_eq_ok.1 h <;> cases h <;>
    refine .inr ⟨rfl, rfl, hq₁.admits ⟨frame, now⟩ (Nat.le_of_not_lt hsmall) (Nat.lt_of_not_le hroom) ?_⟩
  · rw [if_pos hkind]
    exact (Count.add_eq_ok hb).1
  · rw [if_neg hkind]
    exact (Except.ok.inj hb).symm

theorem Lawful.enqueue_error {frame : Frame} (hq : q.Lawful)
    (h : q.enqueue frame now = .error fault) :
    fault = .timeOverflow ∨ Count.limit ≤ q.queuedBytes + frame.size := by
  rcases Fault.bind_eq_error.1 h with h1 | ⟨⟨q₁, expired⟩, h1, h⟩
  · exact .inl (hq.cleanupBoth_error h1)
  have hbytes := (hq.cleanupBoth (by decide) h1).1.bytes_le hq
  dsimp only at h
  split at h
  · cases h
  split at h
  · cases h
  split at h <;> rcases Fault.bind_eq_error.1 h with hb | ⟨bytes, -, h⟩
  · unfold Count.add at hb
    split at hb
    · cases hb
    · rename_i hlimit
      exact .inr ((Nat.le_of_not_lt hlimit).trans (Nat.add_le_add_right hbytes _))
  · cases h
  · cases hb
  · cases h

theorem Lawful.dequeue (hq : q.Lawful) (h : q.cleanupBoth .control .data now = .ok (q', drops))
    (kind : QueueKind) :
    ∃ q'', q.dequeue kind now = .ok (q'', drops, (q'.items kind).head?) ∧
      q'.Takes kind (q'.items kind).tail (q'.items kind).head?.toList q'' := by
  have hq' := (hq.cleanupBoth (by decide) h).1.lawful
  cases hi : q'.items kind with
  | nil =>
    refine ⟨q', Fault.bind_eq_ok.2 ⟨_, h, ?_⟩, ⟨hq', rfl, rfl, (add_zero _).symm⟩, hi, fun _ _ => rfl⟩
    dsimp only
    rw [hi]
    rfl
  | cons item rest =>
    have hperm : (rest ++ [item]).Perm (q'.items kind) := hi ▸ List.perm_append_singleton item rest
    obtain ⟨q'', hr, htakes⟩ := hq'.takes hperm
    refine ⟨q'', Fault.bind_eq_ok.2 ⟨_, h, ?_⟩, htakes⟩
    dsimp only
    rw [hi]
    exact Fault.bind_eq_ok.2 ⟨q'', hr, rfl⟩

theorem Lawful.dequeue_error (hq : q.Lawful) (h : q.dequeue kind now = .error fault) :
    fault = .timeOverflow := by
  rcases Fault.bind_eq_error.1 h with h1 | ⟨⟨q₁, drops₁⟩, h1, -⟩
  · exact hq.cleanupBoth_error h1
  · obtain ⟨q₂, h2, -⟩ := hq.dequeue h1 kind
    cases h2.symm.trans h

theorem peek_eq_ok {head : Option QueueItem} (h : q.peek kind now = .ok (q', drops, head)) :
    q.cleanupBoth .control .data now = .ok (q', drops) ∧ head = (q'.items kind).head? := by
  obtain ⟨⟨q₁, drops₁⟩, h1, h⟩ := Fault.bind_eq_ok.1 h
  cases h
  exact ⟨h1, rfl⟩

theorem Lawful.peek_error (hq : q.Lawful) (h : q.peek kind now = .error fault) :
    fault = .timeOverflow := by
  rcases Fault.bind_eq_error.1 h with h1 | ⟨⟨q₁, drops₁⟩, -, h⟩
  · exact hq.cleanupBoth_error h1
  · cases h

theorem eraseP_append_find?_perm (p : QueueItem → Bool) (items : List QueueItem) :
    (items.eraseP p ++ (items.find? p).toList).Perm items := by
  induction items with
  | nil => exact .refl _
  | cons item items ih =>
    by_cases hp : p item = true
    · rw [List.eraseP_cons_of_pos hp, List.find?_cons_of_pos hp]
      exact List.perm_append_singleton item items
    · rw [List.eraseP_cons_of_neg hp, List.find?_cons_of_neg hp]
      exact ih.cons item

theorem Lawful.remove (hq : q.Lawful) (kind : QueueKind) (uid : Nat) :
    ∃ q', q.remove kind uid = .ok (q', ((q.items kind).find? (·.frame.uid == uid)).isSome) ∧
      q.Takes kind ((q.items kind).eraseP (·.frame.uid == uid))
        ((q.items kind).find? (·.frame.uid == uid)).toList q' := by
  have hperm := eraseP_append_find?_perm (·.frame.uid == uid) (q.items kind)
  unfold TransmitQueue.remove
  cases hfind : (q.items kind).find? (·.frame.uid == uid) with
  | none =>
    refine ⟨q, rfl, ⟨hq, rfl, rfl, (add_zero _).symm⟩, ?_, fun _ _ => rfl⟩
    rw [List.eraseP_of_forall_not]
    exact fun item hi hu => List.find?_eq_none.1 hfind item hi hu
  | some item =>
    rw [hfind] at hperm
    obtain ⟨q', hr, htakes⟩ := hq.takes hperm
    refine ⟨q', ?_, htakes⟩
    exact Fault.bind_eq_ok.2 ⟨q', hr, rfl⟩

theorem flush_yields (q : TransmitQueue) : q.Yields (q.control ++ q.data) q.flush := by
  refine ⟨⟨rfl, fun kind => ?_, fun kind => ?_⟩, rfl, rfl, ?_⟩
  · cases kind <;> exact Nat.zero_le _
  · cases kind <;> exact nofun
  · rw [← Multiset.coe_add]
    exact (zero_add _).symm

end TransmitQueue

end SlotNet
