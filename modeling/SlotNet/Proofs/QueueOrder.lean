import SlotNet.TransmitQueue

/-!
# The order in a transmit queue

Frames leave a queue from its front or by being dropped, and come in at its end; none overtakes
another. `Sheds` is what dropping does, and `Fresh` says that there is nothing more to drop at a time,
so that the frame that is looked at is the one that is taken out.
-/

namespace SlotNet.TransmitQueue

/-- Frames are dropped, and those that are left keep their order. -/
structure Sheds (q q' : TransmitQueue) : Prop where
  maxDelay : q'.maxDelay = q.maxDelay
  items : ∀ kind, (q'.items kind).Sublist (q.items kind)

/-- No frame is too old. -/
def Fresh (q : TransmitQueue) (now : Time) : Prop :=
  ∀ kind, prune q.maxDelay now (q.items kind) = .ok (q.items kind, [])

variable {q q' q'' : TransmitQueue} {kind : QueueKind} {now : Time} {drops : List Drop}

theorem Sheds.refl (q : TransmitQueue) : q.Sheds q := ⟨rfl, fun _ => .refl _⟩

theorem Sheds.trans (h : q.Sheds q') (h' : q'.Sheds q'') : q.Sheds q'' :=
  ⟨h'.maxDelay.trans h.maxDelay, fun kind => (h'.items kind).trans (h.items kind)⟩

@[simp] theorem items_setItems (kind k : QueueKind) (items : List QueueItem) :
    (q.setItems kind items).items k = if k = kind then items else q.items k := by
  cases kind <;> cases k <;> rfl

@[simp] theorem maxDelay_setItems (kind : QueueKind) (items : List QueueItem) :
    (q.setItems kind items).maxDelay = q.maxDelay := by
  cases kind <;> rfl

@[simp] theorem items_counted (queuedBytes : Nat) (k : QueueKind) :
    ({ q with queuedBytes } : TransmitQueue).items k = q.items k := by
  cases k <;> rfl

theorem release_keeps {bytes : Nat} (h : q.release kind bytes = .ok q') :
    q'.maxDelay = q.maxDelay ∧ ∀ k, q'.items k = q.items k := by
  cases kind with
  | control =>
    cases h
    exact ⟨rfl, fun _ => rfl⟩
  | data =>
    obtain ⟨n, -, rfl⟩ := Fault.map_eq_ok.1 h
    exact ⟨rfl, fun k => items_counted n k⟩

/-! ## Ageing -/

/-- What is left keeps its order, and at the same time no more of it is dropped. -/
theorem prune_spec {maxDelay : Time} {items kept expired : List QueueItem}
    (h : prune maxDelay now items = .ok (kept, expired)) :
    kept.Sublist items ∧ prune maxDelay now kept = .ok (kept, []) := by
  induction items generalizing kept expired with
  | nil =>
    cases h
    exact ⟨.refl _, rfl⟩
  | cons item items ih =>
    unfold prune at h
    obtain ⟨deadline, hd, h⟩ := Fault.bind_eq_ok.1 h
    obtain ⟨⟨kept', expired'⟩, hp, h⟩ := Fault.bind_eq_ok.1 h
    obtain ⟨hsub, hkept⟩ := ih hp
    dsimp only at h
    split at h
    · rename_i hyoung
      cases h
      refine ⟨hsub.cons_cons item, ?_⟩
      rw [prune, hd, hkept]
      exact congrArg Except.ok (if_pos hyoung)
    · cases h
      exact ⟨hsub.cons item, hkept⟩

theorem cleanup_sheds (h : q.cleanup kind now = .ok (q', drops)) :
    q.Sheds q' ∧ prune q.maxDelay now (q'.items kind) = .ok (q'.items kind, []) ∧
      ∀ k, k ≠ kind → q'.items k = q.items k := by
  obtain ⟨⟨kept, expired⟩, hp, h⟩ := Fault.bind_eq_ok.1 h
  obtain ⟨q₁, hr, h⟩ := Fault.bind_eq_ok.1 h
  cases h
  obtain ⟨hdelay, hitems⟩ := release_keeps hr
  obtain ⟨hsub, hkept⟩ := prune_spec hp
  refine ⟨⟨by rw [hdelay, maxDelay_setItems], fun k => ?_⟩, ?_, fun k hk => ?_⟩
  · rw [hitems, items_setItems]
    split
    · rename_i hk
      rw [hk]
      exact hsub
    · exact .refl _
  · rw [hitems, items_setItems, if_pos rfl]
    exact hkept
  · rw [hitems, items_setItems, if_neg hk]

theorem cleanupBoth_sheds {first second : QueueKind} (hne : first ≠ second)
    (h : q.cleanupBoth first second now = .ok (q', drops)) : q.Sheds q' ∧ q'.Fresh now := by
  obtain ⟨⟨q₁, drops₁⟩, h1, h⟩ := Fault.bind_eq_ok.1 h
  obtain ⟨⟨q₂, drops₂⟩, h2, h⟩ := Fault.bind_eq_ok.1 h
  cases h
  obtain ⟨hs₁, hkept₁, -⟩ := cleanup_sheds h1
  obtain ⟨hs₂, hkept₂, hother⟩ := cleanup_sheds h2
  refine ⟨hs₁.trans hs₂, fun k => ?_⟩
  have hk : k = first ∨ k = second := by
    cases k <;> cases first <;> cases second <;> simp_all
  rcases hk with rfl | rfl
  · rw [hother k hne, hs₂.maxDelay, hs₁.maxDelay]
    exact hkept₁
  · rw [hs₂.maxDelay]
    exact hkept₂

theorem Fresh.cleanupBoth {first second : QueueKind} (hq : q.Fresh now)
    (h : q.cleanupBoth first second now = .ok (q', drops)) (k : QueueKind) :
    q'.items k = q.items k := by
  have hone : ∀ {q q' : TransmitQueue} {kind : QueueKind} {drops : List Drop},
      q.Fresh now → q.cleanup kind now = .ok (q', drops) →
      q'.maxDelay = q.maxDelay ∧ ∀ k, q'.items k = q.items k := by
    intro q q' kind drops hq h
    obtain ⟨⟨kept, expired⟩, hp, h⟩ := Fault.bind_eq_ok.1 h
    obtain ⟨q₁, hr, h⟩ := Fault.bind_eq_ok.1 h
    cases h
    obtain ⟨rfl, rfl⟩ := Prod.mk.inj (Except.ok.inj ((hq kind).symm.trans hp))
    obtain ⟨hdelay, hitems⟩ := release_keeps hr
    refine ⟨by rw [hdelay, maxDelay_setItems], fun k => ?_⟩
    rw [hitems, items_setItems]
    split
    · rename_i hk
      rw [hk]
    · rfl
  obtain ⟨⟨q₁, drops₁⟩, h1, h⟩ := Fault.bind_eq_ok.1 h
  obtain ⟨⟨q₂, drops₂⟩, h2, h⟩ := Fault.bind_eq_ok.1 h
  cases h
  obtain ⟨hdelay₁, hitems₁⟩ := hone hq h1
  have hq₁ : q₁.Fresh now := fun kind => by
    rw [hdelay₁, hitems₁]
    exact hq kind
  rw [(hone hq₁ h2).2 k, hitems₁]

/-! ## Operations -/

theorem peek_sheds {head : Option QueueItem} (h : q.peek kind now = .ok (q', drops, head)) :
    q.Sheds q' ∧ q'.Fresh now ∧ (q'.items kind).head? = head := by
  obtain ⟨⟨q₁, drops₁⟩, h1, h⟩ := Fault.bind_eq_ok.1 h
  cases h
  obtain ⟨hs, hfresh⟩ := cleanupBoth_sheds (by decide : QueueKind.control ≠ .data) h1
  exact ⟨hs, hfresh, rfl⟩

theorem remove_sheds {uid : Nat} {found : Bool} (h : q.remove kind uid = .ok (q', found)) :
    q.Sheds q' := by
  unfold remove at h
  split at h
  · cases h
    exact .refl q
  · obtain ⟨q₁, hr, h⟩ := Fault.bind_eq_ok.1 h
    cases h
    obtain ⟨hdelay, hitems⟩ := release_keeps hr
    refine ⟨by rw [hdelay, maxDelay_setItems], fun k => ?_⟩
    rw [hitems, items_setItems]
    split
    · rename_i hk
      rw [hk]
      exact List.eraseP_sublist
    · exact .refl _

theorem Fresh.dequeue {head : Option QueueItem} (hq : q.Fresh now)
    (h : q.dequeue kind now = .ok (q', drops, head)) :
    head = (q.items kind).head? ∧ q'.items kind = (q.items kind).tail ∧
      ∀ k, k ≠ kind → q'.items k = q.items k := by
  obtain ⟨⟨q₁, drops₁⟩, h1, h⟩ := Fault.bind_eq_ok.1 h
  have hsame := hq.cleanupBoth h1
  dsimp only at h
  rw [hsame kind] at h
  cases hi : q.items kind with
  | nil =>
    rw [hi] at h
    cases h
    refine ⟨rfl, ?_, fun k _ => hsame k⟩
    rw [hsame, hi]
    rfl
  | cons item rest =>
    rw [hi] at h
    obtain ⟨q₂, hr, h⟩ := Fault.bind_eq_ok.1 h
    cases h
    obtain ⟨-, hitems⟩ := release_keeps hr
    refine ⟨rfl, ?_, fun k hk => ?_⟩
    · rw [hitems, items_setItems, if_pos rfl]
      rfl
    · rw [hitems, items_setItems, if_neg hk]
      exact hsame k

theorem enqueue_last {frame : Frame} {result : Except EnqueueError QueueKind}
    (h : q.enqueue frame now = .ok (q', drops, result)) (k : QueueKind) :
    (q'.items k).Sublist
      (q.items k ++ if k = QueueKind.ofFrame frame then [⟨frame, now⟩] else []) := by
  obtain ⟨⟨q₁, drops₁⟩, h1, h⟩ := Fault.bind_eq_ok.1 h
  have hsub := (cleanupBoth_sheds (by decide : QueueKind.data ≠ .control) h1).1.items k
  have hleft := hsub.trans (List.sublist_append_left _
    (if k = QueueKind.ofFrame frame then [⟨frame, now⟩] else []))
  dsimp only at h
  split at h
  · cases h
    exact hleft
  split at h
  · cases h
    exact hleft
  have hlast : ∀ queuedBytes, (({ q₁.setItems (QueueKind.ofFrame frame)
        (q₁.items (QueueKind.ofFrame frame) ++ [⟨frame, now⟩]) with
      queuedBytes } : TransmitQueue).items k).Sublist
      (q.items k ++ if k = QueueKind.ofFrame frame then [⟨frame, now⟩] else []) := by
    intro queuedBytes
    rw [items_counted, items_setItems]
    split
    · rename_i hk
      rw [← hk]
      exact hsub.append (.refl _)
    · rw [List.append_nil]
      exact hsub
  split at h <;> obtain ⟨bytes, -, h⟩ := Fault.bind_eq_ok.1 h <;> cases h <;> exact hlast bytes

end SlotNet.TransmitQueue
