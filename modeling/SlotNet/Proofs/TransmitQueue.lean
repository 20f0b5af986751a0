import SlotNet.Proofs.Packets

/-!
# What a queue does with packets

A frame leaves the data queue by being handed out or by being dropped. `TransmitQueue.Fit` holds of
the queues of a station that makes data only: nothing waits in the control queue.
-/

namespace SlotNet

def dropped (drops : List Drop) : Multiset Packet := (lossesOf drops).map Prod.fst

@[simp] theorem dropped_append (drops more : List Drop) :
    dropped (drops ++ more) = dropped drops + dropped more := by
  rw [dropped, lossesOf, List.map_append, ← Multiset.coe_add, Multiset.map_add]
  rfl

theorem Frame.Plain.ofFrame {f : Frame} (h : f.Plain) : QueueKind.ofFrame f = .data := by
  obtain ⟨hd, size, hb⟩ := h
  unfold QueueKind.ofFrame
  rw [if_neg]
  rintro (hr | hm)
  · rw [hd] at hr
    cases hr
  · rw [hb] at hm
    cases hm

namespace TransmitQueue

def packetsIn (items : List QueueItem) : Multiset Packet :=
  (items.map (·.frame.packet) : List Packet)

def held (q : TransmitQueue) : Multiset Packet := packetsIn q.data

/-- Only data waits. -/
structure Fit (q : TransmitQueue) : Prop where
  control : q.control = []
  data : ∀ item ∈ q.data, item.frame.Plain

variable {q q' : TransmitQueue} {kind : QueueKind} {now : Time} {drops : List Drop}

@[simp] theorem packetsIn_cons (item : QueueItem) (items : List QueueItem) :
    packetsIn (item :: items) = {item.frame.packet} + packetsIn items := rfl

@[simp] theorem packetsIn_append (items items' : List QueueItem) :
    packetsIn (items ++ items') = packetsIn items + packetsIn items' := by
  rw [packetsIn, List.map_append, ← Multiset.coe_add]
  rfl

theorem packetsIn_perm {items items' : List QueueItem} (h : items.Perm items') :
    packetsIn items = packetsIn items' := Multiset.coe_eq_coe.2 (h.map _)

theorem dropped_map (items : List QueueItem) (reason : DropReason) :
    dropped (items.map (⟨·, reason⟩)) = packetsIn items := by
  simp [dropped, lossesOf, packetsIn, Function.comp_def]

theorem items_release {bytes : Nat} (h : q.release kind bytes = .ok q') :
    q'.control = q.control ∧ q'.data = q.data := by
  cases kind with
  | control => cases h; exact ⟨rfl, rfl⟩
  | data =>
    obtain ⟨n, -, rfl⟩ := Fault.map_eq_ok.1 h
    exact ⟨rfl, rfl⟩

/-! ## Ageing -/

theorem prune_perm {maxDelay : Time} {items kept expired : List QueueItem}
    (h : prune maxDelay now items = .ok (kept, expired)) : (kept ++ expired).Perm items := by
  induction items generalizing kept expired with
  | nil => cases h; exact .refl _
  | cons item items ih =>
    unfold prune at h
    obtain ⟨deadline, -, h⟩ := Fault.bind_eq_ok.1 h
    obtain ⟨⟨kept', expired'⟩, hp, h⟩ := Fault.bind_eq_ok.1 h
    dsimp only at h
    split at h
    · cases h
      exact (ih hp).cons item
    · cases h
      exact List.perm_middle.trans ((ih hp).cons item)

theorem cleanup_ok (hq : q.Fit) (h : q.cleanup kind now = .ok (q', drops)) :
    q'.Fit ∧ q'.held + dropped drops = q.held := by
  unfold cleanup at h
  obtain ⟨⟨kept, expired⟩, hp, h⟩ := Fault.bind_eq_ok.1 h
  obtain ⟨q₁, hr, h⟩ := Fault.bind_eq_ok.1 h
  cases h
  have hperm := prune_perm hp
  obtain ⟨hc, hd⟩ := items_release hr
  cases kind with
  | control =>
    have hnone : kept ++ expired = [] := by
      have := hperm
      rw [items, hq.control] at this
      exact this.eq_nil
    obtain ⟨rfl, rfl⟩ := List.append_eq_nil_iff.1 hnone
    refine ⟨⟨hc, fun item hi => hq.data item (hd ▸ hi)⟩, ?_⟩
    rw [held, hd]
    exact add_zero _
  | data =>
    refine ⟨⟨hc.trans hq.control, fun item hi => ?_⟩, ?_⟩
    · rw [hd] at hi
      exact hq.data item (hperm.subset (List.mem_append_left _ hi))
    · rw [dropped_map, held, hd]
      exact (packetsIn_append kept expired).symm.trans (packetsIn_perm hperm)

theorem cleanupBoth_ok {first second : QueueKind} (hq : q.Fit)
    (h : q.cleanupBoth first second now = .ok (q', drops)) :
    q'.Fit ∧ q'.held + dropped drops = q.held := by
  unfold cleanupBoth at h
  obtain ⟨⟨q₁, drops₁⟩, h1, h⟩ := Fault.bind_eq_ok.1 h
  obtain ⟨⟨q₂, drops₂⟩, h2, h⟩ := Fault.bind_eq_ok.1 h
  cases h
  obtain ⟨hq₁, hb₁⟩ := cleanup_ok hq h1
  obtain ⟨hq₂, hb₂⟩ := cleanup_ok hq₁ h2
  refine ⟨hq₂, ?_⟩
  rw [← hb₁, ← hb₂, dropped_append, add_assoc, add_comm (dropped drops₁)]

/-! ## Operations -/

theorem enqueue_ok {frame : Frame} {result : Except EnqueueError QueueKind} (hq : q.Fit)
    (hf : frame.Plain) (h : q.enqueue frame now = .ok (q', drops, result)) :
    q'.Fit ∧ q'.held + dropped drops = q.held + {frame.packet} := by
  unfold enqueue at h
  obtain ⟨⟨q₁, drops₁⟩, h1, h⟩ := Fault.bind_eq_ok.1 h
  obtain ⟨hq₁, hb₁⟩ := cleanupBoth_ok hq h1
  have hdrop : ∀ reason, q₁.held + dropped (drops₁ ++ [⟨⟨frame, now⟩, reason⟩])
      = q.held + {frame.packet} := by
    intro reason
    rw [dropped_append, ← add_assoc, hb₁]
    rfl
  simp only [hf.ofFrame, if_true] at h
  split at h
  · cases h
    exact ⟨hq₁, hdrop _⟩
  · split at h
    · cases h
      exact ⟨hq₁, hdrop _⟩
    · obtain ⟨bytes, -, h⟩ := Fault.bind_eq_ok.1 h
      cases h
      refine ⟨⟨hq₁.control, fun item hi => ?_⟩, ?_⟩
      · rcases List.mem_append.1 hi with hi | hi
        · exact hq₁.data item hi
        · rw [List.mem_singleton] at hi
          rw [hi]
          exact hf
      · rw [← hb₁]
        show packetsIn (q₁.data ++ [⟨frame, now⟩]) + _ = packetsIn q₁.data + _ + _
        rw [packetsIn_append, add_right_comm]
        rfl

def headPackets (head : Option QueueItem) : Multiset Packet :=
  head.elim 0 fun item => {item.frame.packet}

theorem peek_ok {head : Option QueueItem} (hq : q.Fit)
    (h : q.peek kind now = .ok (q', drops, head)) :
    q'.Fit ∧ q'.held + dropped drops = q.held ∧ (q'.items kind).head? = head := by
  unfold peek at h
  obtain ⟨⟨q₁, drops₁⟩, h1, h⟩ := Fault.bind_eq_ok.1 h
  cases h
  obtain ⟨hq₁, hb₁⟩ := cleanupBoth_ok hq h1
  exact ⟨hq₁, hb₁, rfl⟩

theorem Fit.items_eq (hq : q.Fit) {item : QueueItem} {rest : List QueueItem}
    (h : q.items kind = item :: rest) : kind = .data ∧ q.data = item :: rest ∧ item.frame.Plain := by
  cases kind with
  | control =>
    rw [items, hq.control] at h
    cases h
  | data =>
    replace h : q.data = item :: rest := h
    exact ⟨rfl, h, hq.data item (h ▸ .head _)⟩

theorem setItems_release {item : QueueItem} {rest : List QueueItem} {bytes : Nat} (hq : q.Fit)
    (hi : q.items kind = item :: rest) (h : (q.setItems kind rest).release kind bytes = .ok q') :
    q'.Fit ∧ q'.held + {item.frame.packet} = q.held := by
  obtain ⟨rfl, hd, hf⟩ := hq.items_eq hi
  obtain ⟨hc', hd'⟩ := items_release h
  replace hd' : q'.data = rest := hd'
  refine ⟨⟨hc'.trans hq.control, fun x hx => ?_⟩, ?_⟩
  · rw [hd'] at hx
    exact hq.data x (hd ▸ .tail _ hx)
  · rw [held, held, hd, hd', packetsIn_cons, add_comm]

theorem dequeue_ok {head : Option QueueItem} (hq : q.Fit)
    (h : q.dequeue kind now = .ok (q', drops, head)) :
    q'.Fit ∧ q'.held + dropped drops + headPackets head = q.held ∧
      ∀ item, head = some item → kind = .data ∧ item.frame.Plain := by
  unfold dequeue at h
  obtain ⟨⟨q₁, drops₁⟩, h1, h⟩ := Fault.bind_eq_ok.1 h
  obtain ⟨hq₁, hb₁⟩ := cleanupBoth_ok hq h1
  dsimp only at h
  cases hi : q₁.items kind with
  | nil =>
    rw [hi] at h
    cases h
    exact ⟨hq₁, (add_zero _).trans hb₁, nofun⟩
  | cons item rest =>
    rw [hi] at h
    obtain ⟨q₂, h2, h⟩ := Fault.bind_eq_ok.1 h
    cases h
    obtain ⟨hkind, -, hf⟩ := hq₁.items_eq hi
    obtain ⟨hq₂, hb₂⟩ := setItems_release hq₁ hi h2
    refine ⟨hq₂, ?_, fun x hx => ?_⟩
    · rw [← hb₁, ← hb₂]
      exact add_right_comm _ _ _
    · cases hx
      exact ⟨hkind, hf⟩

theorem remove_ok {item : QueueItem} {found : Bool} (hq : q.Fit)
    (hi : (q.items kind).head? = some item)
    (h : q.remove kind item.frame.uid = .ok (q', found)) :
    q'.Fit ∧ q'.held + {item.frame.packet} = q.held := by
  obtain ⟨rest, hi⟩ := List.head?_eq_some_iff.1 hi
  unfold remove at h
  simp only [hi, List.find?_cons_of_pos, beq_self_eq_true, List.eraseP_cons_of_pos] at h
  obtain ⟨q₁, h1, h⟩ := Fault.bind_eq_ok.1 h
  cases h
  exact setItems_release hq hi h1

end TransmitQueue

end SlotNet
