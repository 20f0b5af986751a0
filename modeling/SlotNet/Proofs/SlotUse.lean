import SlotNet.Proofs.Recording

/-!
# How the slots are used

`Config.Allows` is what may be sent in a slot. What was sent lies in its slot (`Sorted`), what waits
belongs to the slot that runs (`Waits`), and reservations reach every node in range (`Heard`). Each of
the three is kept while an event is handled, if what is sent then is allowed (`Heeds`).

`Sorted.met`: if a signal takes no longer than the guard time, only frames of one data slot meet.
-/

namespace SlotNet

variable {σ : Type}

/-! ## The slots of a run -/

namespace Config

variable (c : Config)

/-- When the slot begins that has this number in the run. -/
def slotBegin (i : Nat) : Time := c.frame.startOf c.nodeCount i

def slotLength (i : Nat) : Time :=
  Timing.slotDuration c.frame c.nodeCount (i % c.frame.slots c.nodeCount)

def IsControl (i : Nat) : Prop := i % c.frame.slots c.nodeCount < c.nodeCount

/-- What may be sent in it: reservations if it is a control slot, and otherwise data of those who are
entitled. -/
def Allows (i : Nat) (entitled : List Nat) (f : Frame) : Prop :=
  (c.IsControl i ∧ f.kind = .reservation) ∨
    (¬ c.IsControl i ∧ f.Plain ∧ ∃ node ∈ entitled, f.transmitter = Address.ofNode node)

instance (i : Nat) : Decidable (c.IsControl i) := inferInstanceAs (Decidable (_ < _))

variable {c}

theorem slotLength_of_data {i : Nat} (h : ¬ c.IsControl i) : c.slotLength i = c.frame.slotTime := by
  have hcontrol : Timing.isControlSlot c.nodeCount (i % c.frame.slots c.nodeCount) = false :=
    decide_eq_false h
  unfold slotLength Timing.slotDuration
  rw [hcontrol, if_neg Bool.false_ne_true]

theorem Accepted.slotLength_pos (hc : c.Accepted) (i : Nat) : 0 < c.slotLength i := by
  unfold slotLength Timing.slotDuration
  split
  · exact hc.slotTimes.2
  · exact hc.slotTimes.1

theorem Accepted.slotBegin_add_le (hc : c.Accepted) (i : Nat) :
    c.slotBegin i + (c.slotLength i + c.frame.guardTime) ≤ c.slotBegin (i + 1) := by
  unfold slotBegin slotLength
  rw [FrameLayout.startOf_succ hc.slots_pos]
  unfold FrameLayout.stride
  refine Nat.add_le_add_left ?_ _
  rw [Nat.add_comm (Timing.slotDuration c.frame c.nodeCount _)]
  exact Nat.le_add_right _ _

theorem Accepted.slotBegin_strictMono (hc : c.Accepted) : StrictMono c.slotBegin := by
  refine strictMono_nat_of_lt_succ fun i => ?_
  have hpos : 0 < c.slotLength i + c.frame.guardTime := Nat.add_pos_left (hc.slotLength_pos i) _
  exact Nat.lt_of_lt_of_le (Nat.lt_add_of_pos_right hpos) (hc.slotBegin_add_le i)

theorem Accepted.slotEnd_le (hc : c.Accepted) (i : Nat) :
    c.slotBegin i + c.slotLength i ≤ c.slotBegin (i + 1) :=
  Nat.le_trans (Nat.add_le_add_left (Nat.le_add_right _ _) _) (hc.slotBegin_add_le i)

theorem Accepted.arrives_before (hc : c.Accepted) {i : Nat} {sent delay : Time}
    (hsent : sent < c.slotBegin i + c.slotLength i) (hdelay : delay ≤ c.frame.guardTime) :
    sent + delay < c.slotBegin (i + 1) :=
  calc sent + delay < c.slotBegin i + c.slotLength i + delay := Nat.add_lt_add_right hsent _
    _ ≤ c.slotBegin i + c.slotLength i + c.frame.guardTime := Nat.add_le_add_left hdelay _
    _ = c.slotBegin i + (c.slotLength i + c.frame.guardTime) := Nat.add_assoc ..
    _ ≤ c.slotBegin (i + 1) := hc.slotBegin_add_le i

end Config

/-- The frame was sent within its slot and arrives before the next one, and it may be sent there. -/
structure Sending.InSlot (c : Config) (x : Sending) : Prop where
  began : c.slotBegin x.slot ≤ x.sentAt
  inside : x.sentAt < c.slotBegin x.slot + c.slotLength x.slot
  arrives : x.time < c.slotBegin (x.slot + 1)
  allowed : c.Allows x.slot x.entitled x.frame

/-- A data frame that a node sent in a data slot that it was entitled to. -/
structure Sending.InDataSlot (c : Config) (x : Sending) (node : Nat) : Prop where
  data : x.frame.kind = .data
  transmitter : x.frame.transmitter = Address.ofNode node
  entitled : node ∈ x.entitled
  dataSlot : c.nodeCount ≤ x.slot % c.frame.slots c.nodeCount
  began : c.slotBegin x.slot ≤ x.sentAt
  inside : x.sentAt < c.slotBegin x.slot + c.frame.slotTime

theorem Sending.InSlot.inDataSlot {c : Config} {x : Sending} (h : x.InSlot c)
    (hdata : ¬ c.IsControl x.slot) : ∃ node, x.InDataSlot c node := by
  rcases h.allowed with ⟨hcontrol, -⟩ | ⟨-, ⟨hkind, -⟩, node, hnode, htransmitter⟩
  · exact absurd hcontrol hdata
  · exact ⟨node, hkind, htransmitter, hnode, Nat.le_of_not_lt hdata, h.began,
      Config.slotLength_of_data hdata ▸ h.inside⟩

namespace Watch

open Medium (Does Leads Quiet)

def entitledIn (c : Config) (w : Watch σ) (i : Nat) : List Nat :=
  w.network.controller.entitled (i % c.frame.slots c.nodeCount)

/-- What was sent lies in its slot. A control slot has one sender, and in a data slot the same nodes are
entitled all the time. -/
structure Sorted (c : Config) (w : Watch σ) : Prop where
  inSlot : ∀ x ∈ w.sent, x.InSlot c
  slot_lt : ∀ x ∈ w.sent, x.slot < w.slots
  ordered : ∀ x ∈ w.sent, ∀ y ∈ w.sent, x.id < y.id → x.slot ≤ y.slot
  alone : ∀ x ∈ w.sent, ∀ y ∈ w.sent, x.slot = y.slot → c.IsControl x.slot →
    x.frame.transmitter = y.frame.transmitter
  shared : ∀ x ∈ w.sent, ∀ y ∈ w.sent, x.slot = y.slot → ¬ c.IsControl x.slot →
    x.entitled = y.entitled
  current : ∀ x ∈ w.sent, x.slot + 1 = w.slots → ¬ c.IsControl x.slot →
    x.entitled = w.entitledIn c x.slot

/-- What an event that waits says about the slot that began last. A step of the environment comes at
the beginning of a control slot, before anything is sent in it. A station that goes on is entitled, or it
is too late for it. -/
def Fits (c : Config) (w : Watch σ) (e : Entry Event) : Prop :=
  match e.event with
  | .envStep => ∃ q, w.slots = q + 1 ∧ c.IsControl q ∧ e.time = c.slotBegin q ∧ ∀ x ∈ w.sent, x.slot ≠ q
  | .continueSlot node slotEnd _ => slotEnd ≤ e.time ∨ ∃ q, w.slots = q + 1 ∧ ¬ c.IsControl q ∧
      node ∈ w.entitledIn c q ∧ slotEnd = c.slotBegin q + c.slotLength q
  | _ => True

/-- An event that fits and is no step of the environment. -/
def Settles (c : Config) (w : Watch σ) (e : Entry Event) : Prop := e.event ≠ .envStep ∧ w.Fits c e

structure Waits (c : Config) (w : Watch σ) : Prop where
  began : ∀ q, w.slots = q + 1 → c.slotBegin q ≤ w.medium.now
  fits : ∀ e ∈ w.entries, w.Fits c e
  once : ∀ e ∈ w.entries, ∀ x ∈ w.entries, e.event = .envStep → x.event = .envStep → e = x

/-- As long as a data slot runs the same nodes are entitled to it. -/
def SameEntitled (c : Config) (w w' : Watch σ) : Prop :=
  ∀ q, w.slots = q + 1 → w'.slots = q + 1 → ¬ c.IsControl q → w'.entitledIn c q = w.entitledIn c q

/-- A reservation went out in a control slot, to every node in range. -/
def Reached (c : Config) (w : Watch σ) (node slot : Nat) : Prop :=
  slot < w.slots ∧ c.IsControl slot ∧ ∀ receiver delay, w.medium.Reaches node receiver delay →
    ∃ x ∈ w.sent, x.slot = slot ∧ x.receiver = receiver ∧ x.frame.kind = .reservation ∧
      x.frame.transmitter = Address.ofNode node

/-- The broadcasts that were counted are written down, and they went out. -/
structure Heard (c : Config) (w : Watch σ) : Prop where
  counted : w.reservations.length = w.medium.stats.reservationMessages
  reached : ∀ r ∈ w.reservations, w.Reached c r.1 r.2

variable {c : Config} {w w' : Watch σ} {e : Entry Event} {s : Simulation σ} {l l' : Loop}
  {sends : Nat → Frame → Prop} {plans : Time → Event → Prop}

/-- Frames that meet are data that was sent in one data slot. -/
theorem Sorted.met (hc : c.Accepted) (hw : w.Sorted c) {x y : Sending} (hx : x ∈ w.sent)
    (hy : y ∈ w.sent) (h : x.RunsInto y) : x.slot = y.slot ∧ ¬ c.IsControl x.slot := by
  obtain ⟨hid, hduring, -, hdifferent⟩ := h
  have hstill : x.sentAt ≤ y.time := by
    rcases Prod.Lex.lt_iff.1 hduring with hlt | ⟨heq, -⟩
    · exact Nat.le_of_lt hlt
    · exact Nat.le_of_eq heq
  have hbefore : c.slotBegin x.slot < c.slotBegin (y.slot + 1) :=
    Nat.lt_of_le_of_lt ((hw.inSlot x hx).began.trans hstill) (hw.inSlot y hy).arrives
  have hlt : x.slot < y.slot + 1 := hc.slotBegin_strictMono.lt_iff_lt.1 hbefore
  have hslot : x.slot = y.slot := Nat.le_antisymm (Nat.le_of_lt_succ hlt) (hw.ordered y hy x hx hid)
  exact ⟨hslot, fun hcontrol => hdifferent (hw.alone x hx y hy hslot hcontrol).symm⟩

theorem Waits.continues {node : Nat} {slotEnd : Time} {control : Bool} (hw : w.Waits c)
    (he : e ∈ w.entries) (hevent : e.event = .continueSlot node slotEnd control)
    (hlt : e.time < slotEnd) : ∃ q, w.slots = q + 1 ∧ ¬ c.IsControl q ∧ node ∈ w.entitledIn c q ∧
      slotEnd = c.slotBegin q + c.slotLength q := by
  have hfits := hw.fits e he
  unfold Fits at hfits
  rw [hevent] at hfits
  rcases hfits with hlate | hslot
  · exact absurd hlt (Nat.not_lt_of_le hlate)
  · exact hslot

theorem Waits.steps (hw : w.Waits c) (he : e ∈ w.entries) (hevent : e.event = .envStep) :
    ∃ q, w.slots = q + 1 ∧ c.IsControl q ∧ e.time = c.slotBegin q ∧ ∀ x ∈ w.sent, x.slot ≠ q := by
  have hfits := hw.fits e he
  unfold Fits at hfits
  rwa [hevent] at hfits

/-! ## An event is handled -/

/-- What is sent while an event is handled may be sent in the slot that runs. In a control slot it comes
from one node, when the environment takes its step. -/
structure Heeds (c : Config) (e : Entry Event) (w' : Watch σ) (sends : Nat → Frame → Prop) : Prop where
  transmitter : ∀ a f, sends a f → f.transmitter = Address.ofNode a
  slot : ∀ a f, sends a f → ∃ q, w'.slots = q + 1 ∧ c.slotBegin q ≤ e.time ∧
    e.time < c.slotBegin q + c.slotLength q ∧ c.Allows q (w'.entitledIn c q) f
  alone : ∀ a f b g, sends a f → sends b g → c.IsControl (w'.slots - 1) →
    f.transmitter = g.transmitter
  first : ∀ a f, sends a f → c.IsControl (w'.slots - 1) → e.event = .envStep

theorem SentDuring.inSlot (hc : c.Accepted) {m : Medium} {x : Sending} (h : SentDuring sends m e w' x)
    (htotal : w'.network.controller.totalSlots = c.frame.slots c.nodeCount)
    (hguard : ∀ a b delay, m.Reaches a b delay → delay ≤ c.frame.guardTime)
    (hheeds : w'.Heeds c e sends) :
    x.InSlot c ∧ x.slot + 1 = w'.slots ∧ x.entitled = w'.entitledIn c x.slot := by
  obtain ⟨sender, delay, hsend, hreaches, htime⟩ := h.sender
  obtain ⟨q, hslots, hbegan, hinside, hallowed⟩ := hheeds.slot sender x.frame hsend
  have hq : x.slot = q := by rw [h.slot, hslots, Nat.add_sub_cancel]
  have hsentAt : x.sentAt = e.time := by
    unfold Sending.sentAt
    rw [h.during]
    rfl
  have hentitled : x.entitled = w'.entitledIn c x.slot := by
    rw [h.entitled, htotal]
    rfl
  refine ⟨⟨?_, ?_, ?_, ?_⟩, ?_, hentitled⟩
  · rwa [hsentAt, hq]
  · rwa [hsentAt, hq]
  · rw [htime, hq]
    exact hc.arrives_before hinside (hguard _ _ _ hreaches)
  · rw [hentitled, hq]
    exact hallowed
  · rw [hq, hslots]

theorem Sorted.handles (hc : c.Accepted) (hw : w.Sorted c) (hwaits : w.Waits c) (he : e ∈ w.entries)
    {m : Medium} (hnext : ∀ x ∈ w.sent, x.id < m.events.nextId) (hslots : w.slots ≤ w'.slots)
    (htotal : w'.network.controller.totalSlots = c.frame.slots c.nodeCount)
    (hguard : ∀ a b delay, m.Reaches a b delay → delay ≤ c.frame.guardTime)
    (hheeds : w'.Heeds c e sends)
    (hentitled : w.SameEntitled c w')
    (hsent : ∀ x ∈ w'.sent, x ∈ w.sent ∨ SentDuring sends m e w' x) : w'.Sorted c := by
  have hnew := fun x (hx : SentDuring sends m e w' x) => hx.inSlot hc htotal hguard hheeds
  have hcurrent : ∀ x ∈ w'.sent, x.slot + 1 = w'.slots → ¬ c.IsControl x.slot →
      x.entitled = w'.entitledIn c x.slot := by
    intro x hx hslot hdata
    rcases hsent x hx with hx | hx
    · have hlt := hw.slot_lt x hx
      have hslot' : w.slots = x.slot + 1 := by omega
      rw [hentitled x.slot hslot' hslot.symm hdata]
      exact hw.current x hx hslot'.symm hdata
    · exact (hnew x hx).2.2
  have hlt : ∀ x ∈ w'.sent, x.slot < w'.slots := by
    intro x hx
    rcases hsent x hx with hx | hx
    · exact Nat.lt_of_lt_of_le (hw.slot_lt x hx) hslots
    · have hslot := (hnew x hx).2.1
      omega
  -- in a control slot nothing was sent before
  have hfirst : ∀ x ∈ w.sent, ∀ y, SentDuring sends m e w' y → c.IsControl y.slot →
      x.slot ≠ y.slot := by
    intro x hx y hy hcontrol hslot
    have hyslot := (hnew y hy).2.1
    obtain ⟨sender, delay, hsend, -⟩ := hy.sender
    have henv := hheeds.first sender y.frame hsend (by rw [← hyslot]; exact hcontrol)
    obtain ⟨q, hq, -, -, hnone⟩ := hwaits.steps he henv
    have hxlt := hw.slot_lt x hx
    exact hnone x hx (by omega)
  refine ⟨?inSlot, hlt, ?ordered, ?alone, ?shared, hcurrent⟩
  case inSlot =>
    intro x hx
    rcases hsent x hx with hx | hx
    · exact hw.inSlot x hx
    · exact (hnew x hx).1
  case ordered =>
    intro x hx y hy hid
    rcases hsent y hy with hy' | hy'
    · rcases hsent x hx with hx' | hx'
      · exact hw.ordered x hx' y hy' hid
      · have hylt := hnext y hy'
        have hxle := hx'.id
        omega
    · have hyslot := (hnew y hy').2.1
      have hxlt := hlt x hx
      omega
  case alone =>
    intro x hx y hy hslot hcontrol
    rcases hsent x hx with hx' | hx' <;> rcases hsent y hy with hy' | hy'
    · exact hw.alone x hx' y hy' hslot hcontrol
    · exact absurd hslot (hfirst x hx' y hy' (hslot ▸ hcontrol))
    · exact absurd hslot.symm (hfirst y hy' x hx' hcontrol)
    · obtain ⟨a, _, hsend, -⟩ := hx'.sender
      obtain ⟨b, _, hsend', -⟩ := hy'.sender
      apply hheeds.alone a x.frame b y.frame hsend hsend'
      rwa [← (hnew x hx').2.1]
  case shared =>
    intro x hx y hy hslot hdata
    rcases hsent x hx with hx' | hx'
    · rcases hsent y hy with hy' | hy'
      · exact hw.shared x hx' y hy' hslot hdata
      · have hyslot := (hnew y hy').2.1
        rw [hcurrent x hx (hslot ▸ hyslot) hdata, (hnew y hy').2.2, hslot]
    · have hxslot := (hnew x hx').2.1
      rw [(hnew x hx').2.2, hslot]
      exact (hcurrent y hy (hslot ▸ hxslot) (hslot ▸ hdata)).symm

theorem Sorted.of_same (hw : w.Sorted c) (hsent : w'.sent = w.sent) (hslots : w'.slots = w.slots)
    (hentitled : ∀ i, w'.entitledIn c i = w.entitledIn c i) : w'.Sorted c where
  inSlot := by
    rw [hsent]
    exact hw.inSlot
  slot_lt := by
    rw [hsent, hslots]
    exact hw.slot_lt
  ordered := by
    rw [hsent]
    exact hw.ordered
  alone := by
    rw [hsent]
    exact hw.alone
  shared := by
    rw [hsent]
    exact hw.shared
  current := by
    rw [hsent, hslots]
    intro x hx hslot hdata
    rw [hentitled]
    exact hw.current x hx hslot hdata

/-! ## What waits -/

theorem settles_of_isDelivery {x : Entry Event} (h : x.event.isDelivery = true) : w.Settles c x := by
  obtain ⟨time, id, event, cancelled⟩ := x
  cases event with
  | deliver receiver frame => exact ⟨nofun, trivial⟩
  | _ => cases h

theorem settles_of_arrival {x : Entry Event} {node : Nat} (h : x.event = .arrival node) :
    w.Settles c x := by
  obtain ⟨time, id, event, cancelled⟩ := x
  cases h
  exact ⟨nofun, trivial⟩

theorem settles_of_continueSlot {x : Entry Event} {node q : Nat} (hslots : w.slots = q + 1)
    (hdata : ¬ c.IsControl q) (hnode : node ∈ w.entitledIn c q) {control : Bool}
    (h : x.event = .continueSlot node (c.slotBegin q + c.slotLength q) control) : w.Settles c x := by
  obtain ⟨time, id, event, cancelled⟩ := x
  cases h
  exact ⟨nofun, .inr ⟨q, hslots, hdata, hnode, rfl⟩⟩

theorem Fits.goOn {x : Entry Event} (h : w.Fits c x) (hslots : w'.slots = w.slots)
    (hentitled : w.SameEntitled c w')
    (hnone : x.event = .envStep → ∀ y ∈ w'.sent, y ∈ w.sent ∨ ¬ c.IsControl y.slot) :
    w'.Fits c x := by
  obtain ⟨time, id, event, cancelled⟩ := x
  cases event with
  | envStep =>
    obtain ⟨q, hq, hcontrol, htime, hbefore⟩ := h
    refine ⟨q, hslots.trans hq, hcontrol, htime, fun y hy hyq => ?_⟩
    rcases hnone rfl y hy with hy | hy
    · exact hbefore y hy hyq
    · exact hy (hyq ▸ hcontrol)
  | continueSlot node slotEnd control =>
    rcases h with hlate | ⟨q, hq, hdata, hnode, hend⟩
    · exact .inl hlate
    · refine .inr ⟨q, hslots.trans hq, hdata, ?_, hend⟩
      rwa [hentitled q hq (hslots.trans hq) hdata]
  | _ => trivial

theorem Waits.goOn (hw : w.Waits c) (hslots : w'.slots = w.slots)
    (hnow : w.medium.now ≤ w'.medium.now)
    (hentitled : w.SameEntitled c w')
    (hentries : ∀ x ∈ w'.entries, x.event.isDelivery = false → (x ∈ w.entries ∧
        (x.event = .envStep → ∀ y ∈ w'.sent, y ∈ w.sent ∨ ¬ c.IsControl y.slot)) ∨
      w'.Settles c x) : w'.Waits c := by
  have hold : ∀ x ∈ w'.entries, x.event = .envStep → x ∈ w.entries := by
    intro x hx henv
    rcases hentries x hx (by rw [henv]; rfl) with ⟨hx, -⟩ | ⟨hne, -⟩
    · exact hx
    · exact absurd henv hne
  refine ⟨fun q hq => (hw.began q (hslots ▸ hq)).trans hnow, fun x hx => ?_,
    fun x hx y hy hxe hye => hw.once x (hold x hx hxe) y (hold y hy hye) hxe hye⟩
  cases hdelivery : x.event.isDelivery with
  | true => exact (settles_of_isDelivery hdelivery).2
  | false =>
    rcases hentries x hx hdelivery with ⟨hx, hnone⟩ | ⟨-, hfits⟩
    · exact (hw.fits x hx).goOn hslots hentitled hnone
    · exact hfits

theorem Waits.passes (hw : w.Waits c) (ho : w.medium.events.Ordered) (h : w.Handles e s w')
    (hslots : w'.slots = w.slots) (hleads : Leads plans s.network.medium w'.medium)
    (hplans : ∀ x : Entry Event, plans x.time x.event → w'.Settles c x)
    (hentitled : w.SameEntitled c w')
    (hsent : ∀ x ∈ w'.sent, x ∈ w.sent ∨ (c.IsControl x.slot → e.event = .envStep)) :
    w'.Waits c := by
  refine hw.goOn hslots ?_ hentitled fun x hx hdelivery => ?_
  · rw [hleads.now]
    exact Nat.le_trans (ho.now_le e h.mem) (Nat.le_of_eq h.now.symm)
  · rcases hleads.other x hx hdelivery with hold | ⟨-, -, hplan⟩
    · obtain ⟨hmem, hlt⟩ := (h.rest x).1 hold
      refine .inl ⟨hmem, fun henv y hy => (hsent y hy).imp_right fun hfirst hcontrol => ?_⟩
      rw [hw.once e h.mem x hmem (hfirst hcontrol) henv] at hlt
      exact lt_irrefl _ hlt
    · exact .inr (hplans x hplan)

theorem Waits.before (hc : c.Accepted) (hw : w.Waits c) {x : Entry Event} (hx : x ∈ w.entries)
    (hlate : c.slotBegin w.slots ≤ x.time) : w'.Settles c x := by
  have hfits := hw.fits x hx
  obtain ⟨time, id, event, cancelled⟩ := x
  cases event with
  | envStep =>
    obtain ⟨q, hq, -, rfl, -⟩ := hfits
    have hlt : q < w.slots := by omega
    exact absurd (hc.slotBegin_strictMono hlt) (Nat.not_lt_of_le hlate)
  | continueSlot node slotEnd control =>
    refine ⟨nofun, .inl ?_⟩
    rcases hfits with hlate' | ⟨q, hq, -, -, rfl⟩
    · exact hlate'
    · rw [hq] at hlate
      exact (hc.slotEnd_le q).trans hlate
  | _ => exact ⟨nofun, trivial⟩

theorem Waits.ofSettled (first : Entry Event)
    (hbegan : ∀ q, w.slots = q + 1 → c.slotBegin q ≤ w.medium.now)
    (h : ∀ x ∈ w.entries, w.Settles c x ∨ (x = first ∧ w.Fits c x)) : w.Waits c := by
  have hfirst : ∀ x ∈ w.entries, x.event = .envStep → x = first := by
    intro x hx henv
    rcases h x hx with hsettles | ⟨hfirst, -⟩
    · exact absurd henv hsettles.1
    · exact hfirst
  refine ⟨hbegan, fun x hx => (h x hx).elim And.right And.right, fun x hx y hy hxe hye => ?_⟩
  rw [hfirst x hx hxe, hfirst y hy hye]

/-- At the beginning of a slot the stations go on if they are entitled to it, and the environment takes
its step if it is a control slot. -/
theorem Waits.opens (hc : c.Accepted) (hw : w.Waits c) (hon : w.OnTime c) (h : w.Handles e s w')
    (hcadence : e.event.isCadence = true)
    (hnone : c.IsControl w.slots → ∀ x ∈ w'.sent, x.slot ≠ w.slots) : w'.Waits c := by
  obtain ⟨htime, -, -, hslots, hopens⟩ := hon.opens hc h hcadence
  have hlayout : w'.network.controller.layout = c.frame := hopens.layout.trans (h.layout hon)
  have hnodes : w'.network.controller.nodeCount = c.nodeCount :=
    hopens.nodeCount.trans (h.nodeCount hon)
  have hnow : s.network.now = c.slotBegin w.slots := h.now.trans htime
  have hend : s.network.now + w'.network.controller.slotDuration (w.slots % c.frame.slots c.nodeCount)
      = c.slotBegin w.slots + c.slotLength w.slots := by
    rw [hnow, Controller.slotDuration, hlayout, hnodes]
    rfl
  obtain ⟨m, m₁, delay, next, hfollowing, hleads, hschedule, hrest⟩ :=
    hopens.leads (h.traced hon.traced)
  obtain ⟨-, rfl⟩ :=
    FrameLayout.following_eq hopens.staffed.shaped hlayout hnodes hc.slots_pos hfollowing
  have hcurrent : ∀ x ∈ m.events.entries, w'.Settles c x := by
    intro x hx
    cases hdelivery : x.event.isDelivery with
    | true => exact settles_of_isDelivery hdelivery
    | false =>
      rcases hleads.other x hx hdelivery with hold | ⟨-, -, hdata, node, hnode, -, hevent⟩
      · obtain ⟨hmem, hlt⟩ := (h.rest x).1 hold
        have hlate : c.slotBegin w.slots ≤ x.time :=
          Nat.le_trans (Nat.le_of_eq htime.symm) (Entry.time_le_of_key_lt hlt)
        exact hw.before hc hmem hlate
      · rw [h.nodeCount hon] at hdata
        exact settles_of_continueSlot hslots (of_decide_eq_false hdata) hnode (hend ▸ hevent)
  have hnext : ∀ x ∈ m₁.events.entries, w'.Settles c x := by
    intro x hx
    rcases (Medium.mem_schedule hschedule).1 hx with rfl | hx
    · cases (w.slots + 1) % c.frame.slots c.nodeCount <;> exact ⟨nofun, trivial⟩
    · exact hcurrent x hx
  have hpresent : m₁.now = c.slotBegin w.slots := by
    rw [Medium.schedule_ok hschedule]
    exact hleads.now.trans hnow
  have hbegan : w'.medium.now = m₁.now → ∀ q, w'.slots = q + 1 → c.slotBegin q ≤ w'.medium.now := by
    intro hsame q hq
    obtain rfl : w.slots = q := by omega
    exact Nat.le_of_eq (hsame.trans hpresent).symm
  rcases hrest with ⟨hcontrol, henv⟩ | ⟨-, hdone⟩
  · rw [h.nodeCount hon] at hcontrol
    have hsame : w'.medium.now = m₁.now := by
      rw [show w'.medium = _ from Medium.schedule_ok henv]
      rfl
    refine .ofSettled ⟨m₁.now + 0, m₁.events.nextId, .envStep, false⟩ (hbegan hsame) fun x hx => ?_
    rcases (Medium.mem_schedule henv).1 hx with rfl | hx
    · exact .inr ⟨rfl, w.slots, hslots, hcontrol, hpresent, hnone hcontrol⟩
    · exact .inl (hnext x hx)
  · have hsame : w'.medium = m₁ := hdone
    refine .ofSettled e (hbegan (congrArg Medium.now hsame)) fun x hx => .inl (hnext x ?_)
    rwa [← hsame]

/-! ## What is sent in a slot -/

theorem Heeds.ofSilent (hs : ∀ a f, ¬ sends a f) : w'.Heeds c e sends :=
  ⟨fun a f h => absurd h (hs a f), fun a f h => absurd h (hs a f), fun a f _ _ h => absurd h (hs a f),
    fun a f h => absurd h (hs a f)⟩

theorem Heeds.ofSlotSends (hc : c.Accepted) (htime : e.time = c.slotBegin w.slots)
    (hslots : w'.slots = w.slots + 1) : w'.Heeds c e
      (Network.SlotSends (Timing.isControlSlot c.nodeCount (w.slots % c.frame.slots c.nodeCount))
        (w'.entitledIn c w.slots)) := by
  have hdata : ∀ a f, Network.SlotSends
      (Timing.isControlSlot c.nodeCount (w.slots % c.frame.slots c.nodeCount))
      (w'.entitledIn c w.slots) a f → ¬ c.IsControl w.slots := fun a f h => of_decide_eq_false h.1
  have hslot : w'.slots - 1 = w.slots := by omega
  refine ⟨fun a f hsend => ?_, fun a f hsend => ⟨w.slots, hslots, Nat.le_of_eq htime.symm, ?_, ?_⟩,
    fun a f b g hsend _ hcontrol => ?_, fun a f hsend hcontrol => ?_⟩
  · obtain ⟨-, node, -, rfl, -, htransmitter⟩ := hsend
    exact htransmitter
  · rw [htime]
    exact Nat.lt_add_of_pos_right (hc.slotLength_pos _)
  · obtain ⟨-, node, hnode, -, hplain, htransmitter⟩ := id hsend
    exact .inr ⟨hdata a f hsend, hplain, node, hnode, htransmitter⟩
  · exact absurd (hslot ▸ hcontrol) (hdata a f hsend)
  · exact absurd (hslot ▸ hcontrol) (hdata a f hsend)

theorem Heeds.ofContinueSlot {node : Nat} {slotEnd : Time} {control : Bool} (hw : w.Waits c)
    (ho : w.medium.events.Ordered) (he : e ∈ w.entries)
    (hevent : e.event = .continueSlot node slotEnd control) (hslots : w'.slots = w.slots)
    (hentitled : ∀ q, w'.entitledIn c q = w.entitledIn c q) :
    w'.Heeds c e (fun a f => control = false ∧ e.time < slotEnd ∧ Station.Sends node a f) := by
  have hdata : e.time < slotEnd → ¬ c.IsControl (w'.slots - 1) := by
    intro hlt
    obtain ⟨q, hq, hdata, -⟩ := hw.continues he hevent hlt
    rwa [hslots, hq, Nat.add_sub_cancel]
  refine ⟨?_, ?_, ?_, ?_⟩
  · rintro a f ⟨-, -, rfl, -, htransmitter⟩
    exact htransmitter
  · rintro a f ⟨-, hlt, -, hplain, htransmitter⟩
    obtain ⟨q, hq, hdata', hnode, rfl⟩ := hw.continues he hevent hlt
    exact ⟨q, hslots.trans hq, (hw.began q hq).trans (ho.now_le e he), hlt,
      .inr ⟨hdata', hplain, node, (hentitled q).symm ▸ hnode, htransmitter⟩⟩
  · rintro a f b g ⟨-, hlt, -⟩ - hcontrol
    exact absurd hcontrol (hdata hlt)
  · rintro a f ⟨-, hlt, -⟩ hcontrol
    exact absurd hcontrol (hdata hlt)

theorem Heeds.ofBroadcast (hc : c.Accepted) {node : Nat} {frame : Frame} (hw : w.Waits c)
    (he : e ∈ w.entries) (hevent : e.event = .envStep) (hslots : w'.slots = w.slots)
    (hkind : frame.kind = .reservation) (htransmitter : frame.transmitter = Address.ofNode node) :
    w'.Heeds c e (Medium.Only node frame) := by
  obtain ⟨q, hq, hcontrol, htime, -⟩ := hw.steps he hevent
  refine ⟨?_, ?_, ?_, fun _ _ _ _ => hevent⟩
  · rintro a f ⟨rfl, rfl⟩
    exact htransmitter
  · rintro a f ⟨rfl, rfl⟩
    refine ⟨q, hslots.trans hq, Nat.le_of_eq htime.symm, ?_, .inl ⟨hcontrol, hkind⟩⟩
    rw [htime]
    exact Nat.lt_add_of_pos_right (hc.slotLength_pos _)
  · rintro a f b g ⟨-, rfl⟩ ⟨-, rfl⟩ -
    rfl

/-! ## Broadcasts -/

namespace Handles

theorem entitledIn_eq (h : w.Handles e s w')
    (hsame : w'.network.controller = s.network.controller) (i : Nat) :
    w'.entitledIn c i = w.entitledIn c i := by
  unfold entitledIn
  rw [hsame, h.controller]

theorem reaches (h : w.Handles e s w') {a b : Nat} {delay : Time} :
    s.network.medium.Reaches a b delay ↔ w.medium.Reaches a b delay := by
  unfold Medium.Reaches
  rw [h.medium]

theorem reservations_eq (h : w.Handles e s w') : w'.reservations = w.reservations ++
    if s.network.medium.stats.reservationMessages < w'.medium.stats.reservationMessages then
      [(s.environment.currentNode, w'.slots - 1)] else [] := by
  rw [h.noted, h.environment, h.medium]
  rfl

theorem reservationMessages_eq (h : w.Handles e s w') :
    s.network.medium.stats.reservationMessages = w.medium.stats.reservationMessages := by
  rw [h.medium]

end Handles

theorem Reached.mono {node slot : Nat} (h : w.Reached c node slot) (hslots : w.slots ≤ w'.slots)
    (hsent : ∀ x ∈ w.sent, x ∈ w'.sent)
    (hreaches : ∀ a b delay, w'.medium.Reaches a b delay → w.medium.Reaches a b delay) :
    w'.Reached c node slot := by
  obtain ⟨hlt, hcontrol, hheard⟩ := h
  refine ⟨Nat.lt_of_lt_of_le hlt hslots, hcontrol, fun receiver delay hr => ?_⟩
  obtain ⟨x, hx, hrest⟩ := hheard receiver delay (hreaches node receiver delay hr)
  exact ⟨x, hsent x hx, hrest⟩

theorem Heard.goOn (hw : w.Heard c) (hslots : w.slots ≤ w'.slots) (hsent : ∀ x ∈ w.sent, x ∈ w'.sent)
    (hreaches : ∀ a b delay, w'.medium.Reaches a b delay → w.medium.Reaches a b delay)
    (hreservations : w'.reservations = w.reservations)
    (hcount : w'.medium.stats.reservationMessages = w.medium.stats.reservationMessages) :
    w'.Heard c := by
  refine ⟨by rw [hreservations, hcount, hw.counted], fun r hr => ?_⟩
  exact (hw.reached r (hreservations ▸ hr)).mono hslots hsent hreaches

theorem Heard.does (hw : w.Heard c) (h : w.Handles e s w') (hslots : w.slots ≤ w'.slots)
    (hdoes : Does sends plans s.network.medium w'.medium) : w'.Heard c := by
  have hplace := hdoes.samePlace h.ordered
  have hcount := hdoes.reservations h.ordered
  refine hw.goOn hslots (fun x => h.sent_mono)
    (fun a b delay hr => h.reaches.1 (hplace.reaches.1 hr)) ?_
    (hcount.trans h.reservationMessages_eq)
  rw [h.reservations_eq, if_neg (Nat.not_lt_of_le (Nat.le_of_eq hcount)), List.append_nil]

theorem Heard.broadcasts {nodes q : Nat} {frame : Frame} (hw : w.Heard c) (h : w.Handles e s w')
    (hl : w'.Recorded nodes l') (hplace : s.network.medium.SamePlace w'.medium)
    (hslots : w'.slots = w.slots) (hq : w.slots = q + 1) (hcontrol : c.IsControl q)
    (hkind : frame.kind = .reservation)
    (htransmitter : frame.transmitter = Address.ofNode s.environment.currentNode)
    (hcount : w'.medium.stats.reservationMessages
      = s.network.medium.stats.reservationMessages + 1)
    (hold : ∀ x ∈ w.sent, x.id < s.network.medium.events.nextId)
    (hsent : ∀ x ∈ w'.sent, x ∈ w.sent ∨ SentDuring sends s.network.medium e w' x)
    (hreached : ∀ receiver < nodes, ∀ delay,
      s.network.medium.Reaches s.environment.currentNode receiver delay →
      ∃ d ∈ l'.deliveries, s.network.medium.events.nextId ≤ d.id ∧
        d.event = .deliver receiver frame) : w'.Heard c := by
  have hreservations : w'.reservations = w.reservations ++ [(s.environment.currentNode, q)] := by
    rw [h.reservations_eq, hcount, if_pos (Nat.lt_succ_self _), hslots, hq, Nat.add_sub_cancel]
  refine ⟨?_, fun r hr => ?_⟩
  · rw [hreservations, List.length_append, hw.counted, hcount, h.reservationMessages_eq]
    rfl
  rw [hreservations] at hr
  rcases List.mem_append.1 hr with hr | hr
  · exact (hw.reached r hr).mono (Nat.le_of_eq hslots.symm) (fun x => h.sent_mono)
      fun a b delay hr => h.reaches.1 (hplace.reaches.1 hr)
  obtain rfl := List.mem_singleton.1 hr
  refine ⟨by omega, hcontrol, fun receiver delay hr => ?_⟩
  have hreceiver : receiver < nodes := by
    obtain ⟨-, -, there, -, hthere, -⟩ := id hr
    rw [← hl.places]
    exact (List.getElem?_eq_some_iff.1 hthere).1
  obtain ⟨d, hd, hid, hevent⟩ := hreached receiver hreceiver delay (hplace.reaches.1 hr)
  obtain ⟨x, hx, his⟩ := hl.deliveries d hd
  rw [his.event] at hevent
  cases hevent
  have hslot : x.slot = q := by
    rcases hsent x hx with hx | hx
    · have hlt := hold x hx
      have hxid := his.id
      omega
    · rw [hx.slot, hslots, hq, Nat.add_sub_cancel]
  exact ⟨x, hx, hslot, rfl, hkind, htransmitter⟩

end Watch

end SlotNet
