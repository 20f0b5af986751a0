import Mathlib.Tactic.Set
import SlotNet.Proofs.Config
import SlotNet.Proofs.Controller.Messages
import SlotNet.Proofs.Exchange

/-!
# Where claims come from

`claims_are_choices`: however the messages of a frame are ordered, lost or doubled, every claim that
a node knows of was chosen by its owner in the frame that the generation stands for, and the owner
is at most as many hops away as the priority says.

The invariant (`Provenance`) says this of the claims in the table and of the claims in every message
that may still be handed on, for all neighbours of its sender. A relay adds one to the priority and
one hop to the way; it is never cut, because claims that count have priorities below nine.
-/

namespace SlotNet.Exchange

/-- The node `n` is at most `k` hops away from the node `o`. -/
inductive WithinHops (adj : Nat → Nat → Bool) : Nat → Nat → Nat → Prop where
  | here (k o : Nat) : WithinHops adj k o o
  | hop {k o m n : Nat} : WithinHops adj k o m → adj m n = true → WithinHops adj (k + 1) o n

/-- The frame that a generation stands for: frames are numbered from 1 on, and the generations move
on with the first data slot. -/
def frameOf (s : Exchange) : Generation → Nat
  | .current => if s.inControl then s.controller.frameIndex else s.controller.frameIndex + 1
  | .previous => if s.inControl then s.controller.frameIndex - 1 else s.controller.frameIndex

/-- If it is a claim, its owner chose the slot in the frame, and the owner is not farther away than
the priority says. -/
def Sourced (adj : Nat → Nat → Bool) (history : List Choice) (frame slot node : Nat) (c : Claim) :
    Prop :=
  c.isClaimed = true →
    ⟨frame, c.owner, slot⟩ ∈ history ∧ WithinHops adj c.priority c.owner node

/-- What a run keeps. -/
structure Provenance (adj : Nat → Nat → Bool) (s : Exchange) : Prop where
  shaped : s.controller.Shaped
  nodes_pos : 0 < s.controller.nodeCount
  nodes_le : s.controller.nodeCount ≤ 100
  slots_pos : 0 < s.controller.layout.dataSlots
  threshold_le : s.controller.rules.priorityThreshold ≤ 9
  relayable : s.controller.Relayable
  begun : s.slot.isSome = true → 0 < s.controller.frameIndex
  claims : ∀ g n d c, s.controller.claims.get g n d = some c →
    Sourced adj s.history (s.frameOf g) d n c
  sent : ∀ t ∈ s.sent, s.inControl = true ∧ ∃ m,
    StatusMessage.decode t.message s.controller.layout.dataSlots = .ok m ∧
      ∀ g d c, Controller.about m g d = some c → ∀ n, adj t.sender n = true →
        Sourced adj s.history (s.frameOf g) d n c
  granted : ∀ d n, s.controller.Granted d n →
    ⟨s.controller.frameIndex, n, d⟩ ∈ s.history ∧ ⟨s.controller.frameIndex - 1, n, d⟩ ∈ s.history

variable {adj : Nat → Nat → Bool} {s s' : Exchange}

theorem Sourced.mono {history history' : List Choice} (h : ∀ x ∈ history, x ∈ history')
    {frame slot node : Nat} {c : Claim} (hs : Sourced adj history frame slot node c) :
    Sourced adj history' frame slot node c :=
  fun hc => ⟨h _ (hs hc).1, (hs hc).2⟩

theorem sourced_free (history : List Choice) (frame slot node : Nat) :
    Sourced adj history frame slot node .free := fun h => nomatch h

/-- A neighbour of the sender is one hop further from the owner than the sender. -/
theorem Sourced.advertised {history : List Choice} {frame slot sender n : Nat} {c : Claim}
    (hr : c.Relayable) (h : Sourced adj history frame slot sender c) (ha : adj sender n = true) :
    Sourced adj history frame slot n (c.advertised sender) := by
  intro hc
  rw [Claim.isClaimed_advertised hr] at hc
  obtain ⟨hmem, hway⟩ := h hc
  rw [Claim.owner_advertised]
  refine ⟨hmem, ?_⟩
  rw [Claim.advertised_eq hr]
  split
  · exact .hop hway ha
  · rename_i hown
    have hown : c.owner = sender := by simpa [hc] using hown
    obtain ⟨p, hp⟩ : ∃ p, c.priority = p + 1 := by
      have : c.priority ≠ 0 := by simpa [Claim.isClaimed] using hc
      exact ⟨c.priority - 1, by omega⟩
    rw [hp, hown]
    exact .hop (.here p sender) ha

/-! ## The steps -/

theorem Provenance.start {config : Config} {c : Controller} (ha : config.Accepted)
    (hc : Controller.ofConfig config = .ok c) : Provenance adj (start c) := by
  obtain ⟨hl, hn, hr, hf⟩ := Controller.ofConfig_ok hc
  have hnodes := ha.nodeCount
  unfold ConfigError.mostNodes at hnodes
  refine ⟨hf.shaped, ?_, ?_, ?_, ?_, hf.relayable, fun h => (nomatch h), fun g n d x hx => ?_,
    fun t ht => ?_, fun d n h => absurd h (hf.not_granted d n)⟩
  · show 0 < c.nodeCount
    omega
  · show c.nodeCount ≤ 100
    omega
  · show 0 < c.layout.dataSlots
    rw [hl]
    exact ha.dataSlots
  · show c.rules.priorityThreshold ≤ 9
    rw [hr]
    exact ha.threshold.2
  · rw [hf.free g n d x hx]
    exact sourced_free _ _ _ _
  · cases ht

theorem Provenance.not_inControl_of_frameOver (h : Provenance adj s) (hover : s.frameOver = true) :
    s.inControl = false := by
  unfold inControl
  cases hs : s.slot with
  | none => rfl
  | some k =>
    have hk : k + 1 = s.controller.totalSlots := by simpa [frameOver, hs] using hover
    have := h.shaped.totalSlots
    have := h.slots_pos
    simp only [Option.any_some, decide_eq_false_iff_not]
    omega

theorem Provenance.frameOf_beginFrame (h : Provenance adj s) (hover : s.frameOver = true)
    (g : Generation) :
    ({ s with controller := s.controller.beginFrame, slot := some 0 } : Exchange).frameOf g
      = s.frameOf g := by
  have hb := Controller.beginsFrom_beginFrame s.controller
  have hcontrol := h.not_inControl_of_frameOver hover
  have hcontrol' : ({ s with controller := s.controller.beginFrame, slot := some 0 } :
      Exchange).inControl = true := by
    simp [inControl, hb.nodeCount, h.nodes_pos]
  cases g <;> simp [frameOf, hcontrol, hcontrol', hb.frameIndex]

theorem Provenance.beginFrame (h : Provenance adj s)
    (hstep : s.step adj .beginFrame = some s') : Provenance adj s' := by
  obtain ⟨hover, rfl⟩ := step_beginFrame hstep
  have hb := Controller.beginsFrom_beginFrame s.controller
  refine ⟨h.shaped.beginFrame, ?_, ?_, ?_, ?_, h.relayable.beginFrame, fun _ => ?_,
    fun g n d x hx => ?_, fun t ht => ?_,
    fun d n hg => absurd hg (Controller.not_granted_beginFrame h.shaped d n)⟩
  · rw [hb.nodeCount]; exact h.nodes_pos
  · rw [hb.nodeCount]; exact h.nodes_le
  · rw [hb.layout]; exact h.slots_pos
  · rw [hb.rules]; exact h.threshold_le
  · rw [hb.frameIndex]; exact Nat.succ_pos _
  · rw [hb.claims] at hx
    rw [h.frameOf_beginFrame hover]
    exact h.claims g n d x hx
  · have := (h.sent t ht).1
    rw [h.not_inControl_of_frameOver hover] at this
    cases this

/-- With the first data slot the generations move on by one frame, and so does what they stand
for. -/
theorem Provenance.openSlot (h : Provenance adj s)
    (hstep : s.step adj .openSlot = some s') : Provenance adj s' := by
  obtain ⟨k, hk, hlt, ⟨hkn, rfl⟩ | ⟨hkn, rfl⟩⟩ := step_openSlot hstep
  · have hf := Controller.sameFrame_openSlot s.controller s.controller.nodeCount
    have hcontrol : s.inControl = true := by
      simp only [inControl, hk, Option.any_some, decide_eq_true_eq]
      omega
    set t : Exchange := { s with
      controller := s.controller.openSlot s.controller.nodeCount
      slot := some s.controller.nodeCount, sent := [], handed := [] } with ht
    have hindex : t.controller.frameIndex = s.controller.frameIndex := hf.frameIndex
    have hcontrol' : t.inControl = false := by
      simp [inControl, ht, hf.nodeCount]
    refine ⟨h.shaped.openSlot _, ?_, ?_, ?_, ?_, h.relayable.openSlot _, fun _ => ?_,
      fun g n d x hx => ?_, fun t ht => (nomatch ht), fun d n hg => ?_⟩
    · rw [hf.nodeCount]; exact h.nodes_pos
    · rw [hf.nodeCount]; exact h.nodes_le
    · rw [hf.layout]; exact h.slots_pos
    · rw [hf.rules]; exact h.threshold_le
    · rw [hindex]; exact h.begun (by rw [hk]; rfl)
    · rw [Controller.claims_openSlot_nodeCount] at hx
      cases g with
      | previous =>
        have hframe : t.frameOf .previous = s.frameOf .current := by
          simp [frameOf, hcontrol, hcontrol', hindex]
        rw [hframe]
        exact h.claims .current n d x hx
      | current =>
        rw [ClaimTable.get_rotate_current] at hx
        obtain ⟨y, -, rfl⟩ := Option.map_eq_some_iff.1 hx
        exact sourced_free _ _ _ _
    · rw [hindex]
      exact h.granted d n ((Controller.granted_openSlot _ _ _ _).1 hg)
  · have hcontrol : ({ s with slot := some (k + 1) } : Exchange).inControl = s.inControl := by
      simp only [inControl, hk, Option.any_some, decide_eq_decide]
      omega
    have hframe : ∀ g, ({ s with slot := some (k + 1) } : Exchange).frameOf g = s.frameOf g := by
      intro g
      cases g <;> simp only [frameOf, hcontrol]
    refine { h with
      begun := fun _ => h.begun (by rw [hk]; rfl), claims := fun g n d x hx => ?_,
      sent := fun t ht => ?_ }
    · rw [hframe]
      exact h.claims g n d x hx
    · simp only [hcontrol, hframe]
      exact h.sent t ht

theorem Provenance.choose (h : Provenance adj s) {slot : Nat}
    (hstep : s.step adj (.choose slot) = some s') : Provenance adj s' := by
  cases hstep
  exact ⟨⟨h.shaped.claims, h.shaped.totalSlots, h.shaped.controlOrder⟩, h.nodes_pos, h.nodes_le,
    h.slots_pos, h.threshold_le, h.relayable, h.begun, h.claims, h.sent,
    h.granted⟩

theorem mem_choicesOf {node n d : Nat} {f : Nat} :
    (⟨f, n, d⟩ : Choice) ∈ s.choicesOf node
      ↔ f = s.controller.frameIndex ∧ n = node ∧ d ∈ s.controller.choices := by
  simp only [choicesOf, List.mem_map, Choice.mk.injEq]
  constructor
  · rintro ⟨x, hx, rfl, rfl, rfl⟩
    exact ⟨rfl, rfl, hx⟩
  · rintro ⟨rfl, rfl, hd⟩
    exact ⟨d, hd, rfl, rfl, rfl⟩

theorem Provenance.sourced_reserved (h : Provenance adj s) (hcontrol : s.inControl = true)
    {node : Nat} {g : Generation} {n d : Nat} {x : Claim}
    (hx : (s.controller.reserved node).claims.get g n d = some x) :
    Sourced adj (s.history ++ s.choicesOf node) (s.frameOf g) d n x := by
  rw [Controller.get_reserved] at hx
  split at hx
  · rename_i hown
    obtain ⟨rfl, rfl, hd⟩ := hown
    obtain ⟨held, -, rfl⟩ := Option.map_eq_some_iff.1 hx
    refine fun _ => ⟨List.mem_append_right _ (mem_choicesOf.2 ⟨?_, rfl, hd⟩), .here 1 n⟩
    simp [frameOf, hcontrol]
  · exact (h.claims g n d x hx).mono fun _ => List.mem_append_left _

theorem Provenance.reserve (h : Provenance adj s) {m : Medium} {node : Nat}
    (hstep : s.step adj (.reserve m node) = some s') : Provenance adj s' := by
  obtain ⟨hcontrol, rfl⟩ := step_reserve hstep
  have hf := Controller.sameFrame_reserved s.controller node
  have hrel := h.relayable.reserved h.shaped h.nodes_le node
  set t : Exchange := { s with
    controller := s.controller.reserved node
    sent := s.sent ++ s.messagesOf node
    history := s.history ++ s.choicesOf node } with ht
  have hindex : t.controller.frameIndex = s.controller.frameIndex := hf.frameIndex
  have hcontrol' : t.inControl = true := by
    rw [← hcontrol]
    simp only [inControl, ht, hf.nodeCount]
  have hframe : ∀ g, t.frameOf g = s.frameOf g := by
    intro g
    cases g <;> simp only [frameOf, hcontrol, hcontrol', hindex]
  have hclaims : ∀ g n d x, t.controller.claims.get g n d = some x →
      Sourced adj t.history (t.frameOf g) d n x := by
    intro g n d x hx
    rw [hframe]
    exact h.sourced_reserved hcontrol hx
  have hmore : ∀ x ∈ s.history, x ∈ t.history := fun _ => List.mem_append_left _
  refine ⟨h.shaped.reserved node, ?_, ?_, ?_, ?_, hrel, fun hb => ?_, hclaims, fun u hu => ?_,
    fun d n hg => ?_⟩
  · rw [ht, hf.nodeCount]; exact h.nodes_pos
  · rw [ht, hf.nodeCount]; exact h.nodes_le
  · rw [ht, hf.layout]; exact h.slots_pos
  · rw [ht, hf.rules]; exact h.threshold_le
  · rw [hindex]; exact h.begun hb
  · refine ⟨hcontrol', ?_⟩
    rw [show t.controller.layout = s.controller.layout from hf.layout]
    rcases List.mem_append.1 hu with hu | hu
    · obtain ⟨-, m, hm, hall⟩ := h.sent u hu
      refine ⟨m, hm, fun g d x hx n hn => ?_⟩
      rw [hframe]
      exact (hall g d x hx n hn).mono hmore
    · -- the new message says what the node holds now
      obtain ⟨message, hmes, rfl⟩ := List.mem_map.1 hu
      obtain ⟨m, hm, habout⟩ := Controller.decode_status hrel h.shaped (Option.mem_toList.1 hmes)
      refine ⟨m, hm, fun g d x hx n hn => ?_⟩
      rw [habout] at hx
      obtain ⟨y, hy, rfl⟩ := Option.map_eq_some_iff.1 hx
      exact (hclaims g node d y hy).advertised (hrel g node d y hy) hn
  · rw [hindex]
    rcases (Controller.granted_reserved _ _ _ _).1 hg with hg | ⟨rfl, -, p, q, hp, hq, op, oq⟩
    · exact ⟨hmore _ (h.granted d n hg).1, hmore _ (h.granted d n hg).2⟩
    · simp only [Claim.isOwnedBy, Bool.and_eq_true, beq_iff_eq] at op oq
      have h1 := (hclaims .current n d q hq oq.1).1
      have h2 := (hclaims .previous n d p hp op.1).1
      rw [oq.2] at h1
      rw [op.2] at h2
      simp only [frameOf, hcontrol', if_true, hindex] at h1 h2
      exact ⟨h1, h2⟩

theorem Provenance.hand (h : Provenance adj s) {place observer : Nat}
    (hstep : s.step adj (.hand place observer) = some s') : Provenance adj s' := by
  obtain ⟨hcontrol, u, hu, hadj, rfl⟩ := step_hand hstep
  have hf := Controller.sameFrame_merge s.controller u.message observer
  obtain ⟨-, m, hm, hall⟩ := h.sent u (List.mem_of_getElem? hu)
  set t : Exchange := { s with
    controller := (s.controller.merge u.message observer).1
    handed := (place, observer) :: s.handed } with ht
  have hindex : t.controller.frameIndex = s.controller.frameIndex := hf.frameIndex
  have hcontrol' : t.inControl = s.inControl := by
    simp only [inControl, ht, hf.nodeCount]
  have hframe : ∀ g, t.frameOf g = s.frameOf g := by
    intro g
    cases g <;> simp only [frameOf, hcontrol', hindex]
  refine ⟨h.shaped.merge _ _, ?_, ?_, ?_, ?_, h.relayable.merge h.shaped h.threshold_le _ _,
    fun hb => ?_, fun g n d x hx => ?_, fun v hv => ?_, fun d n hg => ?_⟩
  · rw [ht, hf.nodeCount]; exact h.nodes_pos
  · rw [ht, hf.nodeCount]; exact h.nodes_le
  · rw [ht, hf.layout]; exact h.slots_pos
  · rw [ht, hf.rules]; exact h.threshold_le
  · rw [hindex]; exact h.begun hb
  · rw [hframe]
    rw [ht, Controller.get_merge h.shaped.claims hm] at hx
    split at hx
    · rename_i hn
      subst hn
      obtain ⟨held, hh, rfl⟩ := Option.map_eq_some_iff.1 hx
      rcases Controller.resolved_eq_or held (Controller.about m g d) with he | ⟨y, hy, -, he⟩
      · rw [he]
        exact h.claims g n d held hh
      · rw [he]
        exact hall g d y hy n hadj
    · exact h.claims g n d x hx
  · rw [hcontrol', show t.controller.layout = s.controller.layout from hf.layout]
    simp only [hframe]
    exact h.sent v hv
  · rw [hindex]
    exact h.granted d n ((Controller.granted_merge h.shaped.claims hm observer d n).1 hg).1

theorem Provenance.step (h : Provenance adj s) {a : Act} (hstep : s.step adj a = some s') :
    Provenance adj s' := by
  cases a with
  | beginFrame => exact h.beginFrame hstep
  | openSlot => exact h.openSlot hstep
  | choose slot => exact h.choose hstep
  | reserve m node => exact h.reserve hstep
  | hand place observer => exact h.hand hstep

theorem Provenance.run {rule : Exchange → Act → Bool} {config : Config} {c : Controller}
    (ha : config.Accepted) (hc : Controller.ofConfig config = .ok c) {acts : List Act}
    (hrun : run adj rule acts (Exchange.start c) = some s) : Provenance adj s :=
  Acts.run_induction (fun _ _ _ _ h hstep => h.step (stepBy_eq_some.1 hstep).2) (.start ha hc) hrun

/-- However messages are ordered, lost or doubled: behind every claim that a node knows of there is a
choice of its owner, in the frame that the generation stands for, and the owner is as many hops away
as the priority says or fewer. A node that may send in the data slot that runs chose it in this frame
and in the one before. -/
theorem claims_are_choices {config : Config} {c : Controller} (ha : config.Accepted)
    (hc : Controller.ofConfig config = .ok c) {acts : List Act}
    (hrun : run adj anyhow acts (Exchange.start c) = some s) :
    (∀ g n d claim, s.controller.claims.get g n d = some claim → claim.isClaimed = true →
      ⟨s.frameOf g, claim.owner, d⟩ ∈ s.history ∧ WithinHops adj claim.priority claim.owner n) ∧
    ∀ d n, s.slot = some (s.controller.nodeCount + d) →
      n ∈ s.controller.entitled (s.controller.nodeCount + d) →
      ∃ f, s.controller.frameIndex = f + 1 ∧ ⟨f + 1, n, d⟩ ∈ s.history ∧ ⟨f, n, d⟩ ∈ s.history := by
  have h := Provenance.run ha hc hrun
  refine ⟨fun g n d claim hx => h.claims g n d claim hx, fun d n hs hg => ?_⟩
  have hpos := h.begun (by rw [hs]; rfl)
  obtain ⟨f, hf⟩ : ∃ f, s.controller.frameIndex = f + 1 := ⟨_, (Nat.sub_add_cancel hpos).symm⟩
  obtain ⟨h1, h2⟩ := h.granted d n hg
  rw [hf, Nat.add_sub_cancel] at h2
  rw [hf] at h1
  exact ⟨f, hf, h1, h2⟩

/-- Two frames in a row of four nodes: node 0 reserves, and in the second frame its claim is relayed
by node 1. One of the messages arrives twice, others are lost. -/
def relayed (m : Medium) : List Act :=
  [.beginFrame, .choose 0, .reserve m 0, .hand 0 1, .hand 0 1,
    .openSlot, .openSlot, .openSlot, .openSlot,
    .beginFrame, .choose 0, .reserve m 0, .hand 0 1, .reserve m 1, .hand 1 2,
    .openSlot, .openSlot, .openSlot, .openSlot]

theorem run_relayed :
    (run nextTo anyhow (relayed silence) (Exchange.start fourNodes)).map
      (fun s => (s.slot, s.controller.nodeCount, s.controller.frameIndex,
        s.controller.claims.get .previous 2 0, s.controller.entitled 4))
      = some (some 4, 4, 2, some ⟨2, 0⟩, [0]) := by decide +kernel

theorem claims_are_choices_relayed :
    ∃ s, run nextTo anyhow (relayed silence) (Exchange.start fourNodes) = some s ∧
      s.controller.claims.get .previous 2 0 = some ⟨2, 0⟩ ∧ WithinHops nextTo 2 0 2 ∧
      s.controller.entitled 4 = [0] ∧ ⟨2, 0, 0⟩ ∈ s.history ∧ ⟨1, 0, 0⟩ ∈ s.history := by
  obtain ⟨s, hs, hv⟩ := Option.map_eq_some_iff.1 run_relayed
  simp only [Prod.mk.injEq] at hv
  obtain ⟨hslot, hnodes, hframe, hget, hgrant⟩ := hv
  obtain ⟨hclaims, hgrants⟩ := claims_are_choices Config.accepted_row ofConfig_row hs
  obtain ⟨f, hf, h1, h2⟩ := hgrants 0 0 (by rw [hslot, hnodes]) (by rw [hnodes, hgrant]; simp)
  obtain rfl : f = 1 := by omega
  exact ⟨s, hs, hget, (hclaims _ _ _ _ hget rfl).2, hgrant, h1, h2⟩

end SlotNet.Exchange
