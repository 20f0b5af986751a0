import SlotNet.Proofs.Legible
import SlotNet.Proofs.SlotUse

/-!
# The environment goes round

The environment counts its steps, and the controller counts slots; `InTurn` keeps the two together. At
the beginning of a control slot no step waits from before; one is scheduled, and it is handed out before
time goes on. So the step with number `i` falls on the control slot `Config.turnSlot c i`
(`steps_in_turn`), and it is the turn of node `i % c.nodeCount`.
-/

namespace SlotNet

variable {σ : Type}

/-! ## Control slots -/

namespace Config

variable (c : Config)

/-- The number in the run of the control slot for the step with a number: each frame has one for each
node. -/
def turnSlot (i : Nat) : Nat := i / c.nodeCount * c.frame.slots c.nodeCount + i % c.nodeCount

/-- How many of the first slots are control slots. -/
def controlsBefore (k : Nat) : Nat :=
  k / c.frame.slots c.nodeCount * c.nodeCount + min (k % c.frame.slots c.nodeCount) c.nodeCount

variable {c}

theorem nodeCount_le_slots : c.nodeCount ≤ c.frame.slots c.nodeCount := Nat.le_add_right _ _

theorem Accepted.turnSlot_div_mod (hc : c.Accepted) (i : Nat) :
    c.turnSlot i / c.frame.slots c.nodeCount = i / c.nodeCount ∧
      c.turnSlot i % c.frame.slots c.nodeCount = i % c.nodeCount := by
  refine (Nat.div_mod_unique hc.slots_pos).2 ⟨?_, ?_⟩
  · rw [turnSlot, Nat.mul_comm, Nat.add_comm]
  · exact Nat.lt_of_lt_of_le (Nat.mod_lt _ hc.nodeCount.1) nodeCount_le_slots

theorem Accepted.isControl_turnSlot (hc : c.Accepted) (i : Nat) : c.IsControl (c.turnSlot i) := by
  rw [IsControl, (hc.turnSlot_div_mod i).2]
  exact Nat.mod_lt _ hc.nodeCount.1

theorem Accepted.slotBegin_turnSlot (hc : c.Accepted) (i : Nat) : c.slotBegin (c.turnSlot i) =
    c.frame.slotStart c.nodeCount (i / c.nodeCount) (i % c.nodeCount) := by
  obtain ⟨hdiv, hmod⟩ := hc.turnSlot_div_mod i
  rw [slotBegin, FrameLayout.startOf, hdiv, hmod]

theorem Accepted.controlsBefore_succ (hc : c.Accepted) (k : Nat) :
    c.controlsBefore (k + 1) = c.controlsBefore k + if c.IsControl k then 1 else 0 := by
  have hle : c.nodeCount ≤ c.frame.slots c.nodeCount := nodeCount_le_slots
  have hcount : ((if c.IsControl k then 1 else 0) = 1 ∧
        k % c.frame.slots c.nodeCount < c.nodeCount) ∨
      ((if c.IsControl k then 1 else 0) = 0 ∧ c.nodeCount ≤ k % c.frame.slots c.nodeCount) := by
    by_cases hk : c.IsControl k
    · exact .inl ⟨if_pos hk, hk⟩
    · exact .inr ⟨if_neg hk, Nat.le_of_not_lt hk⟩
  unfold controlsBefore
  rcases FrameLayout.succ_slot hc.slots_pos k with ⟨hlast, hslot, hframe⟩ | ⟨-, hslot, hframe⟩
  · rw [hslot, hframe, Nat.succ_mul]
    omega
  · rw [hslot, hframe]
    omega

theorem Accepted.controlsBefore_mono (hc : c.Accepted) : Monotone c.controlsBefore :=
  monotone_nat_of_le_succ fun k => by
    rw [hc.controlsBefore_succ]
    exact Nat.le_add_right _ _

theorem Accepted.controlsBefore_turnSlot (hc : c.Accepted) (i : Nat) :
    c.controlsBefore (c.turnSlot i) = i := by
  obtain ⟨hdiv, hmod⟩ := hc.turnSlot_div_mod i
  rw [controlsBefore, hdiv, hmod, Nat.min_eq_left (Nat.le_of_lt (Nat.mod_lt _ hc.nodeCount.1)),
    Nat.mul_comm]
  exact Nat.div_add_mod i c.nodeCount

theorem Accepted.turnSlot_lt_iff (hc : c.Accepted) {i k : Nat} :
    c.turnSlot i < k ↔ i < c.controlsBefore k := by
  constructor
  · intro hlt
    have hmono := hc.controlsBefore_mono (Nat.succ_le_of_lt hlt)
    rwa [Nat.succ_eq_add_one, hc.controlsBefore_succ, if_pos (hc.isControl_turnSlot i),
      hc.controlsBefore_turnSlot] at hmono
  · intro hlt
    by_contra hle
    have hmono := hc.controlsBefore_mono (Nat.le_of_not_lt hle)
    rw [hc.controlsBefore_turnSlot] at hmono
    exact absurd hlt (Nat.not_lt_of_le hmono)

theorem Accepted.turnSlot_controlsBefore (hc : c.Accepted) {k : Nat} (hk : c.IsControl k) :
    c.turnSlot (c.controlsBefore k) = k := by
  have hbefore : ¬ c.turnSlot (c.controlsBefore k) < k := fun hlt =>
    Nat.lt_irrefl _ (hc.turnSlot_lt_iff.1 hlt)
  have hafter : c.turnSlot (c.controlsBefore k) < k + 1 := by
    rw [hc.turnSlot_lt_iff, hc.controlsBefore_succ, if_pos hk]
    exact Nat.lt_succ_self _
  omega

end Config

/-! ## Steps -/

def Event.isStep : Event → Bool
  | .envStep => true
  | _ => false

theorem Event.isStep_iff {e : Event} : e.isStep = true ↔ e = .envStep := by
  cases e <;> simp [isStep]

theorem Event.not_delivery_of_isStep (e : Event) (h : e.isStep = true) : e.isDelivery = false := by
  rw [Event.isStep_iff.1 h]
  rfl

namespace Watch

/-- The steps of the environment that were handed out, in order. -/
def steps (w : Watch σ) : List (Entry Event) := w.handed.filter (·.event.isStep)

/-- The environment has counted the steps up to the end of the run, each with its reservation. -/
structure Tallied (c : Config) (w : Watch σ) : Prop where
  taken : ∀ i e, w.steps[i]? = some e →
    (i < w.simulation.environment.counter ↔ e.time ≤ c.duration)
  counter_le : w.simulation.environment.counter ≤ w.steps.length
  envSteps : w.medium.stats.envSteps = w.simulation.environment.counter
  reservationMessages :
    w.medium.stats.reservationMessages = w.simulation.environment.counter
  reservations : w.reservations = (List.range w.simulation.environment.counter).map
    fun i => (i % c.nodeCount, c.turnSlot i)

/-- What holds between two events: there was a step for every control slot, or the one for the control
slot that has just begun waits. -/
structure InTurn (c : Config) (w : Watch σ) : Prop where
  regular : w.Regular c
  awaited : (w.medium.Lacks Event.isStep ∧ w.steps.length = c.controlsBefore w.slots) ∨
    ∃ q, w.slots = q + 1 ∧ c.IsControl q ∧ w.steps.length = c.controlsBefore q ∧
      w.medium.Alone Event.isStep (c.slotBegin q) .envStep
  times : ∀ i e, w.steps[i]? = some e → e.time = c.slotBegin (c.turnSlot i)
  tallied : w.Tallied c
  sorted : w.handed.Pairwise fun x y => x.time ≤ y.time
  past : ∀ x ∈ w.handed, x.time ≤ w.medium.now

variable {c : Config} {w w' : Watch σ} {e : Entry Event} {s : Simulation σ}

namespace Handles

theorem steps_eq (h : w.Handles e s w') :
    w'.steps = w.steps ++ if e.event.isStep then [e] else [] := by
  rw [steps, h.handed_eq, List.filter_append]
  cases hstep : e.event.isStep <;> simp [hstep, steps]

theorem steps_same (h : w.Handles e s w') (hne : e.event ≠ .envStep) : w'.steps = w.steps := by
  rw [h.steps_eq, if_neg (fun hstep => hne (Event.isStep_iff.1 hstep)), List.append_nil]

end Handles

/-! ## An event is handled -/

theorem InTurn.time_le (hw : w.InTurn c) (h : w.Handles e s w') : ∀ x ∈ w.handed, x.time ≤ e.time :=
  fun x hx => (hw.past x hx).trans (hw.regular.onTime.traced.ordered.now_le e h.mem)

theorem InTurn.sorted_of_handles (hw : w.InTurn c) (h : w.Handles e s w') :
    w'.handed.Pairwise fun x y => x.time ≤ y.time := by
  rw [h.handed_eq, List.pairwise_append]
  refine ⟨hw.sorted, List.pairwise_singleton _ _, fun x hx y hy => ?_⟩
  rw [List.mem_singleton.1 hy]
  exact hw.time_le h x hx

theorem InTurn.past_of_handles (hc : c.Accepted) (hw : w.InTurn c) (h : w.Handles e s w') :
    ∀ x ∈ w'.handed, x.time ≤ w'.medium.now := by
  have hnow : w'.medium.now = e.time := hw.regular.now_of_handles hc h
  intro x hx
  rw [hnow]
  rw [h.handed_eq] at hx
  rcases List.mem_append.1 hx with hx | hx
  · exact hw.time_le h x hx
  · rw [List.mem_singleton.1 hx]

theorem Tallied.serves (hw : w.Tallied c) (h : w.Handles e s w') (hne : e.event ≠ .envStep)
    {network : Network} {handled : Handled}
    (hserves : s.Serves e.event network handled w'.simulation) : w'.Tallied c := by
  obtain ⟨-, hreservations, hsteps, -⟩ := hserves.counts
  have hsame : w'.simulation.environment = w.simulation.environment :=
    hserves.environment.trans h.environment
  have hstats : s.network.medium.stats = w.medium.stats := by rw [h.medium]
  rw [hstats] at hreservations hsteps
  have hlog : w'.reservations = w.reservations := by
    rw [h.reservations_eq, hstats, if_neg, List.append_nil]
    exact Nat.not_lt_of_le (Nat.le_of_eq hreservations)
  refine ⟨?taken, ?counter_le, ?envSteps, ?reservationMessages, ?reservations⟩
  case taken =>
    rw [h.steps_same hne, hsame]
    exact hw.taken
  case counter_le =>
    rw [h.steps_same hne, hsame]
    exact hw.counter_le
  case envSteps =>
    rw [hsame]
    exact hsteps.trans hw.envSteps
  case reservationMessages =>
    rw [hsame]
    exact hreservations.trans hw.reservationMessages
  case reservations =>
    rw [hsame, hlog]
    exact hw.reservations

theorem InTurn.begins (hc : c.Accepted) (hw : w.InTurn c) (h : w.Handles e s w')
    (hcadence : e.event.isCadence = true) : w'.InTurn c := by
  obtain ⟨htime, -, -, hslots, hopens⟩ := hw.regular.onTime.opens hc h hcadence
  have hne : e.event ≠ .envStep := by
    intro heq
    rw [heq] at hcadence
    cases hcadence
  -- a step that waited for the slot before would come first
  have hbefore : w.medium.Lacks Event.isStep ∧ w.steps.length = c.controlsBefore w.slots := by
    rcases hw.awaited with hnone | ⟨q, hq, -, -, id, halone⟩
    · exact hnone
    · obtain ⟨hmem, -⟩ := (halone _).2 rfl
      have hlt : c.slotBegin q < e.time := by
        rw [htime]
        exact hc.slotBegin_strictMono (hq ▸ Nat.lt_succ_self q)
      cases h.marked _ hmem (Prod.Lex.toLex_lt_toLex.2 (.inl hlt))
  obtain ⟨hlacks, hlength⟩ := hbefore
  have hnone : s.network.medium.Lacks Event.isStep := fun x hx => hlacks x ((h.rest x).1 hx).1
  obtain ⟨m, m₁, delay, next, hfollowing, hleads, hschedule, hrest⟩ :=
    hopens.leads (h.traced hw.regular.onTime.traced)
  obtain ⟨-, rfl⟩ := FrameLayout.following_eq hopens.staffed.shaped
    (hopens.layout.trans (h.layout hw.regular.onTime))
    (hopens.nodeCount.trans (h.nodeCount hw.regular.onTime)) hc.slots_pos hfollowing
  have hlacks₁ : m₁.Lacks Event.isStep := by
    intro x hx
    rcases (Medium.mem_schedule hschedule).1 hx with rfl | hx
    · cases (w.slots + 1) % c.frame.slots c.nodeCount <;> rfl
    · refine hnone.leads hleads Event.not_delivery_of_isStep (fun t x hplan => ?_) x hx
      obtain ⟨-, node, -, -, rfl⟩ := hplan
      rfl
  have hnow : m₁.now = c.slotBegin w.slots := by
    rw [Medium.schedule_ok hschedule]
    exact hleads.now.trans (h.now.trans htime)
  rcases hw.regular.cases hc h with ⟨-, network, handled, hserves⟩ | ⟨heq, -⟩ | ⟨heq, -⟩
  · refine ⟨hw.regular.handles hc h, ?_, ?_, hw.tallied.serves h hne hserves,
      hw.sorted_of_handles h, hw.past_of_handles hc h⟩
    · rw [h.nodeCount hw.regular.onTime] at hrest
      rw [h.steps_same hne, hslots]
      rcases hrest with ⟨hcontrol, henv⟩ | ⟨hdata, hdone⟩
      · have halone := hlacks₁.schedule rfl henv
        rw [hnow] at halone
        exact .inr ⟨w.slots, rfl, hcontrol, hlength, halone⟩
      · refine .inl ⟨?_, ?_⟩
        · rw [show w'.medium = m₁ from hdone]
          exact hlacks₁
        · have hcontrol : ¬ c.IsControl w.slots := Nat.not_lt_of_le hdata
          rw [hlength, hc.controlsBefore_succ, if_neg hcontrol, Nat.add_zero]
    · rw [h.steps_same hne]
      exact hw.times
  · exact absurd heq hne
  · exact absurd heq hne

theorem InTurn.due (hc : c.Accepted) (hw : w.InTurn c) (h : w.Handles e s w')
    (heq : e.event = .envStep) :
    ∃ q, w.slots = q + 1 ∧ c.IsControl q ∧ w.steps.length = c.controlsBefore q ∧
      c.turnSlot w.steps.length = q ∧ e.time = c.slotBegin q ∧
      s.network.medium.Lacks Event.isStep := by
  have hstep := Event.isStep_iff.2 heq
  rcases hw.awaited with ⟨hlacks, -⟩ | ⟨q, hq, hcontrol, hlength, halone⟩
  · rw [hlacks e h.mem] at hstep
    cases hstep
  · obtain ⟨htime, -, hnone⟩ := h.lacks_behind halone hstep
    exact ⟨q, hq, hcontrol, hlength, hlength ▸ hc.turnSlot_controlsBefore hcontrol, htime, hnone⟩

/-- Up to the end of the run every step was counted, so the environment is at the node whose turn it
is. -/
theorem InTurn.counter_eq (hc : c.Accepted) (hw : w.InTurn c) (h : w.Handles e s w')
    (hle : e.time ≤ c.duration) :
    w.simulation.environment.counter = w.steps.length ∧
      s.environment.currentNode = w.steps.length % c.nodeCount := by
  have hcounter : w.simulation.environment.counter = w.steps.length := by
    refine Nat.le_antisymm hw.tallied.counter_le (Nat.le_of_not_lt fun hlt => ?_)
    have hmem : w.steps[w.simulation.environment.counter] ∈ w.handed :=
      (List.mem_filter.1 (List.getElem_mem hlt)).1
    have htaken := hw.tallied.taken _ _ (List.getElem?_eq_getElem hlt)
    exact Nat.lt_irrefl _ (htaken.2 ((hw.time_le h _ hmem).trans hle))
  refine ⟨hcounter, ?_⟩
  rw [h.environment, Environment.currentNode, hw.regular.nodeCount,
    if_neg (Nat.ne_of_gt hc.nodeCount.1), hcounter]

theorem Handles.steps_of_step (h : w.Handles e s w') (heq : e.event = .envStep) :
    w'.steps = w.steps ++ [e] := by
  rw [h.steps_eq, if_pos (Event.isStep_iff.2 heq)]

theorem Handles.steps_cases (h : w.Handles e s w') (heq : e.event = .envStep) {i : Nat}
    {x : Entry Event} (hx : w'.steps[i]? = some x) :
    w.steps[i]? = some x ∨ (i = w.steps.length ∧ x = e) := by
  rw [h.steps_of_step heq, List.getElem?_append] at hx
  split at hx
  · exact .inl hx
  · rename_i hi
    rw [List.getElem?_singleton] at hx
    split at hx
    · exact .inr ⟨by omega, (Option.some.inj hx).symm⟩
    · cases hx

/-- After the end of the run a step is not counted. -/
theorem InTurn.tallied_of_late (hw : w.InTurn c) (h : w.Handles e s w') (heq : e.event = .envStep)
    (hlate : c.duration < e.time) (hstats : w'.medium.stats = w.medium.stats)
    (henvironment : w'.simulation.environment = w.simulation.environment) : w'.Tallied c := by
  refine ⟨fun i x hx => ?taken, ?counter_le, ?envSteps, ?reservationMessages, ?reservations⟩
  case taken =>
    rw [henvironment]
    rcases h.steps_cases heq hx with hx | ⟨rfl, rfl⟩
    · exact hw.tallied.taken i x hx
    · exact iff_of_false (Nat.not_lt_of_le hw.tallied.counter_le) (Nat.not_le_of_lt hlate)
  case counter_le =>
    rw [henvironment, h.steps_of_step heq, List.length_append]
    exact Nat.le_trans hw.tallied.counter_le (Nat.le_add_right _ _)
  case envSteps =>
    rw [henvironment, hstats]
    exact hw.tallied.envSteps
  case reservationMessages =>
    rw [henvironment, hstats]
    exact hw.tallied.reservationMessages
  case reservations =>
    have hsame : s.network.medium.stats = w.medium.stats := by rw [h.medium]
    rw [henvironment, h.reservations_eq, hsame, hstats, if_neg (Nat.lt_irrefl _), List.append_nil]
    exact hw.tallied.reservations

/-- A turn is counted, with the reservation of the node whose turn it is. -/
theorem InTurn.tallied_of_turn (hc : c.Accepted) (hw : w.InTurn c) (h : w.Handles e s w')
    (heq : e.event = .envStep) (hle : e.time ≤ c.duration)
    (hturn : s.Turn s.environment.currentNode w'.simulation) : w'.Tallied c := by
  obtain ⟨q, hq, -, -, hslot, -, -⟩ := hw.due hc h heq
  obtain ⟨hcounter, hnode⟩ := hw.counter_eq hc h hle
  have hsteps := h.steps_of_step heq
  have hslots := h.slots_eq (by rw [heq]; rfl)
  have hstats : s.network.medium.stats = w.medium.stats := by rw [h.medium]
  obtain ⟨c₁, message, -, hsays⟩ := hturn.says (h.staffed hw.regular.onTime.staffed)
  have hduties := hsays.counts.2.1
  rw [hstats] at hduties
  simp only [Stats.duties, Prod.mk.injEq] at hduties
  obtain ⟨hreservations, -, henvSteps⟩ := hduties
  replace hreservations :
      w'.medium.stats.reservationMessages = w.medium.stats.reservationMessages + 1 := hreservations
  replace henvSteps : w'.medium.stats.envSteps = w.medium.stats.envSteps + 1 := henvSteps
  have hnext : w'.simulation.environment.counter = w.steps.length + 1 := by
    rw [hturn.environment, h.environment, Environment.advance, hcounter]
  refine ⟨fun i x hx => ?taken, ?counter_le, ?envSteps, ?reservationMessages, ?reservations⟩
  case taken =>
    have hi : i < w.steps.length + 1 := by
      have hlt := (List.getElem?_eq_some_iff.1 hx).1
      rwa [hsteps, List.length_append] at hlt
    rw [hnext]
    refine iff_of_true hi ?_
    rcases h.steps_cases heq hx with hx | ⟨rfl, rfl⟩
    · exact (hw.time_le h x (List.mem_filter.1 (List.mem_of_getElem? hx)).1).trans hle
    · exact hle
  case counter_le =>
    rw [hnext, hsteps, List.length_append]
    exact Nat.le_refl _
  case envSteps => rw [henvSteps, hnext, hw.tallied.envSteps, hcounter]
  case reservationMessages => rw [hreservations, hnext, hw.tallied.reservationMessages, hcounter]
  case reservations =>
    rw [h.reservations_eq, hstats, hreservations, if_pos (Nat.lt_succ_self _), hnode, hslots, hq,
      Nat.add_sub_cancel, hnext, List.range_succ, List.map_append, hw.tallied.reservations,
      hcounter, List.map_singleton, hslot]

theorem InTurn.step_due (hc : c.Accepted) (hw : w.InTurn c) (h : w.Handles e s w')
    (heq : e.event = .envStep) : w'.InTurn c := by
  obtain ⟨q, hq, hcontrol, hlength, hslot, htime, hnone⟩ := hw.due hc h heq
  have hon := hw.regular.onTime
  obtain ⟨-, -, hleads⟩ := Simulation.dispatch_passes (h.staffed hon.staffed) (h.traced hon.traced)
    (hon.traced.sane e h.mem) (by rw [heq]; rfl) h.dispatch
  refine ⟨hw.regular.handles hc h, .inl ⟨?lacks, ?begun⟩, fun i x hx => ?times, ?tallied,
    hw.sorted_of_handles h, hw.past_of_handles hc h⟩
  case lacks =>
    refine hnone.leads hleads Event.not_delivery_of_isStep fun t x hplan => ?_
    cases x <;> first | rfl | cases hplan
  case begun =>
    rw [h.steps_of_step heq, List.length_append, h.slots_eq (by rw [heq]; rfl), hq,
      hc.controlsBefore_succ, if_pos hcontrol, hlength]
    rfl
  case times =>
    rcases h.steps_cases heq hx with hx | ⟨rfl, rfl⟩
    · exact hw.times i x hx
    · rw [htime, hslot]
  case tallied =>
    rcases hw.regular.cases hc h with ⟨hne, -⟩ | ⟨-, hlate, hdone⟩ | ⟨-, hle, hturn⟩
    · exact absurd heq hne
    · refine hw.tallied_of_late h heq hlate ?_ ?_
      · have hsame : s.network.medium.stats = w.medium.stats := by rw [h.medium]
        rw [medium, network, hdone, ← hsame]
      · rw [hdone, ← h.environment]
    · exact hw.tallied_of_turn hc h heq hle hturn

theorem InTurn.passes (hc : c.Accepted) (hw : w.InTurn c) (h : w.Handles e s w')
    (hp : e.event.isCadence = false) (hne : e.event ≠ .envStep) : w'.InTurn c := by
  have hslots := h.slots_eq hp
  have hslot : e.event.slot? = none := by
    rwa [Event.isCadence, Option.isSome_eq_false_iff, Option.isNone_iff_eq_none] at hp
  have hon := hw.regular.onTime
  obtain ⟨-, -, hleads⟩ := Simulation.dispatch_passes (h.staffed hon.staffed) (h.traced hon.traced)
    (hon.traced.sane e h.mem) hslot h.dispatch
  have hplans : ∀ t x, Simulation.Passing t x → x.isStep = false := fun t x hplan => by
    cases x <;> first | rfl | cases hplan
  have hother : e.event.isStep = false := Bool.eq_false_iff.2 fun hstep => hne (Event.isStep_iff.1 hstep)
  rcases hw.regular.cases hc h with ⟨-, network, handled, hserves⟩ | ⟨heq, -⟩ | ⟨heq, -⟩
  · refine ⟨hw.regular.handles hc h, ?_, ?_, hw.tallied.serves h hne hserves,
      hw.sorted_of_handles h, hw.past_of_handles hc h⟩
    · rw [h.steps_same hne, hslots]
      rcases hw.awaited with ⟨hlacks, hlength⟩ | ⟨q, hq, hcontrol, hlength, halone⟩
      · have hnone : s.network.medium.Lacks Event.isStep := fun x hx => hlacks x ((h.rest x).1 hx).1
        exact .inl ⟨hnone.leads hleads Event.not_delivery_of_isStep hplans, hlength⟩
      · have hbehind := h.alone_behind hon.traced.ordered halone hother
        exact .inr ⟨q, hq, hcontrol, hlength,
          hbehind.leads hleads Event.not_delivery_of_isStep hplans⟩
    · rw [h.steps_same hne]
      exact hw.times
  · exact absurd heq hne
  · exact absurd heq hne

/-! ## Runs -/

theorem InTurn.handles (hc : c.Accepted) (hw : w.InTurn c) (h : w.Handles e s w') : w'.InTurn c := by
  cases hcadence : e.event.isCadence with
  | true => exact hw.begins hc h hcadence
  | false =>
    by_cases heq : e.event = .envStep
    · exact hw.step_due hc h heq
    · exact hw.passes hc h hcadence heq

theorem InTurn.idles (hw : w.InTurn c) (h : w.Idles w') : w'.InTurn c := by
  have hleads := h.leads hw.regular.onTime.traced
  have hstats : w'.medium.stats = w.medium.stats := by rw [h.medium]
  have hrecords : w'.steps = w.steps ∧ w'.slots = w.slots ∧ w'.handed = w.handed ∧
      w'.reservations = w.reservations := by
    rw [h.same]
    exact ⟨rfl, rfl, rfl, rfl⟩
  obtain ⟨hsteps, hslots, hhanded, hreservations⟩ := hrecords
  have hplans : ∀ (_ : Time) x, (∃ node, x = Event.arrival node) → x.isStep = false := by
    rintro - x ⟨node, rfl⟩
    rfl
  refine ⟨hw.regular.idles h, ?_, hsteps ▸ hw.times, ⟨?_, ?_, ?_, ?_, ?_⟩, hhanded ▸ hw.sorted, ?_⟩
  · rw [hsteps, hslots]
    exact hw.awaited.imp
      (fun ⟨hlacks, hlength⟩ => ⟨hlacks.leads hleads Event.not_delivery_of_isStep hplans, hlength⟩)
      fun ⟨q, hq, hcontrol, hlength, halone⟩ =>
        ⟨q, hq, hcontrol, hlength, halone.leads hleads Event.not_delivery_of_isStep hplans⟩
  · rw [hsteps, h.environment]
    exact hw.tallied.taken
  · rw [hsteps, h.environment]
    exact hw.tallied.counter_le
  · rw [hstats, h.environment]
    exact hw.tallied.envSteps
  · rw [hstats, h.environment]
    exact hw.tallied.reservationMessages
  · rw [hreservations, h.environment]
    exact hw.tallied.reservations
  · rw [hhanded, hleads.now]
    exact hw.past

theorem InTurn.step (hc : c.Accepted) (hw : w.InTurn c) {a : Act} (h : w.step a = some w') :
    w'.InTurn c := by
  rcases step_cases hw.regular.onTime.traced.ordered h with ⟨e, s, hh⟩ | hi
  · exact hw.handles hc hh
  · exact hw.idles hi

theorem InTurn.run (hc : c.Accepted) {acts : List Act} (hw : w.InTurn c) (h : run acts w = some w') :
    w'.InTurn c := Acts.run_induction (fun _ _ _ _ hw hstep => hw.step hc hstep) hw h

theorem InTurn.start {agent : Agent σ} {agentState : σ} {s' : Simulation σ}
    (hnew : Simulation.new c agent agentState = .ok s) (h : s.begin = .ok s') :
    (start s').InTurn c := by
  have hn := Simulation.still_of_new hnew
  have hcounter : s'.environment.counter = 0 := by
    rw [Simulation.begin_environment h]
    obtain ⟨network, -, rfl⟩ := Fault.map_eq_ok.1 hnew
    rfl
  have hduties := (Simulation.begin_sent h).counted.duties
  rw [hn.stats] at hduties
  simp only [Stats.duties, Prod.mk.injEq] at hduties
  refine ⟨Regular.start hnew h, .inl ⟨?_, ?_⟩, fun i e he => ?_, ⟨fun i e he => ?_, ?_, ?_, ?_, ?_⟩,
    .nil, fun e he => absurd he List.not_mem_nil⟩
  · refine (Simulation.begin_schedules hn.started h).carries (P := fun x => x.isStep = false)
      (fun _ _ => False.elim) ?_ hn.traced.ordered ?_
    · rintro t x (rfl | ⟨node, rfl⟩) <;> rfl
    · rw [hn.events]
      exact fun x hx => absurd hx List.not_mem_nil
  · show 0 = c.controlsBefore 0
    rw [Config.controlsBefore, Nat.zero_div, Nat.zero_mod, Nat.zero_mul, Nat.zero_min]
  · cases he
  · cases he
  · exact Nat.le_of_eq hcounter
  · exact hduties.2.2.trans hcounter.symm
  · exact hduties.1.trans hcounter.symm
  · show [] = (List.range s'.environment.counter).map _
    rw [hcounter]
    rfl

theorem InTurn.taken_of_later (hc : c.Accepted) (hw : w.InTurn c) {i : Nat} {x : Entry Event}
    (hx : x ∈ w.handed) (hlater : c.slotBegin (c.turnSlot i) < x.time) : i < w.steps.length := by
  have hpast : c.slotBegin (c.turnSlot i) < w.medium.now := Nat.lt_of_lt_of_le hlater (hw.past x hx)
  have ho := hw.regular.onTime.traced.ordered
  by_contra hle
  rcases hw.awaited with ⟨-, hlength⟩ | ⟨q, -, hcontrol, hlength, id, halone⟩
  · -- the slot itself is still awaited
    have hslot : w.slots ≤ c.turnSlot i := by
      rw [← not_lt, hc.turnSlot_lt_iff, ← hlength]
      exact hle
    obtain ⟨id, hawaits⟩ := hw.regular.onTime.awaits
    have hwaits := ho.now_le _ ((hawaits _).2 rfl).1
    have hmono := hc.slotBegin_strictMono.monotone hslot
    exact absurd (Nat.lt_of_le_of_lt hmono hpast) (Nat.not_lt_of_le hwaits)
  · have hslot : q ≤ c.turnSlot i := by
      rw [← not_lt, hc.turnSlot_lt_iff, ← hlength]
      exact hle
    have hwaits := ho.now_le _ ((halone _).2 rfl).1
    have hmono := hc.slotBegin_strictMono.monotone hslot
    exact absurd (Nat.lt_of_le_of_lt hmono hpast) (Nat.not_lt_of_le hwaits)

theorem InTurn.begun_at (hc : c.Accepted) (hw : w.InTurn c) {i : Nat} {e : Entry Event}
    (he : w.steps[i]? = some e) : ∃ b, w.begun[c.turnSlot i]? = some b ∧
      b.event = Event.opening (i % c.nodeCount) ∧ b.time = e.time := by
  have hi := (List.getElem?_eq_some_iff.1 he).1
  have hlt : c.turnSlot i < w.begun.length := by
    refine hc.turnSlot_lt_iff.2 (Nat.lt_of_lt_of_le hi ?_)
    rcases hw.awaited with ⟨-, hlength⟩ | ⟨q, hq, -, hlength, -⟩
    · exact Nat.le_of_eq hlength
    · rw [hlength]
      exact hc.controlsBefore_mono (show q ≤ w.slots from hq ▸ Nat.le_succ q)
  obtain ⟨hevent, htime⟩ := hw.regular.onTime.begun _ _ (List.getElem?_eq_getElem hlt)
  rw [(hc.turnSlot_div_mod i).2] at hevent
  exact ⟨_, List.getElem?_eq_getElem hlt, hevent, htime.trans (hw.times i e he).symm⟩

theorem filter_turns (hc : c.Accepted) {frame node count : Nat} (hnode : node < c.nodeCount)
    (hcount : (frame + 1) * c.nodeCount ≤ count) :
    ((List.range count).map fun i => (i % c.nodeCount, c.turnSlot i)).filter
        (fun r => r.1 = node ∧ r.2 / c.frame.slots c.nodeCount = frame)
      = [(node, frame * c.frame.slots c.nodeCount + node)] := by
  have hturn : ∀ i, (i % c.nodeCount = node ∧
      c.turnSlot i / c.frame.slots c.nodeCount = frame) ↔ i = frame * c.nodeCount + node := by
    intro i
    rw [(hc.turnSlot_div_mod i).1]
    constructor
    · rintro ⟨rfl, rfl⟩
      rw [Nat.mul_comm]
      exact (Nat.div_add_mod i c.nodeCount).symm
    · intro hi
      have hdivmod := (Nat.div_mod_unique (a := i) (d := frame) (c := node) hc.nodeCount.1).2
        ⟨by rw [hi, Nat.mul_comm, Nat.add_comm], hnode⟩
      exact ⟨hdivmod.2, hdivmod.1⟩
  have hmem : frame * c.nodeCount + node ∈ List.range count := by
    rw [List.mem_range]
    rw [Nat.succ_mul] at hcount
    omega
  have hslot : c.turnSlot (frame * c.nodeCount + node)
      = frame * c.frame.slots c.nodeCount + node := by
    obtain ⟨hmod, hdiv⟩ := (hturn _).2 rfl
    rw [(hc.turnSlot_div_mod _).1] at hdiv
    rw [Config.turnSlot, hmod, hdiv]
  rw [List.filter_map]
  have hfilter : (List.range count).filter
      ((fun r : Nat × Nat => decide (r.1 = node ∧ r.2 / c.frame.slots c.nodeCount = frame)) ∘
        fun i => (i % c.nodeCount, c.turnSlot i)) = [frame * c.nodeCount + node] := by
    have hsame : ∀ i ∈ List.range count,
        ((fun r : Nat × Nat => decide (r.1 = node ∧ r.2 / c.frame.slots c.nodeCount = frame)) ∘
          fun i => (i % c.nodeCount, c.turnSlot i)) i = (i == frame * c.nodeCount + node) :=
      fun i _ => by
        rw [Bool.eq_iff_iff, Function.comp_apply, decide_eq_true_iff, beq_iff_eq]
        exact hturn i
    rw [List.filter_congr hsame, List.filter_beq, List.count_eq_one_of_mem List.nodup_range hmem]
    rfl
  rw [hfilter, List.map_singleton, hslot, ((hturn _).2 rfl).1]

/-- In every state of a run, whatever the agent answers and whenever packets arrive:

The step of the environment with number `i` is handed out at the very time at which control slot
`i % c.nodeCount` of frame `i / c.nodeCount` begins, which has begun then, and before any event of a
later time. Up to the end of the run it is the turn of that node: the agent is asked about what the node
sees, and there is one reservation, of that node. These steps are counted, and so are as many
reservations. In a frame whose last control slot is over, every node has broadcast one reservation, in
its own slot. -/
theorem steps_in_turn (hc : c.Accepted) {agent : Agent σ} {agentState : σ} {s s' : Simulation σ}
    (hnew : Simulation.new c agent agentState = .ok s) (hbegin : s.begin = .ok s') {acts : List Act}
    (hrun : run acts (start s') = some w) :
    (∀ i e, w.steps[i]? = some e →
      e.time = c.frame.slotStart c.nodeCount (i / c.nodeCount) (i % c.nodeCount) ∧
      (∃ b, w.begun[c.turnSlot i]? = some b ∧ b.event = Event.opening (i % c.nodeCount) ∧
        b.time = e.time) ∧
      (i < w.medium.stats.envSteps ↔ e.time ≤ c.duration)) ∧
    (w.handed.Pairwise fun x y => x.time ≤ y.time) ∧
    (∀ i, ∀ x ∈ w.handed,
      c.frame.slotStart c.nodeCount (i / c.nodeCount) (i % c.nodeCount) < x.time →
      i < w.steps.length) ∧
    (∀ e t w', w.Handles e t w' → e.event = .envStep → e.time ≤ c.duration →
      w.medium.stats.envSteps = w.steps.length ∧
      t.Turn (w.steps.length % c.nodeCount) w'.simulation) ∧
    w.medium.stats.envSteps = w.medium.stats.reservationMessages ∧
    w.medium.stats.envSteps ≤ w.steps.length ∧
    w.reservations.length = w.medium.stats.envSteps ∧
    ∀ frame, ∀ x ∈ w.handed, c.frame.slotStart c.nodeCount frame (c.nodeCount - 1) < x.time →
      c.frame.slotStart c.nodeCount frame (c.nodeCount - 1) ≤ c.duration → ∀ node < c.nodeCount,
        w.reservations.filter (fun r => r.1 = node ∧ r.2 / c.frame.slots c.nodeCount = frame)
          = [(node, frame * c.frame.slots c.nodeCount + node)] := by
  have hw := (InTurn.start hnew hbegin).run hc hrun
  have hcounted := hw.tallied.envSteps
  refine ⟨fun i e he => ⟨?_, hw.begun_at hc he, ?_⟩, hw.sorted, fun i x hx hlater => ?_,
    fun e t w' h heq hle => ?_, ?_, ?_, ?_, fun frame x hx hlater hle node hnode => ?_⟩
  · rw [← hc.slotBegin_turnSlot]
    exact hw.times i e he
  · rw [hcounted]
    exact hw.tallied.taken i e he
  · rw [← hc.slotBegin_turnSlot] at hlater
    exact hw.taken_of_later hc hx hlater
  · obtain ⟨hcounter, hnode⟩ := hw.counter_eq hc h hle
    refine ⟨hcounted.trans hcounter, ?_⟩
    rcases hw.regular.cases hc h with ⟨hne, -⟩ | ⟨-, hlate, -⟩ | ⟨-, -, hturn⟩
    · exact absurd heq hne
    · exact absurd hle (Nat.not_le_of_lt hlate)
    · rwa [hnode] at hturn
  · rw [hcounted, hw.tallied.reservationMessages]
  · rw [hcounted]
    exact hw.tallied.counter_le
  · rw [hw.tallied.reservations, List.length_map, List.length_range, hcounted]
  · -- the last step of the frame was taken in time, so all of them were
    have hpos := hc.nodeCount.1
    have hlast : frame * c.nodeCount + (c.nodeCount - 1) < w.steps.length ∧
        frame * c.nodeCount + (c.nodeCount - 1) < w.simulation.environment.counter := by
      have hdivmod := (Nat.div_mod_unique (a := frame * c.nodeCount + (c.nodeCount - 1)) (d := frame)
        (c := c.nodeCount - 1) hpos).2 ⟨by rw [Nat.mul_comm, Nat.add_comm], by omega⟩
      have hbegin := hc.slotBegin_turnSlot (frame * c.nodeCount + (c.nodeCount - 1))
      rw [hdivmod.1, hdivmod.2] at hbegin
      have hlt := hw.taken_of_later hc hx (hbegin.symm ▸ hlater)
      have he := List.getElem?_eq_getElem hlt
      refine ⟨hlt, (hw.tallied.taken _ _ he).2 ?_⟩
      rw [hw.times _ _ he, hbegin]
      exact hle
    rw [hw.tallied.reservations]
    refine filter_turns hc hnode ?_
    rw [Nat.succ_mul]
    omega

theorem run_rounds : ∃ s s',
    Simulation.new Config.pair (.forNodes [some [0], some []]) Script.silence = .ok s ∧
    s.begin = .ok s' ∧ (run Watch.twoPackets (start s')).map
      (fun w => (w.steps.length, w.handed.any (3200010 ≤ ·.time))) = some (4, true) :=
  ⟨_, _, rfl, rfl, by decide +kernel⟩

/-- Two nodes, after two frames: the last of four steps was the turn of node 1 in the second frame. -/
theorem steps_in_turn_pair : ∃ s s' w,
    Simulation.new Config.pair (.forNodes [some [0], some []]) Script.silence = .ok s ∧
    s.begin = .ok s' ∧ run Watch.twoPackets (start s') = some w ∧
    (∃ e, w.steps[3]? = some e ∧ e.time = 2700010 ∧
      ∃ b, w.begun[4]? = some b ∧ b.event = .runSlot 1 ∧ b.time = e.time) ∧
    w.medium.stats.envSteps = 4 ∧ w.medium.stats.reservationMessages = 4 ∧
    w.reservations.filter (fun r => r.1 = 1 ∧ r.2 / 3 = 1) = [(1, 4)] := by
  obtain ⟨s, s', hnew, hbegin, hrun⟩ := run_rounds
  obtain ⟨w, hw, hv⟩ := Option.map_eq_some_iff.1 hrun
  simp only [Prod.mk.injEq, List.any_eq_true, decide_eq_true_iff] at hv
  obtain ⟨hlength, x, hx, hlater⟩ := hv
  obtain ⟨hsteps, -, -, -, hsame, hle, -, hframes⟩ :=
    steps_in_turn Config.accepted_pair hnew hbegin hw
  have hlast := List.getElem?_eq_getElem (show 3 < w.steps.length by omega)
  obtain ⟨htime, hbegun, htaken⟩ := hsteps 3 _ hlast
  rw [show Config.pair.frame.slotStart Config.pair.nodeCount (3 / Config.pair.nodeCount)
    (3 % Config.pair.nodeCount) = 2700010 by decide +kernel] at htime
  have hduration : Config.pair.duration = 10000000000 := by decide +kernel
  have hcount : w.medium.stats.envSteps = 4 := by
    have hlt := htaken.2 (by rw [htime, hduration]; decide)
    omega
  refine ⟨s, s', w, hnew, hbegin, hw, ⟨_, hlast, htime, hbegun⟩, hcount, hsame ▸ hcount, ?_⟩
  have hstart : Config.pair.frame.slotStart Config.pair.nodeCount 1 (Config.pair.nodeCount - 1)
      = 2700010 := by decide +kernel
  refine hframes 1 x hx ?_ ?_ 1 (by decide)
  · rw [hstart]
    exact Nat.lt_of_lt_of_le (by decide) hlater
  · rw [hstart, hduration]
    decide

end Watch

end SlotNet
