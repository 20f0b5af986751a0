import SlotNet.Proofs.Turn

/-!
# What the network did

A diary keeps, for each event of a run, the network before and after it and what was done about it; from
that one reads off what the stations sent, which packets were made and which were delivered.
`step_cases` says which deed an act adds.
-/

namespace SlotNet

variable {σ : Type}

/-- An event that the network handled. -/
structure Deed where
  /-- The network when the event has been taken out of the queue. -/
  before : Network
  event : Event
  after : Network
  handled : Handled
  /-- The slot that runs, counted from the first one of the run. -/
  slot : Nat

/-- The network when the next event has been taken out of the queue. -/
def Watch.popped (w : Watch σ) : Network := w.network.setEvents w.medium.events.pop.2

/-- What the network will do with the next event. -/
def Watch.deed (w : Watch σ) : Option Deed := do
  let e ← w.medium.events.settle.entries.head?
  let (after, handled) ← (w.popped.handle e.event).toOption
  return {
    before := w.popped, event := e.event, after, handled
    slot := if e.event.isCadence then w.slots else w.slots - 1 }

/-- What the network will do in an act. -/
def Watch.deeds (w : Watch σ) : Watch.Act → List Deed
  | .next _ => w.deed.toList
  | _ => []

/-- A run, and what the network did in it. -/
structure Diary (σ : Type) where
  watch : Watch σ
  deeds : List Deed

namespace Diary

open Watch (Act)

def start (s : Simulation σ) : Diary σ := ⟨.start s, []⟩

def step (d : Diary σ) (a : Act) : Option (Diary σ) :=
  (d.watch.step a).map fun watch => ⟨watch, d.deeds ++ d.watch.deeds a⟩

def run : List Act → Diary σ → Option (Diary σ) := Acts.run step

def made (d : Diary σ) : List Packet := d.deeds.flatMap fun x => x.before.made x.event x.handled

def delivered (d : Diary σ) : List (Nat × Packet) :=
  d.deeds.flatMap fun x => Network.delivered x.event x.handled

variable {d d' : Diary σ}

/-! ## What an act adds -/

/-- The network does something about an event that is handed out. -/
structure Handles (d : Diary σ) (e : Entry Event) (s : Simulation σ) (x : Deed) (d' : Diary σ) :
    Prop where
  watch : d.watch.Handles e s d'.watch
  before : x.before = s.network
  event : x.event = e.event
  handle : s.network.handle e.event = .ok (x.after, x.handled)
  slot : x.slot = d'.watch.slots - 1
  deeds : d'.deeds = d.deeds ++ [x]

theorem deed_of_handles {w w' : Watch σ} {e : Entry Event} {s : Simulation σ} (h : w.Handles e s w') :
    ∃ after handled, s.network.handle e.event = .ok (after, handled) ∧
      w.deed = some ⟨s.network, e.event, after, handled, w'.slots - 1⟩ := by
  obtain ⟨network, handled, -, -, hhandle, -⟩ := Simulation.dispatch_cases h.dispatch
  have hbefore : w.popped = s.network := by
    rw [Watch.popped, h.popped, h.simulation]
    rfl
  have hslot : (if e.event.isCadence then w.slots else w.slots - 1) = w'.slots - 1 := by
    rw [Watch.slots, Watch.slots, h.begun_eq, List.length_append]
    split <;> rfl
  refine ⟨network, handled, hhandle, ?_⟩
  rw [Watch.deed, h.head, Option.bind_eq_bind, Option.bind_some, hbefore, hhandle, hslot]
  rfl

theorem handles_of_step (ho : d.watch.medium.events.Ordered) {limit : Time}
    (h : d.step (.next limit) = some d') : ∃ e s x, d.Handles e s x d' := by
  obtain ⟨watch, hstep, rfl⟩ := Option.map_eq_some_iff.1 h
  obtain ⟨e, s, hh⟩ := Watch.handles_of_step ho hstep
  obtain ⟨after, handled, hhandle, hdeed⟩ := deed_of_handles hh
  exact ⟨e, s, _, hh, rfl, rfl, hhandle, rfl,
    congrArg (fun deed : Option Deed => d.deeds ++ deed.toList) hdeed⟩

theorem step_cases (ho : d.watch.medium.events.Ordered) {a : Act} (h : d.step a = some d') :
    (∃ e s x, d.Handles e s x d') ∨ (d.watch.Idles d'.watch ∧ d'.deeds = d.deeds) := by
  cases a with
  | next limit => exact .inl (handles_of_step ho h)
  | change traffic =>
    cases h
    exact .inr ⟨⟨rfl, rfl, rfl, rfl, .refl _, rfl⟩, List.append_nil _⟩
  | arrival time node =>
    cases h
    exact .inr ⟨⟨rfl, rfl, rfl, rfl, .ofStep (.scheduleAt ⟨node, rfl⟩), rfl⟩, List.append_nil _⟩

variable {e : Entry Event} {s : Simulation σ} {x : Deed}

theorem Handles.made_eq (h : d.Handles e s x d') :
    d'.made = d.made ++ s.network.made e.event x.handled := by
  rw [made, h.deeds, List.flatMap_append, List.flatMap_singleton, h.before, h.event, made]

theorem Handles.delivered_eq (h : d.Handles e s x d') :
    d'.delivered = d.delivered ++ Network.delivered e.event x.handled := by
  rw [delivered, h.deeds, List.flatMap_append, List.flatMap_singleton, h.event, delivered]

theorem Handles.entries (h : d.Handles e s x d') : d.watch.entries =
    d.watch.network.skipped ++ e :: s.network.medium.events.entries := by
  have hsplit := d.watch.network.entries_eq_skipped_append
  obtain ⟨rest, hrest⟩ := List.head?_eq_some_iff.1 h.watch.head
  replace hrest : d.watch.network.medium.events.settle.entries = e :: rest := hrest
  have hpopped := h.watch.popped
  rw [EventQueue.pop, show d.watch.medium.events.settle.entries = e :: rest from hrest] at hpopped
  have hevents : s.network.medium.events.entries = rest :=
    congrArg EventQueue.entries (Prod.mk.inj hpopped).2.symm
  rw [hrest, ← hevents] at hsplit
  exact hsplit

theorem exists_run_of_watch {acts : List Act} {w : Watch σ} (h : Watch.run acts d.watch = some w) :
    ∃ d', run acts d = some d' ∧ d'.watch = w := by
  refine Acts.exists_run_of_run (fun d a w' hstep => ?_) h
  exact ⟨⟨w', d.deeds ++ d.watch.deeds a⟩, Option.map_eq_some_iff.2 ⟨w', hstep, rfl⟩, rfl⟩

theorem exists_run_of_runEvents {fuel : Nat} {s s' : Simulation σ}
    (h : Simulation.runEvents fuel s = .ok s') :
    ∃ acts d, (∀ a ∈ acts, ∃ limit, a = .next limit) ∧ run acts (start s) = some d ∧
      (s' = d.watch.simulation ∨
        (∃ limit network, d.watch.network.popUntil limit = (none, network)) ∧
          s' = d.watch.settle.simulation) := by
  obtain ⟨acts, w, hacts, hrun, hs⟩ := Watch.exists_run_of_runEvents h (w := .start s) rfl
  obtain ⟨d, hd, rfl⟩ := exists_run_of_watch (d := start s) hrun
  exact ⟨acts, d, hacts, hd, hs⟩

end Diary

end SlotNet
