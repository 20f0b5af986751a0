/-!
# Acts one after the other

The runs of the proofs are lists of acts, each of which may be possible or not in the state that the acts
before it lead to. `run_induction` is the induction over such a list.
-/

namespace SlotNet.Acts

variable {S A : Type}

/-- The state after some acts, if each is possible in its turn. -/
def run (step : S → A → Option S) (acts : List A) (s : S) : Option S := acts.foldlM step s

variable {step : S → A → Option S} {a : A} {acts : List A} {s s' : S}

theorem run_cons : run step (a :: acts) s = (step s a).bind (run step acts) := List.foldlM_cons

theorem run_cons_eq_some : run step (a :: acts) s = some s' ↔
    ∃ t, step s a = some t ∧ run step acts t = some s' := by
  rw [run_cons, Option.bind_eq_some_iff]

theorem run_append (more : List A) :
    run step (acts ++ more) s = (run step acts s).bind (run step more) := List.foldlM_append

/-- What every act of a run keeps holds after the run. -/
theorem run_induction {P : S → Prop} (hstep : ∀ s, ∀ a ∈ acts, ∀ s', P s → step s a = some s' → P s')
    (h0 : P s) (h : run step acts s = some s') : P s' := by
  induction acts generalizing s with
  | nil =>
    cases h
    exact h0
  | cons a acts ih =>
    obtain ⟨t, ht, h⟩ := run_cons_eq_some.1 h
    exact ih (fun s a ha => hstep s a (.tail _ ha)) (hstep s a (.head _) t h0 ht) h

/-- A system that can follow another one act by act can follow its runs. -/
theorem exists_run_of_run {T : Type} {follow : T → A → Option T} {view : T → S} {t : T}
    (hstep : ∀ t a s', step (view t) a = some s' → ∃ t', follow t a = some t' ∧ view t' = s')
    (h : run step acts (view t) = some s') : ∃ t', run follow acts t = some t' ∧ view t' = s' := by
  induction acts generalizing t with
  | nil =>
    cases h
    exact ⟨t, rfl, rfl⟩
  | cons a acts ih =>
    obtain ⟨next, hnext, h⟩ := run_cons_eq_some.1 h
    obtain ⟨t₁, ht₁, rfl⟩ := hstep t a next hnext
    obtain ⟨t', ht', hview⟩ := ih h
    exact ⟨t', run_cons_eq_some.2 ⟨t₁, ht₁, ht'⟩, hview⟩

theorem run_mono {more : S → A → Option S} (hstep : ∀ s a s', step s a = some s' → more s a = some s')
    (h : run step acts s = some s') : run more acts s = some s' := by
  have hrun : ∃ t, run more acts s = some t ∧ t = s' :=
    exists_run_of_run (fun s a s' hs => ⟨s', hstep s a s' hs, rfl⟩) h
  obtain ⟨t, ht, rfl⟩ := hrun
  exact ht

end SlotNet.Acts
