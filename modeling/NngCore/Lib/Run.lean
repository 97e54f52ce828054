import Mathlib.Data.List.Induction

/-!
# Runs of a labelled step function

A system here is a partial function from a state and a label to the next
state. The label carries every choice the environment makes (which task moves,
how many bytes a call accepted, whether a timer fired), so a run is a list of
labels and executing it is deterministic; `none` says the label is not enabled.

The rules below are the ways a property of a step becomes a property of a
run. `run_induction` walks the run from its start and lets the property
mention the labels taken so far; `run_invariant` is the special case that
mentions the state alone, and `run_invariant_of_labels` the one for runs whose
labels are all of a kind; `run_simulation` follows two systems at once.
`EveryStep` and `EveryState` talk about the inside of a run: the first
restricts what the environment may do, the second asks for something in every
state the run passes through, and `everyState_of_everyStep` connects them.
-/

namespace NngCore.Lib

variable {σ α : Type}

/-- Execute the labels one after the other. -/
def run (step : σ → α → Option σ) : σ → List α → Option σ
  | s, [] => some s
  | s, a :: as =>
      match step s a with
      | none => none
      | some s' => run step s' as

/-- `P` holds of every step taken, read at the state it is taken from. -/
def EveryStep (step : σ → α → Option σ) (P : σ → α → Prop) : σ → List α → Prop
  | _, [] => True
  | s, a :: as =>
      P s a ∧ ∀ s', step s a = some s' → EveryStep step P s' as

/-- `Q` holds of every state passed through, the two ends included. -/
def EveryState (step : σ → α → Option σ) (Q : σ → Prop) : σ → List α → Prop
  | s, [] => Q s
  | s, a :: as =>
      Q s ∧ ∀ s', step s a = some s' → EveryState step Q s' as

section

variable {step : σ → α → Option σ}

instance EveryStep.decidable {P : σ → α → Prop} [∀ s a, Decidable (P s a)] :
    ∀ (s : σ) (as : List α), Decidable (EveryStep step P s as)
  | _, [] => isTrue trivial
  | s, a :: as =>
      have : Decidable (∀ s', step s a = some s' → EveryStep step P s' as) :=
        match h : step s a with
        | none => isTrue nofun
        | some s' =>
            match EveryStep.decidable s' as with
            | isTrue hs => isTrue fun _ ht => by cases ht; exact hs
            | isFalse hs => isFalse fun hall => hs (hall s' rfl)
      inferInstanceAs (Decidable (_ ∧ _))

@[simp] theorem run_nil (s : σ) : run step s [] = some s := rfl

theorem run_cons {s t : σ} {a : α} {as : List α} :
    run step s (a :: as) = some t ↔
      ∃ s', step s a = some s' ∧ run step s' as = some t := by
  rw [run]
  cases h : step s a with
  | none => simp
  | some s' => simp

theorem run_append {s t : σ} {as bs : List α} :
    run step s (as ++ bs) = some t ↔
      ∃ s', run step s as = some s' ∧ run step s' bs = some t := by
  induction as generalizing s with
  | nil => simp
  | cons a as ih =>
      simp only [List.cons_append, run_cons, ih]
      constructor
      · rintro ⟨s', hs, m, hm, ht⟩
        exact ⟨m, ⟨s', hs, hm⟩, ht⟩
      · rintro ⟨m, ⟨s', hs, hm⟩, ht⟩
        exact ⟨s', hs, m, hm, ht⟩

theorem run_singleton {s t : σ} {a : α} :
    run step s [a] = some t ↔ step s a = some t := by
  rw [run_cons]
  constructor
  · rintro ⟨s', hs, ht⟩
    rw [hs, ← ht]
    rfl
  · intro h
    exact ⟨t, h, rfl⟩

/-- What holds of every entry of a log holds of every entry of the longer one, if
it holds of the entry that is new. -/
theorem forall_mem_concat {P : α → Prop} {l : List α} {a : α} (h : ∀ x ∈ l, P x)
    (ha : P a) : ∀ x ∈ l ++ [a], P x :=
  List.forall_mem_append.mpr ⟨h, List.forall_mem_singleton.mpr ha⟩

/-- Induction along a run, from its start, with the labels taken so far. -/
theorem run_induction {I : List α → σ → Prop} {s t : σ} {as : List α}
    (hinit : I [] s)
    (hstep : ∀ bs u a v, I bs u → step u a = some v → I (bs ++ [a]) v)
    (hrun : run step s as = some t) : I as t := by
  induction as using List.reverseRecOn generalizing t with
  | nil => cases hrun; exact hinit
  | append_singleton as a ih =>
      obtain ⟨u, hu, ha⟩ := run_append.mp hrun
      exact hstep as u a t (ih hu) (run_singleton.mp ha)

/-- What every step preserves, every run preserves. -/
theorem run_invariant {I : σ → Prop} {s t : σ} {as : List α} (hinit : I s)
    (hstep : ∀ u a v, I u → step u a = some v → I v)
    (hrun : run step s as = some t) : I t :=
  run_induction (I := fun _ u => I u) hinit (fun _ u a v => hstep u a v) hrun

/-- What every step with an admitted label preserves, every run with none but
such labels preserves. -/
theorem run_invariant_of_labels {P : α → Prop} {I : σ → Prop} {s t : σ} {as : List α}
    (hinit : I s) (hstep : ∀ u a v, P a → I u → step u a = some v → I v)
    (hrun : run step s as = some t) (hall : ∀ a ∈ as, P a) : I t := by
  refine run_induction (I := fun bs u => (∀ a ∈ bs, P a) → I u) (fun _ => hinit) ?_ hrun hall
  intro bs u a v ih hva hbs
  have hlabels := List.forall_mem_append.mp hbs
  exact hstep u a v (hlabels.2 a List.mem_cons_self) (ih hlabels.1) hva

/-- A simulation along a run. A label of the first system is a label of the second
or, where `f` answers `none`, nothing the second sees. -/
theorem run_simulation {τ β : Type} {step' : τ → β → Option τ} {f : α → Option β}
    {R : σ → τ → Prop}
    (hstep : ∀ s t a s', R s t → step s a = some s' →
      match f a with
      | none => R s' t
      | some b => ∃ t', step' t b = some t' ∧ R s' t')
    {s s' : σ} {t : τ} {as : List α} (hinit : R s t) (hrun : run step s as = some s') :
    ∃ t', run step' t (as.filterMap f) = some t' ∧ R s' t' := by
  induction as generalizing s t with
  | nil => cases hrun; exact ⟨t, rfl, hinit⟩
  | cons a as ih =>
      obtain ⟨u, hu, hrest⟩ := run_cons.mp hrun
      have hnext := hstep s t a u hinit hu
      cases hf : f a with
      | none =>
          rw [hf] at hnext
          rw [List.filterMap_cons_none hf]
          exact ih hnext hrest
      | some b =>
          rw [hf] at hnext
          obtain ⟨v, hv, hR⟩ := hnext
          obtain ⟨t', ht', hR'⟩ := ih hR hrest
          rw [List.filterMap_cons_some hf]
          exact ⟨t', run_cons.mpr ⟨v, hv, ht'⟩, hR'⟩

theorem EveryState.here {Q : σ → Prop} {s : σ} {as : List α}
    (h : EveryState step Q s as) : Q s := by
  cases as with
  | nil => exact h
  | cons a as => exact h.1

/-- An invariant that admitted steps preserve holds in every state of every
run whose steps are all admitted. -/
theorem everyState_of_everyStep {P : σ → α → Prop} {I : σ → Prop}
    (hstep : ∀ u a v, I u → P u a → step u a = some v → I v) {s : σ} {as : List α}
    (hinit : I s) (hadm : EveryStep step P s as) : EveryState step I s as := by
  induction as generalizing s with
  | nil => exact hinit
  | cons a as ih =>
      refine ⟨hinit, fun s' hs => ?_⟩
      exact ih (hstep s a s' hinit hadm.1 hs) (hadm.2 s' hs)

theorem EveryState.imp {Q R : σ → Prop} (himp : ∀ s, Q s → R s) {s : σ}
    {as : List α} (h : EveryState step Q s as) : EveryState step R s as := by
  induction as generalizing s with
  | nil => exact himp s h
  | cons a as ih => exact ⟨himp s h.1, fun s' hs => ih (h.2 s' hs)⟩

/-- The state a run ends in is one of the states it passed through. -/
theorem EveryState.last {Q : σ → Prop} {s t : σ} {as : List α}
    (h : EveryState step Q s as) (hrun : run step s as = some t) : Q t := by
  induction as generalizing s with
  | nil => cases hrun; exact h
  | cons a as ih =>
      obtain ⟨s', hs, ht⟩ := run_cons.mp hrun
      exact ih (h.2 s' hs) ht

end

end NngCore.Lib
