import Mathlib.Data.List.DropRight
import NngCore.Lib.Run

/-!
# Sequences changed at both ends

The four things that are done to a sequence at its ends, on plain lists, and
when each of them can be done: nothing is taken off the front that is not
there, and nothing is put on that exceeds a limit. Taking off the back stops at
the empty list.

A system may hold several such sequences and change one of them with a step, or
none. `run_part` reads a run off one of them: it has gone through the
operations addressed to it and no others. `run_completes_iff` says when a
system of two of them gets to the end of a run.
-/

namespace NngCore.Lib

inductive DequeOp (α : Type) where
  | append (xs : List α)
  | prepend (xs : List α)
  | dropFront (n : Nat)
  | dropBack (n : Nat)
  deriving DecidableEq

namespace DequeOp

variable {α : Type}

def apply (xs : List α) : DequeOp α → List α
  | append ys => xs ++ ys
  | prepend ys => ys ++ xs
  | dropFront n => xs.drop n
  | dropBack n => xs.rdrop n

/-- The operation can be carried out on `xs`, with room for `max` elements. -/
def Fits (max : Nat) (xs : List α) : DequeOp α → Prop
  | append ys => xs.length + ys.length ≤ max
  | prepend ys => xs.length + ys.length ≤ max
  | dropFront n => n ≤ xs.length
  | dropBack _ => True

/-- The operations can be carried out one after the other. -/
def Admissible (max : Nat) : List α → List (DequeOp α) → Prop
  | _, [] => True
  | xs, op :: ops => op.Fits max xs ∧ Admissible max (op.apply xs) ops

/-- A step that may have nothing to do with this sequence. -/
def applyIf (xs : List α) : Option (DequeOp α) → List α
  | none => xs
  | some op => op.apply xs

def FitsIf (max : Nat) (xs : List α) : Option (DequeOp α) → Prop
  | none => True
  | some op => op.Fits max xs

end DequeOp

open DequeOp

variable {σ α β : Type} {max : Nat}

theorem foldl_filterMap_concat (op : β → Option (DequeOp α)) (bs : List β) (b : β)
    (xs : List α) :
    ((bs ++ [b]).filterMap op).foldl DequeOp.apply xs =
      applyIf ((bs.filterMap op).foldl DequeOp.apply xs) (op b) := by
  rw [List.filterMap_append, List.foldl_append]
  cases hop : op b with
  | none => rw [List.filterMap_cons_none hop]; rfl
  | some o => rw [List.filterMap_cons_some hop]; rfl

theorem admissible_filterMap_cons (op : β → Option (DequeOp α)) (b : β) (bs : List β)
    (xs : List α) :
    Admissible max xs ((b :: bs).filterMap op) ↔
      FitsIf max xs (op b) ∧ Admissible max (applyIf xs (op b)) (bs.filterMap op) := by
  cases hop : op b with
  | none => rw [List.filterMap_cons_none hop, FitsIf, applyIf, true_and]
  | some o => rw [List.filterMap_cons_some hop]; rfl

section

variable {step : σ → β → Option σ}

/-- What a run makes of one of the sequences. -/
theorem run_part {part : σ → List α} {op : β → Option (DequeOp α)}
    (hstep : ∀ s b t, step s b = some t → part t = applyIf (part s) (op b))
    {s t : σ} {bs : List β} (hrun : run step s bs = some t) :
    part t = (bs.filterMap op).foldl DequeOp.apply (part s) := by
  refine run_induction (I := fun bs u =>
    part u = (bs.filterMap op).foldl DequeOp.apply (part s)) rfl ?_ hrun
  intro bs u b v hu hv
  rw [foldl_filterMap_concat, ← hu]
  exact hstep u b v hv

/-- A run over two sequences gets to its end if the operations on either can all
be carried out, and only then. -/
theorem run_completes_iff {p q : σ → List α} {f g : β → Option (DequeOp α)}
    (hp : ∀ s b t, step s b = some t → p t = applyIf (p s) (f b))
    (hq : ∀ s b t, step s b = some t → q t = applyIf (q s) (g b))
    (hcan : ∀ s b, (∃ t, step s b = some t) ↔ FitsIf max (p s) (f b) ∧ FitsIf max (q s) (g b))
    (s : σ) (bs : List β) :
    (∃ t, run step s bs = some t) ↔
      Admissible max (p s) (bs.filterMap f) ∧ Admissible max (q s) (bs.filterMap g) := by
  induction bs generalizing s with
  | nil => exact ⟨fun _ => ⟨trivial, trivial⟩, fun _ => ⟨s, rfl⟩⟩
  | cons b bs ih =>
      rw [admissible_filterMap_cons, admissible_filterMap_cons]
      constructor
      · rintro ⟨t, hrun⟩
        obtain ⟨u, hu, hrest⟩ := run_cons.mp hrun
        obtain ⟨hfp, hfq⟩ := (hcan s b).mp ⟨u, hu⟩
        obtain ⟨hap, haq⟩ := (ih u).mp ⟨t, hrest⟩
        rw [hp s b u hu] at hap
        rw [hq s b u hu] at haq
        exact ⟨⟨hfp, hap⟩, ⟨hfq, haq⟩⟩
      · rintro ⟨⟨hfp, hap⟩, ⟨hfq, haq⟩⟩
        obtain ⟨u, hu⟩ := (hcan s b).mpr ⟨hfp, hfq⟩
        rw [← hp s b u hu] at hap
        rw [← hq s b u hu] at haq
        obtain ⟨t, hrest⟩ := (ih u).mpr ⟨hap, haq⟩
        exact ⟨t, run_cons.mpr ⟨u, hu, hrest⟩⟩

end

end NngCore.Lib
