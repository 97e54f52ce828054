import Mathlib.Data.List.Basic

/-!
# Interleavings of many sequences

A list is an interleaving of a family of lists if it can be taken apart by
removing, element by element, the head of one of them until all are empty.
A merged list whose elements say which sequence they came from needs no such
search: it is an interleaving as soon as what it has from each source, read in
order, is that source's sequence (`interleaving_of_source`).
-/

namespace NngCore.Lib

variable {α : Type}

/-- `out` takes the sequences of `seqs` apart, head by head. -/
inductive Interleaving : List (List α) → List α → Prop
  | done {seqs : List (List α)} (h : ∀ l ∈ seqs, l = []) : Interleaving seqs []
  | next {seqs : List (List α)} {i : Nat} {a : α} {as out : List α}
      (h : seqs[i]? = some (a :: as)) (hrest : Interleaving (seqs.set i as) out) :
      Interleaving seqs (a :: out)

/-- What a tagged list has from source `i`, in order. -/
def source (i : Nat) (tagged : List (Nat × α)) : List α :=
  tagged.filterMap fun x => if x.1 = i then some x.2 else none

@[simp] theorem source_append (i : Nat) (xs ys : List (Nat × α)) :
    source i (xs ++ ys) = source i xs ++ source i ys :=
  List.filterMap_append

theorem source_cons (i j : Nat) (a : α) (xs : List (Nat × α)) :
    source i ((j, a) :: xs) = if j = i then a :: source i xs else source i xs := by
  by_cases h : j = i
  · rw [if_pos h]
    exact List.filterMap_cons_some (if_pos h)
  · rw [if_neg h]
    exact List.filterMap_cons_none (if_neg h)

theorem source_tagged (i k : Nat) (as : List α) :
    source i (as.map fun a => (k, a)) = if k = i then as else [] := by
  induction as with
  | nil => exact (ite_self _).symm
  | cons a as ih =>
      rw [List.map_cons, source_cons, ih]
      split <;> rfl

theorem interleaving_of_source {tagged : List (Nat × α)} {seqs : List (List α)}
    (h : ∀ i, source i tagged = (seqs[i]?).getD []) :
    Interleaving seqs (tagged.map Prod.snd) := by
  induction tagged generalizing seqs with
  | nil =>
      refine .done fun l hl => ?_
      obtain ⟨i, hi⟩ := List.mem_iff_getElem?.mp hl
      have hempty := h i
      rw [hi] at hempty
      exact hempty.symm
  | cons x tagged ih =>
      obtain ⟨j, a⟩ := x
      have hj : seqs[j]? = some (a :: source j tagged) := by
        have hcons := h j
        rw [source_cons, if_pos rfl] at hcons
        cases hs : seqs[j]? with
        | none => rw [hs] at hcons; cases hcons
        | some l => rw [hs] at hcons; exact congrArg some hcons.symm
      have hlt : j < seqs.length := (List.getElem?_eq_some_iff.mp hj).1
      refine .next hj (ih fun i => ?_)
      by_cases hij : j = i
      · subst hij
        rw [List.getElem?_set_self hlt]
        rfl
      · have hi := h i
        rw [source_cons, if_neg hij] at hi
        rw [List.getElem?_set_ne hij, hi]

end NngCore.Lib
