import Mathlib.Data.List.Perm.Basic

/-!
# A sweep over a vector that loses elements on the way

The loop of a collection that drops its dead members in passing: an index runs
over a vector, each element is visited, and an element that is to go is
replaced by the last one, which is then visited in its place. The index only
moves on past an element that stays. A visit may also end the sweep, with an
answer.

Which element stands where depends on which ones went. What does not is who was
visited: everyone once, if the sweep ran to its end, and nobody twice in any
case (`sweep_spec`). So up to order the vector afterwards is what its elements
became.
-/

namespace NngCore.Lib

variable {α β : Type}

/-- The element at `i` goes, and the last one takes its place. -/
def swapRemove (l : List α) (i : Nat) : List α :=
  match l.getLast? with
  | none => l
  | some last => (l.set i last).dropLast

/-- What a visit says of the element, which it may have changed. -/
inductive Visit (α β : Type) where
  | keep (a : α)
  | remove (a : α)
  | stop (a : α) (b : β)

namespace Visit

/-- The element as it stays in the vector. -/
def kept : Visit α β → Option α
  | keep a => some a
  | remove _ => none
  | stop a _ => some a

/-- The element as it goes. -/
def removed : Visit α β → Option α
  | keep _ => none
  | remove a => some a
  | stop _ _ => none

def answer : Visit α β → Option β
  | keep _ => none
  | remove _ => none
  | stop _ b => some b

end Visit

structure Swept (α β : Type) where
  list : List α
  gone : List α
  result : Option β

section

variable (visit : α → Visit α β)

/-- The sweep from index `i` on. Every turn leaves one element less in front of
it, so `fuel` is their number. -/
def sweep : Nat → Nat → List α → Swept α β
  | 0, _, l => ⟨l, [], none⟩
  | fuel + 1, i, l =>
      match l[i]? with
      | none => ⟨l, [], none⟩
      | some a =>
          match visit a with
          | .keep a' => sweep fuel (i + 1) (l.set i a')
          | .remove a' =>
              let out := sweep fuel i (swapRemove l i)
              { out with gone := a' :: out.gone }
          | .stop a' b => ⟨l.set i a', [], some b⟩

end

/-! ## What it amounts to -/

theorem getElem?_append_cons (pre : List α) (a : α) (rest : List α) :
    (pre ++ a :: rest)[pre.length]? = some a := by
  rw [List.getElem?_append_right (Nat.le_refl _), Nat.sub_self]
  rfl

theorem set_append_cons (pre : List α) (a a' : α) (rest : List α) :
    (pre ++ a :: rest).set pre.length a' = pre ++ a' :: rest := by
  rw [List.set_append_right _ _ (Nat.le_refl _), Nat.sub_self]
  rfl

theorem swapRemove_append (pre : List α) (a : α) (rest : List α) :
    ∃ rest', swapRemove (pre ++ a :: rest) pre.length = pre ++ rest' ∧ rest'.Perm rest := by
  rcases List.eq_nil_or_concat' rest with rfl | ⟨init, last, rfl⟩
  · refine ⟨[], ?_, .nil⟩
    rw [swapRemove, List.getLast?_concat]
    simp
  · refine ⟨last :: init, ?_, (List.perm_append_singleton last init).symm⟩
    have hlast : (pre ++ a :: (init ++ [last])).getLast? = some last := by
      rw [← List.cons_append, ← List.append_assoc, List.getLast?_concat]
    have hset : (pre ++ a :: (init ++ [last])).set pre.length last =
        pre ++ last :: init ++ [last] := by
      rw [set_append_cons, List.append_assoc, List.cons_append]
    rw [swapRemove, hlast]
    simp only [hset, List.dropLast_concat]

/-- A sweep over `rest`, behind `pre`, has visited `visited` and no others. -/
structure Covers (visit : α → Visit α β) (pre rest : List α) (out : Swept α β)
    (visited unvisited : List α) : Prop where
  all : (visited ++ unvisited).Perm rest
  list : out.list.Perm (pre ++ (visited.filterMap (fun a => (visit a).kept) ++ unvisited))
  gone : out.gone = visited.filterMap fun a => (visit a).removed
  answers : visited.filterMap (fun a => (visit a).answer) = out.result.toList
  done : out.result = none → unvisited = []

section

variable {visit : α → Visit α β} {pre rest : List α} {a a' : α} {out : Swept α β}
variable {visited unvisited : List α}

theorem Covers.nil (visit : α → Visit α β) (pre : List α) :
    Covers visit pre [] ⟨pre, [], none⟩ [] [] where
  all := .nil
  list := .of_eq (List.append_nil pre).symm
  gone := rfl
  answers := rfl
  done := fun _ => rfl

theorem Covers.stop {b : β} (h : visit a = .stop a' b) :
    Covers visit pre (a :: rest) ⟨pre ++ a' :: rest, [], some b⟩ [a] rest where
  all := .refl _
  list := .of_eq (by rw [List.filterMap_cons_some (b := a') (by rw [h]; rfl)]; rfl)
  gone := by rw [List.filterMap_cons_none (by rw [h]; rfl)]; rfl
  answers := List.filterMap_cons_some (by rw [h]; rfl)
  done := nofun

theorem Covers.keep (h : visit a = .keep a')
    (hc : Covers visit (pre ++ [a']) rest out visited unvisited) :
    Covers visit pre (a :: rest) out (a :: visited) unvisited where
  all := hc.all.cons a
  list := by
    rw [List.filterMap_cons_some (b := a') (by rw [h]; rfl), List.cons_append,
      List.append_cons]
    exact hc.list
  gone := hc.gone.trans (List.filterMap_cons_none (by rw [h]; rfl)).symm
  answers := (List.filterMap_cons_none (by rw [h]; rfl)).trans hc.answers
  done := hc.done

theorem Covers.remove {rest' : List α} (h : visit a = .remove a') (hperm : rest'.Perm rest)
    (hc : Covers visit pre rest' out visited unvisited) :
    Covers visit pre (a :: rest) { out with gone := a' :: out.gone } (a :: visited)
      unvisited where
  all := (hc.all.trans hperm).cons a
  list := by
    rw [List.filterMap_cons_none (by rw [h]; rfl)]
    exact hc.list
  gone := by
    rw [List.filterMap_cons_some (b := a') (by rw [h]; rfl), ← hc.gone]
  answers := (List.filterMap_cons_none (by rw [h]; rfl)).trans hc.answers
  done := hc.done

end

/-- A sweep visits every element in front of it once, or stops with an answer
having visited nobody twice. -/
theorem sweep_spec (visit : α → Visit α β) {fuel : Nat} (pre : List α) {rest : List α}
    (hfuel : rest.length ≤ fuel) :
    ∃ visited unvisited,
      Covers visit pre rest (sweep visit fuel pre.length (pre ++ rest)) visited unvisited := by
  induction fuel generalizing pre rest with
  | zero =>
      obtain rfl := List.length_eq_zero_iff.mp (Nat.le_zero.mp hfuel)
      rw [List.append_nil]
      exact ⟨[], [], .nil visit pre⟩
  | succ fuel ih =>
      cases rest with
      | nil =>
          rw [List.append_nil, sweep, List.getElem?_eq_none (Nat.le_refl _)]
          exact ⟨[], [], .nil visit pre⟩
      | cons a rest =>
          have hless : rest.length ≤ fuel := Nat.le_of_succ_le_succ hfuel
          simp only [sweep, getElem?_append_cons]
          cases hv : visit a with
          | keep a' =>
              simp only [set_append_cons]
              obtain ⟨visited, unvisited, hc⟩ := ih (pre ++ [a']) hless
              rw [List.length_append, List.append_assoc] at hc
              exact ⟨_, _, hc.keep hv⟩
          | remove a' =>
              obtain ⟨rest', hswap, hperm⟩ := swapRemove_append pre a rest
              simp only [hswap]
              obtain ⟨visited, unvisited, hc⟩ := ih pre (le_of_eq_of_le hperm.length_eq hless)
              exact ⟨_, _, hc.remove hv hperm⟩
          | stop a' b =>
              simp only [set_append_cons]
              exact ⟨_, _, .stop hv⟩

end NngCore.Lib
