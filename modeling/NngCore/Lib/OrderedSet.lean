import Mathlib.Data.List.Basic

/-!
# Ordered sets

A set kept as the list of its members in increasing order, which is what an
ordered tree shows of itself: membership changes by insertion and removal, and
a range query reads a front part of the list. Because the list is sorted, the
members up to a bound are those in front of the first one above it, and the
query may stop there.
-/

namespace NngCore.Lib

/-- The order is part of the value, so no operation has to restore it. -/
structure OrderedSet (α : Type) [LT α] where
  elems : List α
  sorted : elems.Pairwise (· < ·)

namespace OrderedSet

section

variable {α : Type} [LT α]

def empty : OrderedSet α := ⟨[], List.Pairwise.nil⟩

def isEmpty (s : OrderedSet α) : Bool := s.elems.isEmpty

instance : Membership α (OrderedSet α) := ⟨fun s a => a ∈ s.elems⟩

@[simp] theorem not_mem_empty (x : α) : ¬ x ∈ (empty : OrderedSet α) := List.not_mem_nil

theorem isEmpty_iff {s : OrderedSet α} : s.isEmpty = true ↔ ∀ x, ¬ x ∈ s := by
  rw [isEmpty, List.isEmpty_iff]
  exact List.eq_nil_iff_forall_not_mem

variable [DecidableEq α]

def remove (s : OrderedSet α) (a : α) : OrderedSet α :=
  ⟨s.elems.filter (· ≠ a), s.sorted.filter _⟩

@[simp] theorem mem_remove {s : OrderedSet α} {a x : α} :
    x ∈ s.remove a ↔ x ∈ s ∧ x ≠ a := by
  show x ∈ s.elems.filter _ ↔ _
  rw [List.mem_filter, decide_eq_true_eq]
  rfl

end

/-! ## Insertion -/

section

variable {α : Type} [LT α] [DecidableEq α] [DecidableLT α]

def insertSorted (a : α) : List α → List α
  | [] => [a]
  | b :: bs =>
      if a < b then a :: b :: bs
      else if a = b then b :: bs
      else b :: insertSorted a bs

theorem mem_insertSorted {a x : α} {l : List α} :
    x ∈ insertSorted a l ↔ x = a ∨ x ∈ l := by
  induction l with
  | nil => simp [insertSorted]
  | cons b bs ih =>
      rw [insertSorted]
      split
      · rw [List.mem_cons]
      · split
        · next heq =>
            subst heq
            rw [List.mem_cons]
            exact ⟨Or.inr, fun h => h.elim Or.inl id⟩
        · rw [List.mem_cons, ih, List.mem_cons]
          exact or_left_comm

variable [LE α] [Std.IsLinearOrder α] [Std.LawfulOrderLT α]

theorem sorted_insertSorted {a : α} {l : List α} (h : l.Pairwise (· < ·)) :
    (insertSorted a l).Pairwise (· < ·) := by
  induction l with
  | nil => exact List.pairwise_singleton _ a
  | cons b bs ih =>
      obtain ⟨hb, hbs⟩ := List.pairwise_cons.mp h
      rw [insertSorted]
      split
      · next hlt =>
          refine List.pairwise_cons.mpr ⟨fun x hx => ?_, h⟩
          rcases List.mem_cons.mp hx with rfl | hx
          · exact hlt
          · exact Std.lt_trans hlt (hb x hx)
      · next hle =>
          split
          · exact h
          · next hne =>
              refine List.pairwise_cons.mpr ⟨fun x hx => ?_, ih hbs⟩
              rcases mem_insertSorted.mp hx with rfl | hx
              · exact Std.lt_of_le_of_ne (Std.not_lt.mp hle) (Ne.symm hne)
              · exact hb x hx

def insert (s : OrderedSet α) (a : α) : OrderedSet α :=
  ⟨insertSorted a s.elems, sorted_insertSorted s.sorted⟩

@[simp] theorem mem_insert {s : OrderedSet α} {a x : α} :
    x ∈ s.insert a ↔ x = a ∨ x ∈ s := mem_insertSorted

end

/-! ## Ranges -/

section

variable {α : Type} [LT α] [LE α] [DecidableLE α]

/-- The members up to and including `hi`, in order. -/
def rangeTo (s : OrderedSet α) (hi : α) : List α := s.elems.takeWhile (· ≤ hi)

variable [Std.IsLinearOrder α] [Std.LawfulOrderLT α]

/-- Nothing behind the first member above the bound is within it. -/
theorem mem_takeWhile_le {l : List α} (h : l.Pairwise (· < ·)) {x hi : α} :
    x ∈ l.takeWhile (· ≤ hi) ↔ x ∈ l ∧ x ≤ hi := by
  induction l with
  | nil => simp
  | cons b bs ih =>
      obtain ⟨hb, hbs⟩ := List.pairwise_cons.mp h
      rw [List.takeWhile_cons]
      split
      · next hle =>
          rw [List.mem_cons, ih hbs, List.mem_cons]
          constructor
          · rintro (rfl | ⟨hx, hxle⟩)
            · exact ⟨Or.inl rfl, of_decide_eq_true hle⟩
            · exact ⟨Or.inr hx, hxle⟩
          · rintro ⟨rfl | hx, hxle⟩
            · exact Or.inl rfl
            · exact Or.inr ⟨hx, hxle⟩
      · next hgt =>
          refine ⟨fun hx => absurd hx List.not_mem_nil, ?_⟩
          rintro ⟨hx, hxle⟩
          have hbgt : ¬ b ≤ hi := fun hle => hgt (decide_eq_true hle)
          rcases List.mem_cons.mp hx with rfl | hx
          · exact absurd hxle hbgt
          · exact absurd (Std.le_trans (Std.le_of_lt (hb x hx)) hxle) hbgt

theorem mem_rangeTo {s : OrderedSet α} {x hi : α} : x ∈ s.rangeTo hi ↔ x ∈ s ∧ x ≤ hi :=
  mem_takeWhile_le s.sorted

end

end OrderedSet

end NngCore.Lib
