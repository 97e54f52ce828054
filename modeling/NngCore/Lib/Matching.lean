import Mathlib.Data.List.Nodup
import Mathlib.Data.List.Pairwise

/-!
# Matchings

A list of pairs whose elements are all different: everything has at most one
partner, and is the partner of that.
-/

namespace NngCore.Lib.Matching

variable {α : Type} {m : List (α × α)} {a b : α}

def ends (m : List (α × α)) : List α := m.flatMap fun x => [x.1, x.2]

theorem mem_ends : a ∈ ends m ↔ ∃ x ∈ m, a = x.1 ∨ a = x.2 := by
  simp only [ends, List.mem_flatMap, List.mem_cons, List.not_mem_nil, or_false]

theorem nodup_ends_concat (h : (ends m).Nodup) (hne : a ≠ b) (ha : a ∉ ends m)
    (hb : b ∉ ends m) : (ends (m ++ [(a, b)])).Nodup := by
  have hends : ends (m ++ [(a, b)]) = ends m ++ [a, b] := by
    rw [ends, List.flatMap_append, List.flatMap_singleton, ends]
  rw [hends]
  refine List.nodup_append.mpr ⟨h, ?_, ?_⟩
  · exact List.nodup_cons.mpr ⟨fun hmem => hne (List.mem_singleton.mp hmem),
      List.nodup_singleton b⟩
  · intro x hx y hy hxy
    subst hxy
    rcases List.mem_cons.mp hy with rfl | hy
    · exact ha hx
    · exact hb (List.mem_singleton.mp hy ▸ hx)

/-- Pairs that share an element are the same. -/
theorem eq_of_shared (h : (ends m).Nodup) {x y : α × α} (hx : x ∈ m) (hy : y ∈ m)
    (hax : a = x.1 ∨ a = x.2) (hay : a = y.1 ∨ a = y.2) : x = y := by
  by_contra hne
  have : Std.Symm (Function.onFun List.Disjoint fun x : α × α => [x.1, x.2]) :=
    ⟨fun _ _ hd _ h₁ h₂ => hd h₂ h₁⟩
  have hdisj := (List.nodup_flatMap.mp h).2.forall hx hy hne
  refine hdisj (a := a) ?_ ?_
  · simpa only [List.mem_cons, List.not_mem_nil, or_false] using hax
  · simpa only [List.mem_cons, List.not_mem_nil, or_false] using hay

variable [DecidableEq α]

def partner (m : List (α × α)) (a : α) : Option α :=
  m.findSome? fun x => if x.1 = a then some x.2 else if x.2 = a then some x.1 else none

theorem mem_of_partner (h : partner m a = some b) : (a, b) ∈ m ∨ (b, a) ∈ m := by
  obtain ⟨x, hx, hb⟩ := List.exists_of_findSome?_eq_some h
  split at hb
  · next ha =>
      cases hb
      exact .inl (ha ▸ hx)
  · split at hb
    · next ha =>
        cases hb
        exact .inr (ha ▸ hx)
    · cases hb

theorem partner_eq_none : partner m a = none ↔ a ∉ ends m := by
  rw [partner, List.findSome?_eq_none_iff, mem_ends]
  constructor
  · rintro h ⟨x, hx, ha⟩
    have hx' := h x hx
    rcases ha with rfl | rfl
    · rw [if_pos rfl] at hx'
      cases hx'
    · split at hx' <;> simp at hx'
  · intro h x hx
    rw [if_neg fun ha => h ⟨x, hx, .inl ha.symm⟩, if_neg fun ha => h ⟨x, hx, .inr ha.symm⟩]

theorem partner_of_mem (h : (ends m).Nodup) (hmem : (a, b) ∈ m ∨ (b, a) ∈ m) :
    partner m a = some b := by
  have hends : a ∈ ends m := by
    rcases hmem with hmem | hmem
    · exact mem_ends.mpr ⟨_, hmem, .inl rfl⟩
    · exact mem_ends.mpr ⟨_, hmem, .inr rfl⟩
  cases hp : partner m a with
  | none => exact absurd hends (partner_eq_none.mp hp)
  | some c =>
      -- the pair that was found has `a` in common with the one that is there
      rcases hmem with hmem | hmem <;> rcases mem_of_partner hp with hfound | hfound
      · cases eq_of_shared h hmem hfound (.inl rfl) (.inl rfl)
        rfl
      · cases eq_of_shared h hmem hfound (.inl rfl) (.inr rfl)
        rfl
      · cases eq_of_shared h hmem hfound (.inr rfl) (.inl rfl)
        rfl
      · cases eq_of_shared h hmem hfound (.inr rfl) (.inr rfl)
        rfl

theorem partner_symm (h : (ends m).Nodup) (hp : partner m a = some b) : partner m b = some a :=
  partner_of_mem h (mem_of_partner hp).symm

/-- A new pair is no one else's business. -/
theorem partner_concat {x y : α} (hx : a ≠ x) (hy : a ≠ y) :
    partner (m ++ [(x, y)]) a = partner m a := by
  rw [partner, List.findSome?_append, List.findSome?_singleton, if_neg (Ne.symm hx),
    if_neg (Ne.symm hy), Option.or_none]
  rfl

end NngCore.Lib.Matching
