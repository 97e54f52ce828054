import Mathlib.Data.List.Basic

/-!
# Cutting and reading text

A text is a list of characters. It is cut at the last separator, and it is read
as a number: an optional plus sign and then digits, with the value checked
against a bound at every multiplication and at every addition.

Neither of the two can be asked for anything but what it returns: a cut is the
one way to write the text with no separator in the second piece, and a number
is read exactly when it is written there and is below the bound. Overflow on the
way is no other case, since the value only grows.
-/

namespace NngCore.Lib

/-! ## Cutting at the last separator -/

section

variable {α : Type} [DecidableEq α]

/-- The pieces before and behind the last `c`. -/
def rsplitOnce (c : α) : List α → Option (List α × List α)
  | [] => none
  | x :: xs =>
      match rsplitOnce c xs with
      | some (a, b) => some (x :: a, b)
      | none => if x = c then some ([], xs) else none

theorem rsplitOnce_eq_none_iff {c : α} {s : List α} : rsplitOnce c s = none ↔ c ∉ s := by
  induction s with
  | nil => simp [rsplitOnce]
  | cons x xs ih =>
      rw [rsplitOnce]
      cases h : rsplitOnce c xs with
      | some p =>
          have hin : ¬ c ∉ xs := fun hn => by rw [ih.mpr hn] at h; cases h
          simp [not_not.mp hin]
      | none => grind

theorem rsplitOnce_append {c : α} {b : List α} (hb : c ∉ b) (a : List α) :
    rsplitOnce c (a ++ c :: b) = some (a, b) := by
  induction a with
  | nil => rw [List.nil_append, rsplitOnce, rsplitOnce_eq_none_iff.mpr hb, if_pos rfl]
  | cons x xs ih => rw [List.cons_append, rsplitOnce, ih]

theorem rsplitOnce_spec {c : α} {s a b : List α} (h : rsplitOnce c s = some (a, b)) :
    s = a ++ c :: b ∧ c ∉ b := by
  induction s generalizing a with
  | nil => cases h
  | cons x xs ih =>
      rw [rsplitOnce] at h
      split at h
      next a' b' hcut =>
        cases h
        obtain ⟨rfl, hb⟩ := ih hcut
        exact ⟨rfl, hb⟩
      next hcut =>
        split at h
        next hx =>
          cases h
          exact ⟨by rw [hx, List.nil_append], rsplitOnce_eq_none_iff.mp hcut⟩
        next => cases h

theorem rsplitOnce_eq_some_iff {c : α} {s a b : List α} :
    rsplitOnce c s = some (a, b) ↔ s = a ++ c :: b ∧ c ∉ b :=
  ⟨rsplitOnce_spec, fun ⟨hs, hb⟩ => hs ▸ rsplitOnce_append hb a⟩

end

/-! ## Numbers -/

/-- `to_digit(10)`. -/
def digitOf (c : Char) : Option Nat :=
  if c.isDigit then some (c.toNat - '0'.toNat) else none

/-- The digits of a number from the left, with `checked_mul` and `checked_add`. -/
def accumulate (bound : Nat) : Nat → List Char → Option Nat
  | acc, [] => some acc
  | acc, c :: cs =>
      if bound ≤ acc * 10 then none
      else
        match digitOf c with
        | none => none
        | some d => if bound ≤ acc * 10 + d then none else accumulate bound (acc * 10 + d) cs

/-- A number below the bound: an optional plus sign, and at least one digit. -/
def parseUnsigned (bound : Nat) : List Char → Option Nat
  | [] => none
  | ['+'] => none
  | '+' :: cs => accumulate bound 0 cs
  | cs => accumulate bound 0 cs

/-- The digits say `n`, read from the left. -/
structure Digits (n : Nat) (cs : List Char) : Prop where
  ne_nil : cs ≠ []
  digits : ∀ c ∈ cs, c.isDigit
  value : Nat.ofDigitChars 10 cs 0 = n

/-- The text says `n`. -/
def Reads (n : Nat) (s : List Char) : Prop :=
  Digits n s ∨ ∃ cs, s = '+' :: cs ∧ Digits n cs

theorem le_ofDigitChars (cs : List Char) (acc : Nat) : acc ≤ Nat.ofDigitChars 10 cs acc := by
  induction cs generalizing acc with
  | nil => simp
  | cons c cs ih =>
      rw [Nat.ofDigitChars_cons]
      have := ih (10 * acc + (c.toNat - '0'.toNat))
      omega

theorem accumulate_eq_some_iff {bound acc n : Nat} {cs : List Char} (hacc : acc < bound) :
    accumulate bound acc cs = some n ↔
      (∀ c ∈ cs, c.isDigit) ∧ Nat.ofDigitChars 10 cs acc = n ∧ n < bound := by
  induction cs generalizing acc with
  | nil =>
      simp only [accumulate, Nat.ofDigitChars_nil]
      grind
  | cons c cs ih =>
      rw [accumulate, Nat.ofDigitChars_cons]
      -- both checks ask for less than the value of the whole number does
      have hle := le_ofDigitChars cs (10 * acc + (c.toNat - '0'.toNat))
      by_cases hc : c.isDigit
      · rw [digitOf, if_pos hc]
        by_cases hb : bound ≤ acc * 10 + (c.toNat - '0'.toNat)
        · grind
        · have hmul : ¬ bound ≤ acc * 10 := by omega
          rw [if_neg hmul]
          simp only [if_neg hb]
          rw [ih (by omega), Nat.mul_comm acc 10]
          grind
      · rw [digitOf, if_neg hc]
        grind

theorem Digits.not_plus {n : Nat} {cs : List Char} : ¬ Digits n ('+' :: cs) := fun h => by
  have := h.digits '+' (by simp)
  exact absurd this (by decide)

theorem accumulate_zero_iff {bound n : Nat} {cs : List Char} (hb : 0 < bound) (hne : cs ≠ []) :
    accumulate bound 0 cs = some n ↔ Digits n cs ∧ n < bound := by
  rw [accumulate_eq_some_iff hb]
  constructor
  · rintro ⟨hd, hv, hn⟩
    exact ⟨⟨hne, hd, hv⟩, hn⟩
  · rintro ⟨h, hn⟩
    exact ⟨h.digits, h.value, hn⟩

theorem parseUnsigned_eq_some_iff {bound n : Nat} {s : List Char} (hb : 0 < bound) :
    parseUnsigned bound s = some n ↔ Reads n s ∧ n < bound := by
  rw [Reads]
  fun_cases parseUnsigned bound s with
  | case1 => grind [Digits]
  | case2 =>
      have hnil : ¬ Digits n [] := fun h => h.ne_nil rfl
      grind [Digits.not_plus]
  | case3 cs hne =>
      have hne' : cs ≠ [] := fun h => hne h
      rw [accumulate_zero_iff hb hne']
      grind [Digits.not_plus]
  | case4 cs hnil hone hplus =>
      rw [accumulate_zero_iff hb hnil]
      grind

/-- What a number is printed as says it. -/
theorem reads_toDigits (n : Nat) : Reads n (Nat.toDigits 10 n) :=
  .inl ⟨Nat.toDigits_ne_nil,
    fun _ hc => Nat.isDigit_of_mem_toDigits (by decide) (by decide) hc,
    Nat.ofDigitChars_ten_toDigits⟩

theorem Reads.not_mem {n : Nat} {s : List Char} {c : Char} (h : Reads n s)
    (hc : c.isDigit = false) (hplus : c ≠ '+') : c ∉ s := by
  intro hmem
  rcases h with h | ⟨cs, rfl, h⟩
  · exact absurd (h.digits c hmem) (by rw [hc]; decide)
  · rcases List.mem_cons.mp hmem with rfl | hmem
    · exact hplus rfl
    · exact absurd (h.digits c hmem) (by rw [hc]; decide)

end NngCore.Lib
