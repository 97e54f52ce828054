import Mathlib.Data.List.Infix
import Mathlib.Tactic.Ring

/-!
# Byte strings: fixed-width big-endian words and in-place writes

Two things every byte-level protocol needs and neither of which knows which
protocol it is. `beBytes k n` is the `k`-byte big-endian spelling of `n`, with
whatever does not fit dropped from the top, the way a narrowing cast drops it;
`beNat` reads a byte string back. Read after write is reduction modulo the
width, write after read is the identity on strings of that width.

`overwrite` is a write into the middle of a fixed buffer. It never changes the
buffer's length, so a buffer whose length is part of its type can be written
to without a proof obligation at the call site; the lemmas then say what the
part in front of the write and the written part read back as.
-/

namespace NngCore.Lib

/-- The `k` big-endian bytes of `n`. -/
def beBytes : Nat → Nat → List UInt8
  | 0, _ => []
  | k + 1, n => beBytes k (n / 256) ++ [UInt8.ofNat n]

/-- The number a byte string spells, most significant byte first. -/
def beNat (bs : List UInt8) : Nat := bs.foldl (fun acc b => acc * 256 + b.toNat) 0

@[simp] theorem beBytes_zero (n : Nat) : beBytes 0 n = [] := rfl

theorem beBytes_succ (k n : Nat) :
    beBytes (k + 1) n = beBytes k (n / 256) ++ [UInt8.ofNat n] := rfl

@[simp] theorem beNat_nil : beNat [] = 0 := rfl

@[simp] theorem beNat_concat (bs : List UInt8) (b : UInt8) :
    beNat (bs ++ [b]) = beNat bs * 256 + b.toNat := by
  simp only [beNat, List.foldl_append, List.foldl_cons, List.foldl_nil]

@[simp] theorem length_beBytes (k n : Nat) : (beBytes k n).length = k := by
  induction k generalizing n with
  | zero => rfl
  | succ k ih => rw [beBytes_succ, List.length_append, ih]; rfl

/-- Reading back what was written keeps what fits the width. -/
theorem beNat_beBytes (k n : Nat) : beNat (beBytes k n) = n % 256 ^ k := by
  induction k generalizing n with
  | zero => rw [beBytes_zero, beNat_nil, Nat.pow_zero, Nat.mod_one]
  | succ k ih =>
      have hlow : (UInt8.ofNat n).toNat = n % 256 := by simp
      rw [beBytes_succ, beNat_concat, ih, hlow, Nat.pow_succ', Nat.mod_mul]
      ring

theorem beNat_beBytes_of_lt {k n : Nat} (h : n < 256 ^ k) :
    beNat (beBytes k n) = n := by
  rw [beNat_beBytes, Nat.mod_eq_of_lt h]

theorem beNat_lt (bs : List UInt8) : beNat bs < 256 ^ bs.length := by
  induction bs using List.reverseRecOn with
  | nil => exact Nat.one_pos
  | append_singleton bs b ih =>
      have hb : b.toNat < 256 := b.toNat_lt
      rw [beNat_concat, List.length_append, List.length_singleton, Nat.pow_succ]
      omega

theorem beNat_lt_of_length {k : Nat} {bs : List UInt8} (h : bs.length = k) :
    beNat bs < 256 ^ k := h ▸ beNat_lt bs

/-- Writing back what was read, in the width it was read in. -/
theorem beBytes_beNat {k : Nat} {bs : List UInt8} (h : bs.length = k) :
    beBytes k (beNat bs) = bs := by
  induction bs using List.reverseRecOn generalizing k with
  | nil => cases h; rfl
  | append_singleton bs b ih =>
      rw [List.length_append, List.length_singleton] at h
      subst h
      have hb : b.toNat < 256 := b.toNat_lt
      have hdiv : (beNat bs * 256 + b.toNat) / 256 = beNat bs := by omega
      have hlow : UInt8.ofNat (beNat bs * 256 + b.toNat) = b := by
        apply UInt8.toNat.inj
        rw [UInt8.toNat_ofNat']
        omega
      rw [beNat_concat, beBytes_succ, hdiv, ih rfl, hlow]

/-! ## Writes into a fixed buffer -/

/-- `buf` with `bs` written at `off`; what would fall past the end is cut. -/
def overwrite (buf : List UInt8) (off : Nat) (bs : List UInt8) : List UInt8 :=
  (buf.take off ++ bs ++ buf.drop (off + bs.length)).take buf.length

@[simp] theorem length_overwrite (buf : List UInt8) (off : Nat) (bs : List UInt8) :
    (overwrite buf off bs).length = buf.length := by
  simp only [overwrite, List.length_take, List.length_append, List.length_drop]
  omega

/-- An in-range write extends what was already filled in. -/
theorem take_overwrite {buf bs : List UInt8} {off : Nat}
    (h : off + bs.length ≤ buf.length) :
    (overwrite buf off bs).take (off + bs.length) = buf.take off ++ bs := by
  have hlen : (buf.take off ++ bs).length = off + bs.length := by
    rw [List.length_append, List.length_take, Nat.min_eq_left (by omega)]
  rw [overwrite, List.take_take, Nat.min_eq_left h, ← hlen, List.take_left]

/-- A write leaves alone what is in front of it. -/
theorem take_overwrite_of_le {buf bs : List UInt8} {off n : Nat}
    (h : off + bs.length ≤ buf.length) (hn : n ≤ off) :
    (overwrite buf off bs).take n = buf.take n := by
  have hfull := congrArg (List.take n) (take_overwrite h)
  rw [List.take_take, Nat.min_eq_left (by omega)] at hfull
  rw [hfull, List.take_append_of_le_length (by rw [List.length_take]; omega),
    List.take_take, Nat.min_eq_left hn]

/-- A write leaves alone what is behind it. -/
theorem drop_overwrite {buf bs : List UInt8} {off n : Nat}
    (h : off + bs.length ≤ buf.length) (hn : off + bs.length ≤ n) :
    (overwrite buf off bs).drop n = buf.drop n := by
  have hlen : (buf.take off ++ bs).length = off + bs.length := by
    rw [List.length_append, List.length_take, Nat.min_eq_left (by omega)]
  have hall : overwrite buf off bs = buf.take off ++ bs ++ buf.drop (off + bs.length) := by
    rw [overwrite]
    refine List.take_of_length_le ?_
    rw [List.length_append, hlen, List.length_drop]
    omega
  obtain ⟨k, rfl⟩ := Nat.exists_eq_add_of_le hn
  rw [hall, ← List.drop_drop, List.drop_left' hlen, List.drop_drop]

/-- The same write into a buffer whose length is part of its type. -/
def overwriteVec {n : Nat} (buf : Vector UInt8 n) (off : Nat) (bs : List UInt8) :
    Vector UInt8 n :=
  ⟨(overwrite buf.toList off bs).toArray, by simp⟩

@[simp] theorem toList_overwriteVec {n : Nat} (buf : Vector UInt8 n) (off : Nat)
    (bs : List UInt8) :
    (overwriteVec buf off bs).toList = overwrite buf.toList off bs := by
  simp [overwriteVec]

end NngCore.Lib
