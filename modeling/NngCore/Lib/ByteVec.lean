import NngCore.Lib.Bytes

/-!
# Growable byte arrays

A growable array is its contents and the promise that they are never longer
than an allocation can be. The operations are those of the array and of the
slice under it, each as its contents go: growing past the limit, and a range
that is not there, are refused with `none`.

`copyWithin` reads its source before it writes, so the two ranges may overlap.
That is what makes room in front of an array: grow it, move everything back by
the difference, write into what is now free. `prepended` is the whole of it.
-/

namespace NngCore.Lib

@[ext] structure ByteVec (max : Nat) where
  data : List UInt8
  fits : data.length ≤ max
  deriving DecidableEq

namespace ByteVec

variable {max : Nat}

def empty : ByteVec max := ⟨[], Nat.zero_le max⟩

def len (v : ByteVec max) : Nat := v.data.length

/-- An array with these contents, unless they are too long for one. -/
def grown (bs : List UInt8) : Option (ByteVec max) :=
  if h : bs.length ≤ max then some ⟨bs, h⟩ else none

def extendFromSlice (v : ByteVec max) (bs : List UInt8) : Option (ByteVec max) :=
  grown (v.data ++ bs)

/-- Cut to `n` bytes, or filled up with `value`. -/
def resize (v : ByteVec max) (n : Nat) (value : UInt8) : Option (ByteVec max) :=
  grown (v.data.take n ++ List.replicate (n - v.len) value)

/-- A write at `off`, which changes no length. -/
def write (v : ByteVec max) (off : Nat) (bs : List UInt8) : ByteVec max :=
  ⟨overwrite v.data off bs, (length_overwrite v.data off bs).symm ▸ v.fits⟩

/-- `v.copy_within(lo..hi, dest)`. -/
def copyWithin (v : ByteVec max) (lo hi dest : Nat) : Option (ByteVec max) :=
  if lo ≤ hi ∧ hi ≤ v.len ∧ dest + (hi - lo) ≤ v.len then
    some (v.write dest ((v.data.take hi).drop lo))
  else none

/-- `v[lo..hi].copy_from_slice(bs)`. -/
def copyFromSlice (v : ByteVec max) (lo hi : Nat) (bs : List UInt8) : Option (ByteVec max) :=
  if lo ≤ hi ∧ hi ≤ v.len ∧ hi - lo = bs.length then some (v.write lo bs) else none

/-- `v.drain(..n)`. -/
def drainTo (v : ByteVec max) (n : Nat) : Option (ByteVec max) :=
  if n ≤ v.len then some ⟨v.data.drop n, Nat.le_trans (v.data.drop_sublist n).length_le v.fits⟩
  else none

def truncate (v : ByteVec max) (n : Nat) : ByteVec max :=
  ⟨v.data.take n, Nat.le_trans (v.data.take_sublist n).length_le v.fits⟩

/-! ## What the operations come to -/

theorem grown_eq_some {bs : List UInt8} {v : ByteVec max} :
    grown bs = some v ↔ v.data = bs := by
  obtain ⟨data, hdata⟩ := v
  rw [grown]
  constructor
  · intro h
    split at h
    · cases h; rfl
    · cases h
  · rintro rfl
    exact dif_pos hdata

theorem exists_grown {bs : List UInt8} :
    (∃ v : ByteVec max, grown bs = some v) ↔ bs.length ≤ max :=
  ⟨fun ⟨v, hv⟩ => grown_eq_some.mp hv ▸ v.fits, fun h => ⟨⟨bs, h⟩, dif_pos h⟩⟩

theorem grown_eq_none {bs : List UInt8} :
    (grown bs : Option (ByteVec max)) = none ↔ max < bs.length := by
  rw [Option.eq_none_iff_forall_ne_some, ← not_exists, exists_grown, Nat.not_le]

theorem drainTo_eq_some {v v' : ByteVec max} {n : Nat} (h : v.drainTo n = some v') :
    v'.data = v.data.drop n := by
  rw [drainTo] at h
  split at h
  · cases h; rfl
  · cases h

theorem exists_drainTo {v : ByteVec max} {n : Nat} :
    (∃ v', v.drainTo n = some v') ↔ n ≤ v.len := by
  rw [drainTo]
  split
  · next h => exact ⟨fun _ => h, fun _ => ⟨_, rfl⟩⟩
  · next h =>
      refine ⟨?_, fun hle => absurd hle h⟩
      rintro ⟨v', hv'⟩
      cases hv'

/-! ## Room in front -/

/-- Everything moved back by the length of `bs`, and `bs` written in front of it. -/
theorem overwrite_moved (old bs fill : List UInt8) (hfill : fill.length = bs.length) :
    overwrite (overwrite (old ++ fill) bs.length old) 0 bs = bs ++ old := by
  have hlen : (old ++ fill).length = bs.length + old.length := by
    rw [List.length_append, hfill, Nat.add_comm]
  have hmoved : (overwrite (old ++ fill) bs.length old).drop bs.length = old := by
    have hall : overwrite (old ++ fill) bs.length old =
      (old ++ fill).take bs.length ++ old := by
      rw [← take_overwrite (Nat.le_of_eq hlen.symm), List.take_of_length_le]
      rw [length_overwrite, hlen]
    rw [hall, List.drop_left']
    rw [List.length_take, hlen]
    omega
  have hroom : 0 + bs.length ≤ (overwrite (old ++ fill) bs.length old).length := by
    rw [length_overwrite, hlen]
    omega
  have hfront := take_overwrite hroom
  have hback := drop_overwrite hroom (Nat.le_refl _)
  rw [← List.take_append_drop (0 + bs.length) (overwrite _ 0 bs), hfront, hback, Nat.zero_add,
    hmoved, List.take_zero, List.nil_append]

/-- An array grown by `n` bytes. -/
theorem resize_add {v : ByteVec max} {n : Nat} {value : UInt8} :
    v.resize (v.len + n) value = grown (v.data ++ List.replicate n value) := by
  have htake : v.data.take (v.len + n) = v.data :=
    List.take_of_length_le (Nat.le_add_right v.len n)
  rw [resize, htake, Nat.add_sub_cancel_left]

/-- Grown by as many bytes as are to come, moved back, and written in front. -/
theorem prepended {v wide : ByteVec max} {bs : List UInt8} {value : UInt8}
    (h : v.resize (v.len + bs.length) value = some wide) :
    ∃ moved v', wide.copyWithin 0 v.len bs.length = some moved ∧
      moved.copyFromSlice 0 bs.length bs = some v' ∧ v'.data = bs ++ v.data := by
  rw [resize_add] at h
  have hdata := grown_eq_some.mp h
  have hlen : wide.len = v.len + bs.length := by
    rw [len, hdata, List.length_append, List.length_replicate]
    rfl
  have hsource : (wide.data.take v.len).drop 0 = v.data := by
    rw [hdata, List.drop_zero]
    exact List.take_left
  have hmove : wide.copyWithin 0 v.len bs.length = some (wide.write bs.length v.data) := by
    rw [copyWithin, hsource, if_pos ⟨Nat.zero_le _, by omega, by omega⟩]
  have hroom : (wide.write bs.length v.data).len = v.len + bs.length := by
    rw [← hlen]
    exact length_overwrite ..
  refine ⟨_, _, hmove, if_pos ⟨Nat.zero_le _, by omega, Nat.sub_zero _⟩, ?_⟩
  show overwrite (overwrite wide.data bs.length v.data) 0 bs = bs ++ v.data
  rw [hdata, overwrite_moved _ _ _ List.length_replicate]

end ByteVec

end NngCore.Lib
