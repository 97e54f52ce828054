import NngCore.Spec.ZeroCopy

/-!
# When the layout of a stack message survives

The two pushes are safe at any length: the sum they check is also the end of
the slice they copy to, and a sum that wrapped would make it end before it
starts. `trim_front` slices nothing. Its guard compares the wrapped sum alone,
so an argument that wraps is let through, and the body starts further left
than before.
-/

namespace NngCore.Proofs

open NngCore.Lib NngCore.Ref NngCore.Spec NngCore.Ref.ZeroCopyMessage

variable {N : UInt64}

theorem layout_new : Layout (ZeroCopyMessage.new : ZeroCopyMessage N) where
  header := Nat.zero_le _
  trimmed := Nat.le_refl _
  body := Nat.le_refl _
  tail := Nat.div_le_self _ _

theorem length_body_of_layout {z : ZeroCopyMessage N} (h : Layout z) :
    z.body.length = z.bEnd - z.bStart := by
  have hbuf : z.buf.toList.length = N.toNat := z.buf.size_toArray
  rw [ZeroCopyMessage.body, List.length_drop, List.length_take, hbuf, Nat.min_eq_left h.tail]

theorem usizeAdd_of_lt {a b : Nat} (h : a + b < 2 ^ 64) : usizeAdd a b = a + b :=
  Nat.mod_eq_of_lt h

/-! ## The operations -/

/-- A copy that comes back was to a slice of the length of the data. -/
theorem copyFromSlice_eq_some {buf buf' : Vector UInt8 N.toNat} {lo hi : Nat}
    {data : List UInt8} (h : copyFromSlice buf lo hi data = some buf') :
    hi = lo + data.length ∧ hi ≤ N.toNat ∧ buf' = overwriteVec buf lo data := by
  rw [copyFromSlice] at h
  split at h
  · next hslice =>
      cases h
      exact ⟨by omega, hslice.2.1, rfl⟩
  · cases h

theorem pushBack_eq_some {z z' : ZeroCopyMessage N} {data : List UInt8}
    (h : z.pushBack data = some z') :
    z.bEnd + data.length ≤ N.toNat ∧ z' =
      { z with buf := overwriteVec z.buf z.bEnd data, bEnd := z.bEnd + data.length } := by
  simp only [ZeroCopyMessage.pushBack] at h
  split at h
  · split at h
    · cases h
    · next buf hcopy =>
        cases h
        obtain ⟨hend, hle, rfl⟩ := copyFromSlice_eq_some hcopy
        rw [hend] at hle ⊢
        exact ⟨hle, rfl⟩
  · cases h

theorem headerPushBack_eq_some {z z' : ZeroCopyMessage N} {data : List UInt8}
    (h : z.headerPushBack data = some z') :
    z.hEnd + data.length ≤ headerCap N ∧ z' =
      { z with buf := overwriteVec z.buf z.hEnd data, hEnd := z.hEnd + data.length } := by
  simp only [ZeroCopyMessage.headerPushBack] at h
  split at h
  · next hcap =>
      split at h
      · cases h
      · next buf hcopy =>
          cases h
          obtain ⟨hend, _, rfl⟩ := copyFromSlice_eq_some hcopy
          rw [hend] at hcap ⊢
          exact ⟨hcap, rfl⟩
  · cases h

theorem trimFront_eq_some {z z' : ZeroCopyMessage N} {n : Nat}
    (hwrap : z.bStart + n < 2 ^ 64) (h : z.trimFront n = some z') :
    z.bStart + n ≤ z.bEnd ∧ z' = { z with bStart := z.bStart + n } := by
  rw [ZeroCopyMessage.trimFront, usizeAdd_of_lt hwrap] at h
  split at h
  · next hle =>
      cases h
      exact ⟨hle, rfl⟩
  · cases h

/-! ## One call -/

theorem keepsLayout_of_layout {z : ZeroCopyMessage N} {op : Op} (h : Layout z)
    (hwrap : ¬ TrimWraps z op) : KeepsLayout z op := by
  intro z' hz'
  cases op with
  | pushBack data =>
      obtain ⟨hle, rfl⟩ := pushBack_eq_some hz'
      refine ⟨⟨h.header, h.trimmed, ?_, hle⟩, Nat.le_refl _, nofun⟩
      exact Nat.le_trans h.body (Nat.le_add_right _ _)
  | headerPushBack data =>
      obtain ⟨hle, rfl⟩ := headerPushBack_eq_some hz'
      exact ⟨⟨hle, h.trimmed, h.body, h.tail⟩, Nat.le_refl _, nofun⟩
  | trimFront n =>
      have hlt : z.bStart + n.toNat < 2 ^ 64 := by
        by_contra hge
        exact hwrap ⟨n, rfl, Nat.le_of_not_lt hge⟩
      obtain ⟨hle, rfl⟩ := trimFront_eq_some hlt hz'
      refine ⟨⟨h.header, Nat.le_trans h.trimmed (Nat.le_add_right _ _), hle, h.tail⟩,
        Nat.le_add_right _ _, ?_⟩
      intro n' hn'
      cases hn'
      rw [length_body_of_layout h]
      omega

/-- An argument that wraps is let through. -/
theorem not_keepsLayout_of_wraps {z : ZeroCopyMessage N} {op : Op} (h : Layout z)
    (hwrap : TrimWraps z op) : ¬ KeepsLayout z op := by
  obtain ⟨n, rfl, hge⟩ := hwrap
  have hn : n.toNat < 2 ^ 64 := n.toNat_lt
  have hN : N.toNat < 2 ^ 64 := N.toNat_lt
  have hstart := Nat.le_trans h.body h.tail
  have hsum : usizeAdd z.bStart n.toNat = z.bStart + n.toNat - 2 ^ 64 := by
    rw [usizeAdd, Nat.mod_eq_sub_mod hge, Nat.mod_eq_of_lt (by omega)]
  have hleft : usizeAdd z.bStart n.toNat < z.bStart := by omega
  have happly : z.apply (.trimFront n) =
      some { z with bStart := usizeAdd z.bStart n.toNat } :=
    if_pos (Nat.le_trans (Nat.le_of_lt hleft) h.body)
  intro hkeeps
  exact absurd (hkeeps _ happly).2.1 (Nat.not_le_of_lt hleft)

theorem layout_step {z z' : ZeroCopyMessage N} {op : Op} (h : Layout z)
    (hkeeps : KeepsLayout z op) (hstep : z.step op = some z') : Layout z' := by
  cases hstep
  cases happly : z.apply op with
  | none => exact h
  | some z' => exact (hkeeps z' happly).1

/-- Over every sequence of calls on a fresh message: each call that comes back
keeps the layout exactly as long as no `trim_front` wraps. -/
theorem layout_kept_iff (N : UInt64) (ops : List Op) :
    EveryStep ZeroCopyMessage.step KeepsLayout (ZeroCopyMessage.new : ZeroCopyMessage N) ops ↔
      EveryStep ZeroCopyMessage.step (fun z op => ¬ TrimWraps z op)
        (ZeroCopyMessage.new : ZeroCopyMessage N) ops := by
  have hrun : ∀ (z : ZeroCopyMessage N), Layout z →
      (EveryStep ZeroCopyMessage.step KeepsLayout z ops ↔
        EveryStep ZeroCopyMessage.step (fun z op => ¬ TrimWraps z op) z ops) := by
    induction ops with
    | nil => exact fun _ _ => Iff.rfl
    | cons op ops ih =>
        intro z h
        have hone : KeepsLayout z op ↔ ¬ TrimWraps z op :=
          ⟨fun hkeeps hwrap => not_keepsLayout_of_wraps h hwrap hkeeps,
            keepsLayout_of_layout h⟩
        constructor
        · rintro ⟨hkeeps, hrest⟩
          exact ⟨hone.mp hkeeps, fun z' hz' =>
            (ih z' (layout_step h hkeeps hz')).mp (hrest z' hz')⟩
        · rintro ⟨hwrap, hrest⟩
          have hkeeps := hone.mpr hwrap
          exact ⟨hkeeps, fun z' hz' => (ih z' (layout_step h hkeeps hz')).mpr (hrest z' hz')⟩
  exact hrun _ layout_new

/-- Two bytes pushed, and `trim_front` of the largest `usize`: it comes back,
and the body has grown by a byte of the header's region. -/
theorem trim_wraps_into_header :
    ¬ EveryStep ZeroCopyMessage.step KeepsLayout (ZeroCopyMessage.new : ZeroCopyMessage 64)
      [.pushBack [104, 105], .trimFront 18446744073709551615] := by
  intro h
  exact not_keepsLayout_of_wraps (layout_step layout_new h.1 rfl) ⟨_, rfl, by decide⟩
    (h.2 _ rfl).1

end NngCore.Proofs
