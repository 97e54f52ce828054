import NngCore.Proofs.Decode

/-!
# The declared length on every pointer width

The length travels as a `u64` and is cast to `usize` before anything looks at
it. On a 64-bit target the cast is the identity and both readers do what the
length says. On a 32-bit target it drops the upper half, in front of the
completeness test and in front of the size limit, so a length of `2 ^ 32` or
more is read as a smaller one: the limit is compared with the wrong number and
the bytes behind the shortened payload are taken for the next frame.
-/

namespace NngCore.Proofs

open NngCore.Lib NngCore.Ref NngCore.Spec

variable {K S : Type} {w : PointerWidth} {fmt : FrameFormat}

/-- The first result a receiver returns is decided by the first header and what
stands behind it. -/
theorem At.first_result {hdr rest : List UInt8} {i : Inbound K S}
    {items : List (framing w fmt).Item} {p : List UInt8} {n : Nat}
    (h : At w fmt (hdr ++ rest) i items p n) (hh : hdr.length = fmt.needed)
    {r : Except TransportError Message} (hr : i.recv.results.head? = some r) :
    r = match payloadLen w fmt hdr with
      | .error e => .error e
      | .ok len =>
          if rest.length < len then .error .closed
          else .ok (Message.fromParts [] (rest.take len)) := by
  rw [h.results] at hr
  cases items with
  | nil =>
      -- nothing was answered for, so all that was returned is the end
      cases n with
      | zero => cases hr
      | succ n =>
          cases hr
          have hp : p = hdr ++ rest := by
            have hbytes := h.bytes
            rw [h.ended (Nat.succ_pos n), List.append_nil] at hbytes
            exact hbytes
          have hpart := h.sound.hold.isPartial
          rw [hp] at hpart
          have hpres : HeaderPresent fmt (hdr ++ rest) := by
            rw [HeaderPresent, List.length_append]
            omega
          obtain ⟨hdr', rest', len, heq, hh', hlen, hlt⟩ := partial_header hpart hpres
          obtain ⟨rfl, rfl⟩ := List.append_inj heq (hh.trans hh'.symm)
          simp only [hlen, if_pos hlt]
  | cons it items =>
      cases hr
      have hbytes := h.bytes
      rw [Framing.encode_cons, Framing.Item.symbols] at hbytes
      simp only [List.append_assoc] at hbytes
      obtain ⟨rfl, hrest⟩ := List.append_inj hbytes (it.header_len.trans hh.symm)
      cases hlen : payloadLen w fmt it.header with
      | error e => exact answer_error it hlen
      | ok len =>
          have hpay : len = it.payload.length :=
            (it.payload_len.trans (framing_payloadLen_ok hlen)).symm
          subst hpay
          have hge : ¬ rest.length < it.payload.length := by
            rw [← hrest, List.length_append]
            omega
          have htake : rest.take it.payload.length = it.payload := by
            rw [← hrest, List.take_left]
          simp only [answer_ok it hlen, if_neg hge, htake]

/-- What `recv` makes of a declared length, on a target of width `w`: what is
owed for the length as the target reads it. -/
theorem At.first_owed {len : Nat} {rest : List UInt8} {i : Inbound K S}
    {items : List (framing w fmt).Item} {p : List UInt8} {n : Nat}
    (hlen : len < 256 ^ 8) (h : At w fmt (wireHeader fmt len ++ rest) i items p n)
    {r : Except TransportError Message} (hr : i.recv.results.head? = some r) :
    r = owed (w.asUsize len) rest := by
  rw [h.first_result (length_wireHeader fmt len) hr, payloadLen_wireHeader w fmt hlen, owed]
  by_cases hbig : maxFrameBytes < w.asUsize len
  · rw [if_pos hbig, if_pos hbig]
  · rw [if_neg hbig, if_neg hbig]

/-- Reading on gets the first result out. -/
theorem first_owed_reached {len : Nat} {rest : List UInt8} (hlen : len < 256 ^ 8)
    {i : Inbound Unit Unit} {items : List (framing w fmt).Item} {p : List UInt8} {n : Nat}
    (h : At w fmt (wireHeader fmt len ++ rest) i items p n) :
    ∃ acts i', run (Inbound.step vecZeroed w fmt) i acts = some i' ∧
      i'.recv.results.head? = some (owed (w.asUsize len) rest) := by
  obtain ⟨acts, i', items', p', n', hrun, _, h'⟩ := h.drain sized_vecZeroed
  have hne : i'.recv.results ≠ [] := by
    rw [h'.results, List.replicate_succ]
    exact List.append_ne_nil_of_right_ne_nil _ (List.cons_ne_nil _ _)
  obtain ⟨r, hr⟩ := Option.ne_none_iff_exists'.mp (mt List.head?_eq_none_iff.mp hne)
  exact ⟨acts, i', hrun, by rw [hr, h'.first_owed hlen hr]⟩

/-- A target that reads the length unchanged honours it. -/
theorem honoursLength_of_asUsize {len : Nat} (hlen : len < 256 ^ 8)
    (hsame : w.asUsize len = len) : HonoursLength w len where
  decode rest := by
    rw [decodeFrame_append (length_beBytes 8 len), beNat_beBytes_of_lt hlen, hsame]
  recv fmt rest acts i hrun := by
    obtain ⟨items, p, n, h⟩ := at_run sized_vecZeroed hrun
    refine ⟨fun r hr => ?_, ?_⟩
    · rw [h.first_owed hlen hr, hsame]
    · obtain ⟨acts', i', hrun', hres⟩ := first_owed_reached hlen h
      exact ⟨acts', i', hrun', by rw [hres, hsame]⟩

/-- What is owed for two lengths over the limit's reach tells them apart. -/
theorem owed_inj {len len' : Nat} {rest : List UInt8} (hbig : maxFrameBytes < len)
    (h : owed len' rest = owed len rest) : len' = len := by
  rw [owed, owed, if_pos hbig] at h
  split at h
  · cases h
    rfl
  · split at h <;> cases h

theorem asUsize_lt (w : PointerWidth) (n : Nat) : w.asUsize n < 2 ^ w.bits :=
  Nat.mod_lt _ (Nat.two_pow_pos _)

/-- The declared length is honoured exactly on a 64-bit target, or when it
fits 32 bits. -/
theorem honoursLength_iff (w : PointerWidth) (len : UInt64) :
    HonoursLength w len.toNat ↔ w = .w64 ∨ len.toNat < 2 ^ 32 := by
  have hlen : len.toNat < 256 ^ 8 := len.toNat_lt
  constructor
  · intro h
    cases w with
    | w64 => exact Or.inl rfl
    | w32 =>
        refine Or.inr ?_
        by_contra hge
        have hmax : maxFrameBytes < 2 ^ 32 := by decide
        -- an empty stream behind the header, read to its end
        obtain ⟨acts, i, hrun, hres⟩ := first_owed_reached hlen
          (at_fresh (K := Unit) .w32 .tcp () (wireHeader .tcp len.toNat ++ []))
        have hfirst := (h.recv .tcp [] acts i hrun).1 _ hres
        have hsame := owed_inj (by omega) hfirst
        have hlt : PointerWidth.w32.asUsize len.toNat < 2 ^ 32 := asUsize_lt .w32 _
        omega
  · intro h
    refine honoursLength_of_asUsize hlen ?_
    rcases h with rfl | hlt
    · exact PointerWidth.asUsize_w64 hlen
    · have hw : 2 ^ 32 ≤ 2 ^ w.bits := by cases w <;> decide
      exact Nat.mod_eq_of_lt (Nat.lt_of_lt_of_le hlt hw)

/-- A header that declares `2 ^ 32` bytes, and nothing behind it: on a 32-bit
target that is a whole frame with an empty payload. -/
theorem length_lost_on_w32 : ¬ HonoursLength .w32 4294967296 := by
  intro h
  have hdecode := h.decode []
  rw [if_pos (by decide)] at hdecode
  have hempty : decodeFrame .w32 (beBytes 8 4294967296 ++ []) = .ok (⟨[], []⟩, 8) := by
    decide
  rw [hempty] at hdecode
  cases hdecode

end NngCore.Proofs
