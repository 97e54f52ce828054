import NngCore.Spec.Codec

/-!
# The frame codec on a 64-bit target

Everything comes down to one lemma, `decodeFrame_w64`: a buffer of eight bytes
or more is a length word and a rest, and a length word of eight bytes spells
one number and is spelled by one. Both directions of the round trip, the
stability under appended bytes and the truncation are that lemma read with
different rests.
-/

namespace NngCore.Proofs

open NngCore.Lib NngCore.Ref NngCore.Spec

theorem len_lt_of_representable {m : Message} (h : Representable m) :
    m.len < 256 ^ 8 := by
  have hmax : 2 ^ 63 + 2 ^ 63 ≤ 256 ^ 8 := by decide
  have hlen : m.len = m.header.length + m.body.length := rfl
  have hsum := Nat.add_lt_add h.1 h.2
  omega

theorem length_encodeFrame (m : Message) : (encodeFrame m).length = 8 + m.len := by
  rw [encodeFrame_eq, List.length_append, length_beBytes, Message.length_payload]

/-- A length word and what stands behind it. -/
theorem decodeFrame_w64 {len : Nat} {rest : List UInt8} (hlen : len < 256 ^ 8) :
    decodeFrame .w64 (beBytes 8 len ++ rest) =
      if rest.length < len then .error .incomplete
      else .ok (Message.fromParts [] (rest.take len), 8 + len) := by
  rw [decodeFrame_append (length_beBytes 8 len), beNat_beBytes_of_lt hlen,
    PointerWidth.asUsize_w64 hlen]

/-- A source of eight bytes or more starts with the spelling of a length. -/
theorem exists_length_word {src : List UInt8} (h : 8 ≤ src.length) :
    ∃ len rest, len < 256 ^ 8 ∧ src = beBytes 8 len ++ rest := by
  have htake : (src.take 8).length = 8 := by rw [List.length_take, Nat.min_eq_left h]
  refine ⟨beNat (src.take 8), src.drop 8, beNat_lt_of_length htake, ?_⟩
  rw [beBytes_beNat htake, List.take_append_drop]

/-- One encoded frame, decoded in front of whatever follows it. -/
theorem decodeFrame_encodeFrame_append {m : Message} (h : Representable m)
    (rest : List UInt8) :
    decodeFrame .w64 (encodeFrame m ++ rest) = .ok (m.received, (encodeFrame m).length) := by
  have hge : ¬ (m.payload ++ rest).length < m.len := by
    rw [List.length_append, Message.length_payload]
    omega
  have htake : (m.payload ++ rest).take m.len = m.payload := by
    rw [← Message.length_payload, List.take_left]
  rw [length_encodeFrame, encodeFrame_eq, List.append_assoc,
    decodeFrame_w64 (len_lt_of_representable h), if_neg hge, htake]
  rfl

theorem decodeFrames_flatMap_encodeFrame (trailing : List UInt8) :
    ∀ {ms : List Message}, (∀ m ∈ ms, Representable m) →
      decodeFrames .w64 ms.length (ms.flatMap encodeFrame ++ trailing) =
        .ok (ms.map fun m => (m.received, (encodeFrame m).length), trailing)
  | [], _ => rfl
  | m :: ms, h => by
      have hm := decodeFrame_encodeFrame_append (h m List.mem_cons_self)
        (ms.flatMap encodeFrame ++ trailing)
      have hms := decodeFrames_flatMap_encodeFrame trailing
        (fun m' hm' => h m' (List.mem_cons_of_mem m hm'))
      rw [List.flatMap_cons, List.append_assoc, List.length_cons, decodeFrames, hm]
      simp only [List.drop_left, hms, List.map_cons]

/-- What is decoded is spelled by the bytes it took. -/
theorem decodeFrame_eq_ok {src : List UInt8} {m : Message} {n : Nat}
    (h : decodeFrame .w64 src = .ok (m, n)) :
    n ≤ src.length ∧ encodeFrame m = src.take n ∧
      ∀ more, decodeFrame .w64 (src ++ more) = .ok (m, n) := by
  by_cases hshort : src.length < 8
  · rw [decodeFrame_of_lt hshort] at h
    cases h
  obtain ⟨len, rest, hlen, rfl⟩ := exists_length_word (Nat.le_of_not_lt hshort)
  rw [decodeFrame_w64 hlen] at h
  split at h
  · cases h
  next hge =>
    cases h
    have hle : len ≤ rest.length := Nat.le_of_not_lt hge
    have hpay : (rest.take len).length = len := by
      rw [List.length_take, Nat.min_eq_left hle]
    refine ⟨?_, ?_, fun more => ?_⟩
    · rw [List.length_append, length_beBytes]
      omega
    · have hspell : encodeFrame (Message.fromParts [] (rest.take len)) =
          beBytes 8 len ++ rest.take len := by
        rw [encodeFrame_eq]
        show beBytes 8 (0 + (rest.take len).length) ++ ([] ++ rest.take len) = _
        rw [hpay, Nat.zero_add, List.nil_append]
      have htake : (beBytes 8 len).take (8 + len) = beBytes 8 len := by
        refine List.take_of_length_le ?_
        rw [length_beBytes]
        omega
      rw [hspell, List.take_append, htake, length_beBytes, Nat.add_sub_cancel_left]
    · have hge' : ¬ (rest ++ more).length < len := by
        rw [List.length_append]
        omega
      rw [List.append_assoc, decodeFrame_w64 hlen, if_neg hge',
        List.take_append_of_le_length hle]

/-- A frame cut off anywhere in front of its end is incomplete. -/
theorem decodeFrame_truncated {m : Message} {part : List UInt8} (hm : Representable m)
    (hpre : part <+: encodeFrame m) (hne : part ≠ encodeFrame m) :
    decodeFrame .w64 part = .error .incomplete := by
  have hlt : part.length < (encodeFrame m).length :=
    Nat.lt_of_le_of_ne hpre.length_le (fun h => hne (hpre.eq_of_length h))
  cases hdec : decodeFrame .w64 part with
  | ok r =>
      -- decoded with the cut-off bytes put back, the frame would be shorter than it is
      obtain ⟨m', n⟩ := r
      obtain ⟨rest, hrest⟩ := hpre
      obtain ⟨hn, -, hmore⟩ := decodeFrame_eq_ok hdec
      have hfull := decodeFrame_encodeFrame_append hm []
      rw [List.append_nil, ← hrest, hmore rest, hrest] at hfull
      cases hfull
      omega
  | error e =>
      by_cases hshort : part.length < 8
      · rw [decodeFrame_of_lt hshort] at hdec
        cases hdec
        rfl
      obtain ⟨len, rest, hlen, rfl⟩ := exists_length_word (Nat.le_of_not_lt hshort)
      rw [decodeFrame_w64 hlen] at hdec
      split at hdec
      all_goals
        cases hdec
      rfl

theorem frame_codec_selfDelimiting : SelfDelimiting .w64 where
  decode_encode _ trailing h := decodeFrames_flatMap_encodeFrame trailing h
  encode_decode _ _ _ h := decodeFrame_eq_ok h
  truncated _ _ hm hpre hne := decodeFrame_truncated hm hpre hne

/-- Two messages with a byte behind them, and the first one with its last byte missing. -/
theorem frame_codec_selfDelimiting_two :
    decodeFrames .w64 2 ([⟨[1], [2, 3]⟩, ⟨[], []⟩].flatMap encodeFrame ++ [9]) =
        .ok ([(⟨[], [1, 2, 3]⟩, 11), (⟨[], []⟩, 8)], [9]) ∧
      decodeFrame .w64 [0, 0, 0, 0, 0, 0, 0, 3, 1, 2] = .error .incomplete :=
  ⟨frame_codec_selfDelimiting.decode_encode [⟨[1], [2, 3]⟩, ⟨[], []⟩] [9] (by decide),
    frame_codec_selfDelimiting.truncated ⟨[1], [2, 3]⟩ _ (by decide) ⟨[3], by decide⟩
      (by decide)⟩

end NngCore.Proofs
