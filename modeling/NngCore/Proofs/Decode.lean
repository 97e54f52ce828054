import NngCore.Proofs.Recv

/-!
# The receiver and the buffered decoder cut a stream alike

`recv` and `decode_frame` were written apart: one fills a header buffer and
allocates, the other compares lengths on a slice. What makes them agree is
that one turn of the decoding loop cuts off exactly one accepted item of the
receiver's framing (`nextFrame_eq_some`), and that a stream is cut into items
in one way only. The loop then stops in front of a refused header or of what
is left when no item is, and each of the two is an error `recv` reports there.

Reporting it is a matter of being asked: from any state, reading on to the end
of the stream gets an error out of the receiver, so the agreement is about all
of the stream and not about as much as some caller happened to read.
-/

namespace NngCore.Proofs

open NngCore.Lib NngCore.Ref NngCore.Spec

variable {K S : Type} {alloc : K → S → Nat → List UInt8 × S}
variable {w : PointerWidth} {fmt : FrameFormat}

/-! ## The header, seen by both -/

theorem typeOk_append {hdr t : List UInt8} (hh : hdr.length = fmt.needed) :
    typeOk fmt (hdr ++ t) = typeOk fmt hdr := by
  cases fmt with
  | tcp => rfl
  | ipc =>
      cases hdr with
      | nil => cases hh
      | cons b bs => rfl

theorem behindType_append {hdr t : List UInt8} (hh : hdr.length = fmt.needed) :
    behindType fmt (hdr ++ t) = behindType fmt hdr ++ t := by
  cases fmt with
  | tcp => rfl
  | ipc =>
      cases hdr with
      | nil => cases hh
      | cons b bs => rfl

theorem length_behindType {hdr : List UInt8} (hh : hdr.length = fmt.needed) :
    (behindType fmt hdr).length = 8 := by
  cases fmt with
  | tcp => exact hh
  | ipc =>
      show (hdr.drop 1).length = 8
      rw [List.length_drop, hh]
      rfl

theorem behindType_short {src : List UInt8} (h : src.length < fmt.needed) :
    (behindType fmt src).length < 8 := by
  cases fmt with
  | tcp => exact h
  | ipc =>
      show (src.drop 1).length < 8
      rw [List.length_drop]
      have h9 : src.length < 9 := h
      omega

theorem declared_append {hdr t : List UInt8} (hh : hdr.length = 8) :
    declared w (hdr ++ t) = w.asUsize (beNat hdr) := by
  rw [declared, ← hh, List.take_left]

/-- The middle of `recv_inner`, in the words of the decoding loop. -/
theorem payloadLen_eq {hdr : List UInt8} (hh : hdr.length = fmt.needed) :
    payloadLen w fmt hdr =
      if typeOk fmt hdr = true then
        if maxFrameBytes < w.asUsize (beNat (behindType fmt hdr)) then
          .error (.frameTooLarge (w.asUsize (beNat (behindType fmt hdr))))
        else .ok (w.asUsize (beNat (behindType fmt hdr)))
      else .error (.badFrameType (hdr.headD 0)) := by
  cases fmt with
  | tcp =>
      have htake : hdr.take 8 = hdr := List.take_of_length_le (Nat.le_of_eq hh)
      simp only [payloadLen, typeOk, behindType, htake, if_true]
      rfl
  | ipc =>
      cases hdr with
      | nil => cases hh
      | cons b bs =>
          have htake : bs.take 8 = bs :=
            List.take_of_length_le (Nat.le_of_eq (Nat.succ.inj hh))
          have hok : typeOk .ipc (b :: bs) = true ↔ b = 0x01 := by simp [typeOk]
          have hbehind : behindType .ipc (b :: bs) = bs := rfl
          simp only [payloadLen, List.headD_cons, List.drop_succ_cons, List.drop_zero,
            htake, hok, hbehind, ne_eq, ite_not, gt_iff_lt]

/-! ## One turn of the loop cuts off one accepted item -/

theorem nextFrame_append {hdr t : List UInt8} (hh : hdr.length = fmt.needed) :
    nextFrame w fmt (hdr ++ t) =
      match payloadLen w fmt hdr with
      | .error _ => none
      | .ok len =>
          if t.length < len then none
          else some (Message.fromParts [] (t.take len), t.drop len) := by
  have h8 := length_behindType hh
  rw [payloadLen_eq hh]
  simp only [nextFrame, typeOk_append hh, behindType_append hh, declared_append h8]
  by_cases htype : typeOk fmt hdr = true
  · rw [if_pos htype, htype, Bool.true_and]
    by_cases hbig : maxFrameBytes < w.asUsize (beNat (behindType fmt hdr))
    · rw [if_pos hbig, if_neg (by simpa using hbig)]
    · rw [if_neg hbig, if_pos (by simpa using hbig), decodeFrame_append h8]
      split
      · next hok =>
          split at hok
          · cases hok
          · next hlt =>
              cases hok
              have hdrop : (behindType fmt hdr ++ t).drop
                  (8 + w.asUsize (beNat (behindType fmt hdr))) =
                    t.drop (w.asUsize (beNat (behindType fmt hdr))) := by
                rw [← h8, List.drop_append]
                simp
              simp only [if_neg hlt, hdrop]
      · next herr =>
          split at herr
          · next hlt => simp only [if_pos hlt]
          · cases herr
  · rw [if_neg htype, if_neg (by simp [htype])]

theorem nextFrame_of_lt {src : List UInt8} (h : src.length < fmt.needed) :
    nextFrame w fmt src = none := by
  rw [nextFrame]
  split
  · rw [decodeFrame_of_lt (behindType_short h)]
  · rfl

/-- What the loop cuts off is one item, and the receiver's answer to it. -/
theorem nextFrame_eq_some {src rest : List UInt8} {m : Message} :
    nextFrame w fmt src = some (m, rest) ↔
      ∃ it : (framing w fmt).Item, it.symbols ++ rest = src ∧
        answer w fmt it = .ok m := by
  constructor
  · intro h
    by_cases hlen : src.length < fmt.needed
    · rw [nextFrame_of_lt hlen] at h
      cases h
    · have hh : (src.take fmt.needed).length = fmt.needed := by
        rw [List.length_take]
        omega
      rw [← List.take_append_drop fmt.needed src, nextFrame_append hh] at h
      split at h
      · cases h
      · next len hok =>
          split at h
          · cases h
          · next hge =>
              cases h
              let it : (framing w fmt).Item :=
                ⟨src.take fmt.needed, (src.drop fmt.needed).take len, hh, by
                  rw [framing_payloadLen_ok hok, List.length_take]
                  omega⟩
              refine ⟨it, ?_, answer_ok it hok⟩
              show src.take fmt.needed ++ (src.drop fmt.needed).take len ++
                (src.drop fmt.needed).drop len = src
              rw [List.append_assoc, List.take_append_drop, List.take_append_drop]
  · intro h
    obtain ⟨it, rfl, hans⟩ := h
    rw [Framing.Item.symbols, List.append_assoc, nextFrame_append it.header_len]
    cases hlen : payloadLen w fmt it.header with
    | error e =>
        rw [answer_error it hlen] at hans
        cases hans
    | ok len =>
        rw [answer_ok it hlen] at hans
        cases hans
        have hpay : len = it.payload.length :=
          (it.payload_len.trans (framing_payloadLen_ok hlen)).symm
        subst hpay
        have hge : ¬ (it.payload ++ rest).length < it.payload.length := by
          rw [List.length_append]
          omega
        simp only [if_neg hge, List.take_left, List.drop_left]

theorem nextFrame_stopped {p : List UInt8} (h : (framing w fmt).Partial p) :
    nextFrame w fmt p = none := by
  cases hnext : nextFrame w fmt p with
  | none => rfl
  | some out =>
      obtain ⟨it, hsrc, _⟩ := nextFrame_eq_some.mp (show _ = some (out.1, out.2) from hnext)
      exact absurd ⟨out.2, hsrc⟩ (h it)

theorem nextFrame_rejected {hdr t : List UInt8} {e : TransportError}
    (hh : hdr.length = fmt.needed) (herr : payloadLen w fmt hdr = .error e) :
    nextFrame w fmt (hdr ++ t) = none := by
  rw [nextFrame_append hh, herr]

/-! ## The whole loop -/

/-- The loop runs through accepted items and stops where no further one is. -/
theorem decodeLoop_items {xs : List (framing w fmt).Item} {ms : List Message}
    {q : List UInt8} {fuel : Nat} (hans : xs.map (answer w fmt) = ms.map .ok)
    (hstop : nextFrame w fmt q = none) (hfuel : xs.length ≤ fuel) :
    decodeLoop w fmt fuel ((framing w fmt).encode xs ++ q) = (ms, q) := by
  induction xs generalizing ms fuel with
  | nil =>
      have hms : ms = [] := List.map_eq_nil_iff.mp hans.symm
      subst hms
      cases fuel with
      | zero => rfl
      | succ fuel =>
          rw [Framing.encode_nil, List.nil_append, decodeLoop, hstop]
  | cons x xs ih =>
      cases ms with
      | nil => cases hans
      | cons m ms =>
          obtain ⟨hx, hxs⟩ := List.cons.inj hans
          cases fuel with
          | zero => exact absurd hfuel (Nat.not_succ_le_zero _)
          | succ fuel =>
              have hturn : nextFrame w fmt (x.symbols ++ ((framing w fmt).encode xs ++ q)) =
                  some (m, (framing w fmt).encode xs ++ q) :=
                nextFrame_eq_some.mpr ⟨x, rfl, hx⟩
              rw [Framing.encode_cons, List.append_assoc, decodeLoop, hturn]
              simp only [ih hxs (Nat.le_of_succ_le_succ hfuel)]

theorem decodeAll_items {xs : List (framing w fmt).Item} {ms : List Message}
    {q : List UInt8} (hans : xs.map (answer w fmt) = ms.map .ok)
    (hstop : nextFrame w fmt q = none) :
    decodeAll w fmt ((framing w fmt).encode xs ++ q) = (ms, q) := by
  refine decodeLoop_items hans hstop ?_
  rw [List.length_append]
  have hle := Framing.length_le_encode xs
  omega

/-- The answers to a list of items, up to the first refused header. -/
theorem split_answers (ys : List (framing w fmt).Item) :
    (∃ ms : List Message, ys.map (answer w fmt) = ms.map .ok) ∨
    ∃ xs bad more, ys = xs ++ bad :: more ∧
      (∃ ms : List Message, xs.map (answer w fmt) = ms.map .ok) ∧
      ∃ e, payloadLen w fmt bad.header = .error e := by
  induction ys with
  | nil => exact Or.inl ⟨[], rfl⟩
  | cons y ys ih =>
      cases hy : payloadLen w fmt y.header with
      | error e => exact Or.inr ⟨[], y, ys, rfl, ⟨[], rfl⟩, e, hy⟩
      | ok len =>
          have hans := answer_ok y hy
          rcases ih with ⟨ms, hms⟩ | ⟨xs, bad, more, rfl, ⟨ms, hms⟩, hbad⟩
          · refine Or.inl ⟨Message.fromParts [] y.payload :: ms, ?_⟩
            rw [List.map_cons, List.map_cons, hans, hms]
          · refine Or.inr ⟨y :: xs, bad, more, rfl,
              ⟨Message.fromParts [] y.payload :: ms, ?_⟩, hbad⟩
            rw [List.map_cons, List.map_cons, hans, hms]

/-- The symbols of a refused header are the header alone. -/
theorem symbols_rejected (it : (framing w fmt).Item) {e : TransportError}
    (h : payloadLen w fmt it.header = .error e) : it.symbols = it.header := by
  have hnil : it.payload = [] :=
    List.length_eq_zero_iff.mp (it.payload_len.trans (framing_payloadLen_error h))
  rw [Framing.Item.symbols, hnil, List.append_nil]

/-- Every stream is accepted items and then a place where the loop stops. -/
theorem exists_stop (w : PointerWidth) (fmt : FrameFormat) (src : List UInt8) :
    ∃ (xs : List (framing w fmt).Item) (ms : List Message) (q : List UInt8),
      src = (framing w fmt).encode xs ++ q ∧ xs.map (answer w fmt) = ms.map .ok ∧
        nextFrame w fmt q = none := by
  obtain ⟨ys, p, rfl, hp⟩ := Framing.exists_parse (F := framing w fmt) src
  rcases split_answers ys with ⟨ms, hms⟩ | ⟨xs, bad, more, rfl, ⟨ms, hms⟩, e, hbad⟩
  · exact ⟨ys, ms, p, rfl, hms, nextFrame_stopped hp⟩
  · refine ⟨xs, ms, bad.header ++ ((framing w fmt).encode more ++ p), ?_, hms,
      nextFrame_rejected bad.header_len hbad⟩
    rw [Framing.encode_append, Framing.encode_cons, symbols_rejected bad hbad]
    simp only [List.append_assoc]

/-- Accepted items in front of a stream are the first messages of it. -/
theorem decodeAll_append {xs : List (framing w fmt).Item} {ms : List Message}
    (hans : xs.map (answer w fmt) = ms.map .ok) (src : List UInt8) :
    (decodeAll w fmt ((framing w fmt).encode xs ++ src)).1 =
      ms ++ (decodeAll w fmt src).1 := by
  obtain ⟨ys, ns, q, rfl, hns, hstop⟩ := exists_stop w fmt src
  have hboth : (xs ++ ys).map (answer w fmt) = (ms ++ ns).map .ok := by
    rw [List.map_append, List.map_append, hans, hns]
  rw [decodeAll_items hns hstop, ← List.append_assoc, ← Framing.encode_append,
    decodeAll_items hboth hstop]

/-- The start of a stream decodes to the first messages of the stream. -/
theorem decodeAll_mono {seen src : List UInt8} (h : seen <+: src) :
    (decodeAll w fmt seen).1 <+: (decodeAll w fmt src).1 := by
  obtain ⟨t, rfl⟩ := h
  obtain ⟨xs, ms, q, rfl, hms, hstop⟩ := exists_stop w fmt seen
  rw [decodeAll_items hms hstop, List.append_assoc, decodeAll_append hms]
  exact List.prefix_append _ _

/-! ## The error owed where the loop stops -/

theorem firstError_rejected {hdr t : List UInt8} {e : TransportError}
    (hh : hdr.length = fmt.needed) (herr : payloadLen w fmt hdr = .error e) :
    FirstError w fmt (hdr ++ t) e := by
  have hpres : HeaderPresent fmt (hdr ++ t) := by
    rw [HeaderPresent, List.length_append]
    omega
  have htype := typeOk_append (t := t) hh
  have hdecl : declared w (behindType fmt (hdr ++ t)) =
      w.asUsize (beNat (behindType fmt hdr)) := by
    rw [behindType_append hh, declared_append (length_behindType hh)]
  rw [payloadLen_eq hh] at herr
  split at herr
  · next hok =>
      rw [← htype] at hok
      split at herr
      · next hbig =>
          cases herr
          refine ⟨fun len => ⟨fun h => ?_, fun h => ?_⟩, fun b => ⟨nofun, fun h => ?_⟩,
            ⟨nofun, fun h => absurd rfl (h.1 _)⟩, nofun⟩
          · cases h
            exact ⟨hpres, hok, hdecl, hbig⟩
          · rw [← h.2.2.1, hdecl]
          · obtain ⟨rfl, _, hhead, hne⟩ := h
            simp only [typeOk, hhead, decide_eq_true_eq, Option.some.injEq] at hok
            exact absurd hok hne
      · cases herr
  · next hbad =>
      cases herr
      refine ⟨fun len => ⟨nofun, fun h => absurd (htype ▸ h.2.1) hbad⟩, fun b => ?_,
        ⟨nofun, fun h => absurd rfl (h.2 _)⟩, nofun⟩
      cases fmt with
      | tcp => exact absurd rfl hbad
      | ipc =>
          cases hdr with
          | nil => cases hh
          | cons c cs =>
              have hne : c ≠ 0x01 := by simpa [typeOk] using hbad
              refine ⟨fun h => ?_, fun h => ?_⟩
              · cases h
                exact ⟨rfl, hpres, rfl, hne⟩
              · have hhead : some c = some b := h.2.2.1
                cases hhead
                rfl

/-- Where no item is left and the header is there, it is accepted and its
payload is not all there. -/
theorem partial_header {p : List UInt8} (h : (framing w fmt).Partial p)
    (hpres : HeaderPresent fmt p) :
    ∃ hdr t len, p = hdr ++ t ∧ hdr.length = fmt.needed ∧
      payloadLen w fmt hdr = .ok len ∧ t.length < len := by
  have hh : (p.take fmt.needed).length = fmt.needed := by
    rw [List.length_take]
    exact Nat.min_eq_left hpres
  have hcut : p.take fmt.needed ++ p.drop fmt.needed = p := List.take_append_drop _ _
  cases hlen : payloadLen w fmt (p.take fmt.needed) with
  | error e =>
      let it : (framing w fmt).Item :=
        ⟨p.take fmt.needed, [], hh, (framing_payloadLen_error hlen).symm⟩
      refine absurd ?_ (h it)
      rw [symbols_rejected it hlen]
      exact List.take_prefix _ _
  | ok len =>
      refine ⟨_, _, len, hcut.symm, hh, hlen, Nat.lt_of_not_le fun hle => ?_⟩
      have hnext := nextFrame_stopped h
      rw [← hcut, nextFrame_append hh, hlen] at hnext
      simp only [if_neg (Nat.not_lt.mpr hle)] at hnext
      cases hnext

theorem firstError_of_stopped {p : List UInt8} (h : (framing w fmt).Partial p) :
    FirstError w fmt p .closed := by
  by_cases hpres : HeaderPresent fmt p
  · obtain ⟨hdr, t, len, rfl, hh, hlen, hlt⟩ := partial_header h hpres
    have h8 := length_behindType hh
    rw [payloadLen_eq hh] at hlen
    split at hlen
    · next hok =>
        rw [← typeOk_append (t := t) hh] at hok
        split at hlen
        · cases hlen
        · next hsmall =>
            cases hlen
            refine ⟨fun len => ⟨nofun, fun h => ?_⟩, fun b => ⟨nofun, fun h => ?_⟩,
              ⟨fun _ => ⟨nofun, nofun⟩, fun _ => rfl⟩, fun _ => ?_⟩
            · rw [behindType_append hh, declared_append h8] at h
              exact absurd (h.2.2.1 ▸ h.2.2.2) hsmall
            · obtain ⟨rfl, _, hhead, hne⟩ := h
              simp only [typeOk, hhead, decide_eq_true_eq, Option.some.injEq] at hok
              exact absurd hok hne
            · rw [behindType_append hh, decodeFrame_append h8, if_pos hlt]
    · cases hlen
  · refine ⟨fun len => ⟨nofun, fun h => absurd h.1 hpres⟩,
      fun b => ⟨nofun, fun h => absurd h.2.1 hpres⟩,
      ⟨fun _ => ⟨nofun, nofun⟩, fun _ => rfl⟩, fun _ => ?_⟩
    exact decodeFrame_of_lt (behindType_short (Nat.lt_of_not_le hpres))

/-! ## The agreement -/

theorem upToError_ok_append (ms : List Message)
    (rs : List (Except TransportError Message)) :
    upToError (ms.map .ok ++ rs) = (ms ++ (upToError rs).1, (upToError rs).2) := by
  induction ms with
  | nil => rfl
  | cons m ms ih =>
      rw [List.map_cons, List.cons_append, upToError, ih]
      rfl

theorem upToError_closed (n : Nat) :
    upToError (List.replicate n (.error .closed)) =
      ([], if n = 0 then none else some .closed) := by
  cases n <;> rfl

/-- What a receiver has returned, next to what the loop makes of the stream. -/
theorem At.agrees {src : List UInt8} {i : Inbound K S}
    {items : List (framing w fmt).Item} {p : List UInt8} {n : Nat}
    (h : At w fmt src i items p n) :
    (upToError i.recv.results).1 <+: (decodeAll w fmt src).1 ∧
      ∀ e, (upToError i.recv.results).2 = some e →
        (upToError i.recv.results).1 = (decodeAll w fmt src).1 ∧
          FirstError w fmt (decodeAll w fmt src).2 e := by
  rw [h.results]
  rcases split_answers items with ⟨ms, hms⟩ | ⟨xs, bad, more, hitems, ⟨ms, hms⟩, e, hbad⟩
  · rw [hms, upToError_ok_append, upToError_closed, List.append_nil]
    refine ⟨?_, fun e he => ?_⟩
    · rw [← h.bytes, List.append_assoc, decodeAll_append hms]
      exact List.prefix_append _ _
    · -- the only error is the end of the stream, so all of it was read
      have hn : n ≠ 0 := by
        intro h0
        simp only [h0, if_true, reduceCtorEq] at he
      simp only [if_neg hn, Option.some.injEq] at he
      subst he
      have hpart := h.sound.hold.isPartial
      have hall : decodeAll w fmt src = (ms, p) := by
        rw [← h.bytes, h.ended (Nat.pos_of_ne_zero hn), List.append_nil]
        exact decodeAll_items hms (nextFrame_stopped hpart)
      rw [hall]
      exact ⟨rfl, firstError_of_stopped hpart⟩
  · have hsrc : src = (framing w fmt).encode xs ++
        (bad.header ++ ((framing w fmt).encode more ++ p ++ i.input)) := by
      rw [← h.bytes, hitems, Framing.encode_append, Framing.encode_cons,
        symbols_rejected bad hbad]
      simp only [List.append_assoc]
    have hall : decodeAll w fmt src =
        (ms, bad.header ++ ((framing w fmt).encode more ++ p ++ i.input)) := by
      rw [hsrc]
      exact decodeAll_items hms (nextFrame_rejected bad.header_len hbad)
    have hres : upToError (items.map (answer w fmt) ++
        List.replicate n (.error .closed)) = (ms, some e) := by
      rw [hitems, List.map_append, List.map_cons, answer_error bad hbad, hms,
        List.append_assoc, upToError_ok_append]
      simp only [List.cons_append, upToError, List.append_nil]
    rw [hres, hall]
    refine ⟨List.prefix_rfl, fun e' he' => ⟨rfl, ?_⟩⟩
    cases he'
    exact firstError_rejected bad.header_len hbad

/-- Once the end of the stream was reported there is a first error. -/
theorem At.error_of_ended {src : List UInt8} {i : Inbound K S}
    {items : List (framing w fmt).Item} {p : List UInt8} {n : Nat}
    (h : At w fmt src i items p (n + 1)) :
    ∃ e, (upToError i.recv.results).2 = some e := by
  rw [h.results]
  rcases split_answers items with ⟨ms, hms⟩ | ⟨xs, bad, more, hitems, ⟨ms, hms⟩, e, hbad⟩
  · exact ⟨.closed, by rw [hms, upToError_ok_append, upToError_closed]; rfl⟩
  · refine ⟨e, ?_⟩
    rw [hitems, List.map_append, List.map_cons, answer_error bad hbad, hms,
      List.append_assoc, upToError_ok_append]
    rfl

/-- Streaming and buffered decoding agree on arbitrary bytes, for either
format, under every chunking of the reads and every pattern of abandoned
receives: no index is out of range, what `recv` returned before the first error
is a first part of what the loop decodes, it is all of it once there is an
error, that error is the one owed where the loop stopped, and from every state
the caller can get it by reading on. -/
theorem recv_agrees_decodeAll (fmt : FrameFormat) (src : List UInt8)
    (acts : List (InAct Unit)) (i : Inbound Unit Unit)
    (hrun : run (Inbound.step vecZeroed .w64 fmt) (.fresh () src) acts = some i) :
    i.recv.panicked = false ∧
      (upToError i.recv.results).1 <+: (decodeAll .w64 fmt src).1 ∧
      (∀ e, (upToError i.recv.results).2 = some e →
        (upToError i.recv.results).1 = (decodeAll .w64 fmt src).1 ∧
          FirstError .w64 fmt (decodeAll .w64 fmt src).2 e) ∧
      ∃ acts' i' e, run (Inbound.step vecZeroed .w64 fmt) i acts' = some i' ∧
        (upToError i'.recv.results).2 = some e := by
  obtain ⟨items, p, n, h⟩ := at_run sized_vecZeroed hrun
  obtain ⟨acts', i', items', p', n', hrun', _, h'⟩ := h.drain sized_vecZeroed
  obtain ⟨e, he⟩ := h'.error_of_ended
  exact ⟨h.sound.alive, h.agrees.1, h.agrees.2, acts', i', e, hrun', he⟩

/-- A frame whose header arrives in two pieces, with a receive dropped between
them, and behind it a header of another type. -/
theorem recv_agrees_decodeAll_bad_type :
    FirstError .w64 .ipc
      (decodeAll .w64 .ipc
        [1, 0, 0, 0, 0, 0, 0, 0, 1, 7, 2, 0, 0, 0, 0, 0, 0, 0, 0]).2
      (.badFrameType 2) :=
  ((recv_agrees_decodeAll .ipc
    [1, 0, 0, 0, 0, 0, 0, 0, 1, 7, 2, 0, 0, 0, 0, 0, 0, 0, 0]
    [.call (), .read 4, .drop, .call (), .read 5, .read 1, .call (), .read 9]
    ⟨⟨⟨.idle, #v[2, 0, 0, 0, 0, 0, 0, 0, 0], 9, [], 1⟩, (), none,
      [.ok ⟨[], [7]⟩, .error (.badFrameType 2)], false⟩, []⟩
    (by decide)).2.2.1 (.badFrameType 2) rfl).2

end NngCore.Proofs
