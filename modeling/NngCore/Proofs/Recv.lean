import NngCore.Spec.FrameStream

/-!
# The receiver keeps its place

One statement carries everything below about `recv`: whatever the chunks, the
drops and the errors in between, the bytes a transport has taken from its
stream are the items it has answered for, in order, followed by the part of
the next one that `RecvBuf` holds. `At` is that statement, and it
is an invariant of every step the transport's owner can take.

The pieces of `recv_inner` are specified once each, in terms of the bytes they
have in hand. A piece stops in one of two ways (`Stops`): suspended, with the
bytes in hand saved in the buffer and not yet a whole item, or returning the
answer to the item they make up. No piece panics: the slices it takes are in
range because the loop tests say so.

What the body buffer holds beyond the filled part never matters, so nothing is
asked of the allocating closure but the length it was told.
-/

namespace NngCore.Proofs

open NngCore.Lib NngCore.Ref NngCore.Spec

variable {K S : Type} {alloc : K → S → Nat → List UInt8 × S}
variable {w : PointerWidth} {fmt : FrameFormat}

/-- The closure returns a buffer of the length it is asked for. -/
def Sized (alloc : K → S → Nat → List UInt8 × S) : Prop :=
  ∀ k s n, (alloc k s n).1.length = n

theorem sized_vecZeroed : Sized vecZeroed := fun _ _ _ => List.length_replicate

/-- The buffer holds exactly `p` of the next item, and `p` is not all of it. -/
def Holds (w : PointerWidth) (fmt : FrameFormat) (rx : RecvBuf) (p : List UInt8) :
    Prop :=
  match rx.phase with
  | .idle => p = []
  | .len => rx.lenFilled < fmt.needed ∧ p = rx.lenBuf.toList.take rx.lenFilled
  | .body => rx.bodyFilled < rx.body.length ∧
      ∃ hdr, hdr.length = fmt.needed ∧ payloadLen w fmt hdr = .ok rx.body.length ∧
        p = hdr ++ rx.body.take rx.bodyFilled

/-- The buffer is in the phase of the await, and the slice is what is open. -/
def Awaits (fmt : FrameFormat) (rx : RecvBuf) : RecvAwait → Nat → Prop
  | .len, room => rx.phase = .len ∧ room = fmt.needed - rx.lenFilled
  | .body, room => rx.phase = .body ∧ room = rx.body.length - rx.bodyFilled

/-- How a piece of `recv_inner` with the bytes `p` in hand may stop. -/
inductive Stops (w : PointerWidth) (fmt : FrameFormat) (p : List UInt8) :
    RecvBuf × RecvPoll → Prop where
  | pending {rx : RecvBuf} {point : RecvAwait} {room : Nat} (hold : Holds w fmt rx p)
      (await : Awaits fmt rx point room) : Stops w fmt p (rx, .pending point room)
  | ready {rx : RecvBuf} (it : (framing w fmt).Item) (idle : rx.phase = .idle)
      (hp : it.symbols = p) : Stops w fmt p (rx, .ready (answer w fmt it))

/-! ## The header check reads the header and nothing behind it -/

theorem needed_le_nine (fmt : FrameFormat) : fmt.needed ≤ 9 := by
  cases fmt <;> decide

theorem payloadLen_take {buf : List UInt8} (h : buf.length = 9) :
    payloadLen w fmt (buf.take fmt.needed) = payloadLen w fmt buf := by
  cases fmt with
  | tcp =>
      simp only [payloadLen, FrameFormat.needed, List.take_take]
      rfl
  | ipc =>
      have hall : buf.take FrameFormat.ipc.needed = buf :=
        List.take_of_length_le (Nat.le_of_eq h)
      rw [hall]

theorem length_wireHeader (fmt : FrameFormat) (len : Nat) :
    (wireHeader fmt len).length = fmt.needed := by
  cases fmt <;> simp [wireHeader, FrameFormat.needed]

/-- What a header declares, as a target of width `w` reads it. -/
theorem payloadLen_wireHeader (w : PointerWidth) (fmt : FrameFormat) {len : Nat}
    (h : len < 256 ^ 8) :
    payloadLen w fmt (wireHeader fmt len) =
      if maxFrameBytes < w.asUsize len then .error (.frameTooLarge (w.asUsize len))
      else .ok (w.asUsize len) := by
  have hall : (beBytes 8 len).take 8 = beBytes 8 len :=
    List.take_of_length_le (Nat.le_of_eq (length_beBytes 8 len))
  cases fmt with
  | tcp =>
      have htake : (wireHeader .tcp len).take 8 = beBytes 8 len := hall
      simp only [payloadLen, htake, beNat_beBytes_of_lt h]
  | ipc =>
      have htake : ((wireHeader .ipc len).drop 1).take 8 = beBytes 8 len := hall
      have hkind : (wireHeader .ipc len).headD 0 = 0x01 := rfl
      simp only [payloadLen, htake, hkind, beNat_beBytes_of_lt h, ne_eq,
        not_true_eq_false, if_false]

theorem framing_payloadLen_ok {hdr : List UInt8} {n : Nat}
    (h : payloadLen w fmt hdr = .ok n) : (framing w fmt).payloadLen hdr = n := by
  simp only [framing, h]

theorem framing_payloadLen_error {hdr : List UInt8} {e : TransportError}
    (h : payloadLen w fmt hdr = .error e) : (framing w fmt).payloadLen hdr = 0 := by
  simp only [framing, h]

theorem answer_ok (it : (framing w fmt).Item) {n : Nat}
    (h : payloadLen w fmt it.header = .ok n) :
    answer w fmt it = .ok (Message.fromParts [] it.payload) := by
  simp only [answer, h]

theorem answer_error (it : (framing w fmt).Item) {e : TransportError}
    (h : payloadLen w fmt it.header = .error e) : answer w fmt it = .error e := by
  simp only [answer, h]

/-- What the buffer holds never contains a whole item. -/
theorem Holds.isPartial {rx : RecvBuf} {p : List UInt8} (h : Holds w fmt rx p) :
    (framing w fmt).Partial p := by
  rw [Holds] at h
  split at h
  · rw [h]
    exact Framing.partial_nil
  · obtain ⟨hlt, rfl⟩ := h
    refine Framing.partial_of_length_lt ?_
    show (rx.lenBuf.toList.take rx.lenFilled).length < fmt.needed
    rw [List.length_take]
    omega
  · obtain ⟨hlt, hdr, hh, hok, rfl⟩ := h
    refine Framing.partial_of_payload_lt hh ?_
    rw [framing_payloadLen_ok hok, List.length_take]
    omega

/-! ## The pieces of `recv_inner` -/

/-- Phase 2 from its loop test: the header was accepted, and the buffer is
filled up to `bodyFilled`. -/
theorem recvBody_stops (rx : RecvBuf) {hdr : List UInt8} (hphase : rx.phase = .body)
    (hh : hdr.length = fmt.needed) (hok : payloadLen w fmt hdr = .ok rx.body.length)
    (hfill : rx.bodyFilled ≤ rx.body.length) :
    Stops w fmt (hdr ++ rx.body.take rx.bodyFilled) (recvBody rx) := by
  rw [recvBody]
  split
  · next hlt =>
      have hslice : sliceLen rx.body.length rx.bodyFilled rx.body.length =
          some (rx.body.length - rx.bodyFilled) := if_pos ⟨hfill, Nat.le_refl _⟩
      rw [hslice]
      refine .pending ?_ ⟨hphase, rfl⟩
      simp only [Holds, hphase]
      exact ⟨hlt, hdr, hh, hok, rfl⟩
  · next hge =>
      have hall : rx.body.take rx.bodyFilled = rx.body :=
        List.take_of_length_le (by omega)
      rw [hall]
      let it : (framing w fmt).Item :=
        ⟨hdr, rx.body, hh, (framing_payloadLen_ok hok).symm⟩
      have hans : answer w fmt it = .ok (Message.fromParts [] rx.body) :=
        answer_ok it hok
      rw [← hans]
      exact .ready it rfl rfl

/-- Phase 1 from its loop test, through into phase 2. -/
theorem recvLen_stops (halloc : Sized alloc) (k : K) (s : S) (rx : RecvBuf)
    (hphase : rx.phase = .len) (hfill : rx.lenFilled ≤ fmt.needed) :
    Stops w fmt (rx.lenBuf.toList.take rx.lenFilled)
      (recvLen alloc w fmt k s rx).2 := by
  have h9 : rx.lenBuf.toList.length = 9 := by simp
  rw [recvLen]
  split
  · next hlt =>
      have hslice : sliceLen 9 rx.lenFilled fmt.needed =
          some (fmt.needed - rx.lenFilled) := if_pos ⟨hfill, needed_le_nine fmt⟩
      rw [hslice]
      refine .pending ?_ ⟨hphase, rfl⟩
      simp only [Holds, hphase]
      exact ⟨hlt, trivial⟩
  · next hge =>
      have hfull : rx.lenBuf.toList.take rx.lenFilled =
          rx.lenBuf.toList.take fmt.needed := by
        rw [Nat.le_antisymm hfill (Nat.le_of_not_lt hge)]
      have hh : (rx.lenBuf.toList.take fmt.needed).length = fmt.needed := by
        rw [List.length_take, h9]
        exact Nat.min_eq_left (needed_le_nine fmt)
      rw [hfull, ← payloadLen_take h9]
      split
      · next e herr =>
          let it : (framing w fmt).Item :=
            ⟨rx.lenBuf.toList.take fmt.needed, [], hh,
              (framing_payloadLen_error herr).symm⟩
          have hans : answer w fmt it = .error e := answer_error it herr
          rw [← hans]
          exact .ready it rfl (List.append_nil _)
      · next len hok =>
          have hbody := recvBody_stops
            { rx with body := (alloc k s len).1, bodyFilled := 0, phase := .body }
            rfl hh (by rw [hok, halloc k s len]) (Nat.zero_le _)
          rw [List.take_zero, List.append_nil] at hbody
          exact hbody

/-- Starting a receive with the bytes `p` in the buffer waits for more: they
were not a whole item when they were put there. -/
theorem recvInner_pending (alloc : K → S → Nat → List UInt8 × S) (k : K) (s : S)
    {rx : RecvBuf} {p : List UInt8} (h : Holds w fmt rx p) :
    ∃ rx' point room, recvInner alloc w fmt k s rx = (s, rx', .pending point room) ∧
      Holds w fmt rx' p ∧ Awaits fmt rx' point room := by
  have hpos : 0 < fmt.needed := (framing w fmt).headerLen_pos
  cases hphase : rx.phase with
  | idle =>
      simp only [Holds, hphase] at h
      subst h
      refine ⟨{ rx with lenFilled := 0, phase := .len }, .len, fmt.needed, ?_, ?_, ?_⟩
      · simp only [recvInner, recvLen, if_pos hphase, if_pos hpos, sliceLen,
          if_true, if_pos (show 0 ≤ fmt.needed ∧ fmt.needed ≤ 9 from
            ⟨Nat.zero_le _, needed_le_nine fmt⟩), Nat.sub_zero]
      · simp only [Holds]
        exact ⟨hpos, (List.take_zero).symm⟩
      · exact ⟨rfl, rfl⟩
  | len =>
      have hold := h
      simp only [Holds, hphase] at h
      refine ⟨rx, .len, fmt.needed - rx.lenFilled, ?_, hold, hphase, rfl⟩
      simp only [recvInner, recvLen, hphase, reduceCtorEq, if_false, if_true, if_pos h.1,
        sliceLen, if_pos (show rx.lenFilled ≤ fmt.needed ∧ fmt.needed ≤ 9 from
          ⟨Nat.le_of_lt h.1, needed_le_nine fmt⟩)]
  | body =>
      have hold := h
      simp only [Holds, hphase] at h
      refine ⟨rx, .body, rx.body.length - rx.bodyFilled, ?_, hold, hphase, rfl⟩
      simp only [recvInner, recvBody, hphase, reduceCtorEq, if_false, if_pos h.1,
        sliceLen, if_pos (show rx.bodyFilled ≤ rx.body.length ∧
          rx.body.length ≤ rx.body.length from ⟨Nat.le_of_lt h.1, Nat.le_refl _⟩)]

/-- Resuming with a non-empty piece that fits the slice: the piece is appended
to what was in hand. -/
theorem recvResume_stops (halloc : Sized alloc) (k : K) (s : S) {rx : RecvBuf}
    {p bs : List UInt8} {point : RecvAwait} {room : Nat} (h : Holds w fmt rx p)
    (hawait : Awaits fmt rx point room) (hne : bs ≠ []) (hfit : bs.length ≤ room) :
    Stops w fmt (p ++ bs) (recvResume alloc w fmt k s rx point (.ok bs)).2 := by
  have hlen0 : ¬ bs.length = 0 := by
    intro h0
    exact hne (List.length_eq_zero_iff.mp h0)
  simp only [recvResume, if_neg hlen0]
  cases point with
  | len =>
      obtain ⟨hphase, rfl⟩ := hawait
      simp only [Holds, hphase] at h
      obtain ⟨hlt, rfl⟩ := h
      have h9 := needed_le_nine fmt
      have htake : (overwriteVec rx.lenBuf rx.lenFilled bs).toList.take
          (rx.lenFilled + bs.length) = rx.lenBuf.toList.take rx.lenFilled ++ bs := by
        rw [toList_overwriteVec]
        refine take_overwrite ?_
        simp only [Vector.length_toList]
        omega
      have hstop := recvLen_stops (w := w) halloc k s
        { rx with
          lenBuf := overwriteVec rx.lenBuf rx.lenFilled bs
          lenFilled := rx.lenFilled + bs.length }
        hphase (show rx.lenFilled + bs.length ≤ fmt.needed by omega)
      rw [htake] at hstop
      exact hstop
  | body =>
      obtain ⟨hphase, rfl⟩ := hawait
      simp only [Holds, hphase] at h
      obtain ⟨hlt, hdr, hh, hok, rfl⟩ := h
      have htake : (overwrite rx.body rx.bodyFilled bs).take
          (rx.bodyFilled + bs.length) = rx.body.take rx.bodyFilled ++ bs :=
        take_overwrite (by omega)
      have hstop := recvBody_stops
        { rx with
          body := overwrite rx.body rx.bodyFilled bs
          bodyFilled := rx.bodyFilled + bs.length }
        hphase hh (by rw [hok, length_overwrite])
        (show rx.bodyFilled + bs.length ≤ (overwrite rx.body rx.bodyFilled bs).length by
          rw [length_overwrite]; omega)
      rw [htake, ← List.append_assoc] at hstop
      exact hstop

/-! ## One step of the transport's owner -/

/-- The transport is in order with the bytes `p` of the next item in hand. -/
structure Sound (w : PointerWidth) (fmt : FrameFormat) (r : Receiver K S)
    (p : List UInt8) : Prop where
  alive : r.panicked = false
  hold : Holds w fmt r.rx p
  await : ∀ fut, r.live = some fut → Awaits fmt r.rx fut.point fut.room

theorem sound_fresh (s : S) : Sound w fmt (Receiver.fresh (K := K) s) [] where
  alive := rfl
  hold := rfl
  await := fun _ h => by cases h

/-- Everything a step of the transport's owner can do, in terms of the bytes in
hand and the results returned. -/
inductive RecvStep (w : PointerWidth) (fmt : FrameFormat) :
    List UInt8 → RecvAct K → List UInt8 → List (Except TransportError Message) → Prop
    where
  | call {p : List UInt8} (k : K) : RecvStep w fmt p (.call k) p []
  | drop {p : List UInt8} : RecvStep w fmt p .drop p []
  | failed {p : List UInt8} (e : String) :
      RecvStep w fmt p (.read (.err e)) p [.error (.io e)]
  | ended {p : List UInt8} : RecvStep w fmt p (.read (.ok [])) p [.error .closed]
  | more {p bs : List UInt8} (hne : bs ≠ []) :
      RecvStep w fmt p (.read (.ok bs)) (p ++ bs) []
  | item {p bs : List UInt8} (it : (framing w fmt).Item) (hp : it.symbols = p ++ bs)
      (hne : bs ≠ []) : RecvStep w fmt p (.read (.ok bs)) [] [answer w fmt it]

/-- A piece that stopped leaves the transport in order. -/
theorem settle_of_stops {r : Receiver K S} (halive : r.panicked = false) (k : K)
    {s : S} {p : List UInt8} {out : RecvBuf × RecvPoll} (h : Stops w fmt p out) :
    (Sound w fmt (r.settle k (s, out)) p ∧ (r.settle k (s, out)).results = r.results) ∨
    (∃ it : (framing w fmt).Item, it.symbols = p ∧ Sound w fmt (r.settle k (s, out)) [] ∧
      (r.settle k (s, out)).results = r.results ++ [answer w fmt it]) := by
  cases h with
  | pending hold hawait =>
      refine Or.inl ⟨⟨halive, hold, ?_⟩, rfl⟩
      intro fut hfut
      cases hfut
      exact hawait
  | @ready rx it hidle hp =>
      refine Or.inr ⟨it, hp, ⟨halive, ?_, ?_⟩, rfl⟩
      · show Holds w fmt rx []
        simp only [Holds, hidle]
      · intro fut hfut
        cases hfut

/-- Everything a step of the owner can do. -/
theorem receiver_moved {r r' : Receiver K S} {a : RecvAct K}
    (h : r.step alloc w fmt a = some r') :
    (∃ k, a = .call k ∧ r.live = none ∧ r.panicked = false ∧
      r' = r.settle k (recvInner alloc w fmt k r.captured r.rx)) ∨
    (∃ res fut, a = .read res ∧ r.live = some fut ∧ res.fits fut.room = true ∧
      r' = r.settle fut.method
        (recvResume alloc w fmt fut.method r.captured r.rx fut.point res)) ∨
    (∃ fut, a = .drop ∧ r.live = some fut ∧ r' = { r with live := none }) := by
  cases a with
  | call k =>
      simp only [Receiver.step] at h
      split at h
      · cases h
      · next hlive =>
          split at h
          · cases h
          · next halive =>
              cases h
              exact Or.inl ⟨k, rfl, hlive, Bool.eq_false_of_not_eq_true halive, rfl⟩
  | read res =>
      simp only [Receiver.step] at h
      split at h
      · cases h
      · next fut hlive =>
          split at h
          · next hfits =>
              cases h
              exact Or.inr (Or.inl ⟨res, fut, rfl, hlive, hfits, rfl⟩)
          · cases h
  | drop =>
      simp only [Receiver.step] at h
      split at h
      · cases h
      · next fut hlive =>
          cases h
          exact Or.inr (Or.inr ⟨fut, rfl, hlive, rfl⟩)

/-- Every step of the owner is one of the abstract steps. -/
theorem Sound.step (halloc : Sized alloc) {r r' : Receiver K S} {p : List UInt8}
    {a : RecvAct K} (h : Sound w fmt r p) (hstep : r.step alloc w fmt a = some r') :
    ∃ p' rs, RecvStep w fmt p a p' rs ∧ Sound w fmt r' p' ∧
      r'.results = r.results ++ rs := by
  rcases receiver_moved hstep with ⟨k, rfl, -, -, rfl⟩ | ⟨res, fut, rfl, hlive, hfits, rfl⟩ |
    ⟨fut, rfl, -, rfl⟩
  · obtain ⟨rx', point, room, hout, hhold, hawait⟩ :=
      recvInner_pending alloc k r.captured h.hold
    rw [hout]
    refine ⟨p, [], .call k, ⟨h.alive, hhold, ?_⟩, (List.append_nil _).symm⟩
    intro fut hfut
    cases hfut
    exact hawait
  · cases res with
    | err e =>
        refine ⟨p, _, .failed e, ⟨h.alive, h.hold, ?_⟩, rfl⟩
        intro fut' hfut'
        cases hfut'
    | ok bs =>
        by_cases hne : bs = []
        · subst hne
          refine ⟨p, _, .ended, ⟨h.alive, h.hold, ?_⟩, rfl⟩
          intro fut' hfut'
          cases hfut'
        · have hstop := recvResume_stops halloc fut.method r.captured h.hold
            (h.await fut hlive) hne (by simpa [ReadResult.fits] using hfits)
          rcases settle_of_stops h.alive fut.method hstop with
            ⟨hsound, hres⟩ | ⟨it, hp, hsound, hres⟩
          · exact ⟨p ++ bs, [], .more hne, hsound, hres.trans (List.append_nil _).symm⟩
          · exact ⟨[], _, .item it hp hne, hsound, hres⟩
  · refine ⟨p, [], .drop, ⟨h.alive, h.hold, ?_⟩, (List.append_nil _).symm⟩
    intro fut hfut
    cases hfut

/-! ## Reading a stream

The same statement with the stream in view. The bytes read are the items
answered for and the part of the next one in hand; what `recv` has returned is
their answers, and behind them only the reports of the end of the stream,
which can come only when nothing is left to read. -/

/-- Where a receiver stands in the stream `src`. -/
structure At (w : PointerWidth) (fmt : FrameFormat) (src : List UInt8)
    (i : Inbound K S) (items : List (framing w fmt).Item) (p : List UInt8) (n : Nat) :
    Prop where
  sound : Sound w fmt i.recv p
  bytes : (framing w fmt).encode items ++ p ++ i.input = src
  results : i.recv.results =
    items.map (answer w fmt) ++ List.replicate n (.error .closed)
  ended : 0 < n → i.input = []

theorem at_fresh (w : PointerWidth) (fmt : FrameFormat) (s : S) (src : List UInt8) :
    At w fmt src (Inbound.fresh (K := K) s src) [] [] 0 where
  sound := sound_fresh s
  bytes := rfl
  results := rfl
  ended := fun h => absurd h (Nat.lt_irrefl 0)

/-- The bytes a step takes off the stream. -/
def taken : RecvAct K → List UInt8
  | .read (.ok bs) => bs
  | _ => []

/-- What the stream lets the receiver do: take what it is handed off the front
of the input, never fail, and report the end only when there is none left. -/
theorem request_taken {i : Inbound K S} {a : InAct K} {act : RecvAct K}
    {rest : List UInt8} (h : i.request a = some (act, rest)) :
    i.input = taken act ++ rest ∧ (act = .read (.ok []) → a = .eof ∧ rest = []) ∧
      ∀ e, act ≠ .read (.err e) := by
  cases a with
  | call k =>
      cases h
      exact ⟨rfl, nofun, nofun⟩
  | drop =>
      cases h
      exact ⟨rfl, nofun, nofun⟩
  | eof =>
      simp only [Inbound.request] at h
      split at h
      · next hnil =>
          cases h
          exact ⟨hnil, fun _ => ⟨rfl, rfl⟩, nofun⟩
      · cases h
  | read m =>
      simp only [Inbound.request] at h
      split at h
      · next hm =>
          cases h
          refine ⟨(List.take_append_drop m i.input).symm, ?_, nofun⟩
          intro h0
          injection h0 with h0
          injection h0 with h0
          have hlen := congrArg List.length h0
          rw [List.length_take, List.length_nil] at hlen
          omega
      · cases h

theorem inbound_step_eq {i i' : Inbound K S} {a : InAct K}
    (h : i.step alloc w fmt a = some i') :
    ∃ act, i.request a = some (act, i'.input) ∧
      i.recv.step alloc w fmt act = some i'.recv := by
  simp only [Inbound.step] at h
  split at h
  · cases h
  · next act input hreq =>
      split at h
      · cases h
      · next recv hrecv =>
          cases h
          exact ⟨act, hreq, hrecv⟩

/-- A step moves the receiver along its stream; only the end of the stream adds
to the reports of it. -/
theorem At.step (halloc : Sized alloc) {src : List UInt8} {i i' : Inbound K S}
    {items : List (framing w fmt).Item} {p : List UInt8} {n : Nat} {a : InAct K}
    (h : At w fmt src i items p n) (hstep : i.step alloc w fmt a = some i') :
    ∃ items' p' n', At w fmt src i' items' p' n' ∧ (a ≠ .eof → n' = n) := by
  obtain ⟨act, hreq, hrecv⟩ := inbound_step_eq hstep
  obtain ⟨hin, hend, hnofail⟩ := request_taken hreq
  obtain ⟨p', rs, hkind, hsound, hres⟩ := h.sound.step halloc hrecv
  rw [h.results] at hres
  have hbytes := h.bytes
  -- Bytes are only read while some are left, so no end was reported before.
  have hlive : taken act ≠ [] → n = 0 := by
    intro hne
    rcases Nat.eq_zero_or_pos n with h0 | hpos
    · exact h0
    · have hnil := h.ended hpos
      rw [hin] at hnil
      exact absurd (List.append_eq_nil_iff.mp hnil).1 hne
  have hquiet : taken act = [] → rs = [] → Sound w fmt i'.recv p →
      ∃ items' p' n', At w fmt src i' items' p' n' ∧ (a ≠ .eof → n' = n) := by
    intro hnone hnothing hp
    rw [hnone, List.nil_append] at hin
    rw [hnothing, List.append_nil] at hres
    rw [hin] at hbytes
    exact ⟨items, p, n, ⟨hp, hbytes, hres, fun hpos => hin ▸ h.ended hpos⟩, fun _ => rfl⟩
  cases hkind with
  | call k => exact hquiet rfl rfl hsound
  | drop => exact hquiet rfl rfl hsound
  | failed e => exact absurd rfl (hnofail e)
  | ended =>
      have hsame : i.input = i'.input := hin
      rw [hsame] at hbytes
      refine ⟨items, p, n + 1, ⟨hsound, hbytes, ?_, fun _ => (hend rfl).2⟩,
        fun hne => absurd (hend rfl).1 hne⟩
      rw [hres, List.append_assoc, ← List.replicate_succ']
  | @more bs hne =>
      have hcut : i.input = bs ++ i'.input := hin
      have hn := hlive hne
      subst hn
      refine ⟨items, p ++ bs, 0, ⟨hsound, ?_, by rw [hres, List.append_nil],
        fun hpos => absurd hpos (Nat.lt_irrefl 0)⟩, fun _ => rfl⟩
      rw [← hbytes, hcut]
      simp only [List.append_assoc]
  | @item bs it hp hne =>
      have hcut : i.input = bs ++ i'.input := hin
      have hn := hlive hne
      subst hn
      refine ⟨items ++ [it], [], 0, ⟨hsound, ?_, ?_,
        fun hpos => absurd hpos (Nat.lt_irrefl 0)⟩, fun _ => rfl⟩
      · rw [← hbytes, hcut, Framing.encode_concat, hp]
        simp only [List.append_assoc, List.nil_append]
      · rw [hres, List.map_append]
        simp only [List.replicate_zero, List.append_nil, List.map_cons, List.map_nil]

/-- A receiver is always somewhere in its stream, whatever run got it there. -/
theorem at_run (halloc : Sized alloc) {src : List UInt8} {s : S} {acts : List (InAct K)}
    {i : Inbound K S}
    (hrun : run (Inbound.step alloc w fmt) (.fresh s src) acts = some i) :
    ∃ items p n, At w fmt src i items p n :=
  run_invariant (I := fun i => ∃ items p n, At w fmt src i items p n)
    ⟨[], [], 0, at_fresh w fmt s src⟩
    (fun _ _ _ ⟨_, _, _, h⟩ hstep =>
      let ⟨items, p, n, h', _⟩ := h.step halloc hstep
      ⟨items, p, n, h'⟩) hrun

/-! ## Reading on

Nothing ever gets stuck: a transport with no receive in progress can be asked
for one, a receive in progress has room for a byte, and at the end of the
stream it returns. So from anywhere in the stream there is a way to its end,
one byte at a time. -/

theorem room_pos {rx : RecvBuf} {p : List UInt8} {point : RecvAwait} {room : Nat}
    (h : Holds w fmt rx p) (hawait : Awaits fmt rx point room) : 0 < room := by
  cases point with
  | len =>
      obtain ⟨hphase, rfl⟩ := hawait
      simp only [Holds, hphase] at h
      omega
  | body =>
      obtain ⟨hphase, rfl⟩ := hawait
      simp only [Holds, hphase] at h
      omega

theorem At.call (alloc : K → S → Nat → List UInt8 × S) {src : List UInt8}
    {i : Inbound K S} {items : List (framing w fmt).Item} {p : List UInt8} {n : Nat}
    (h : At w fmt src i items p n) (hlive : i.recv.live = none) (k : K) :
    ∃ i' fut, i.step alloc w fmt (.call k) = some i' ∧ i'.recv.live = some fut ∧
      i'.input = i.input ∧ At w fmt src i' items p n := by
  obtain ⟨rx', point, room, hout, hhold, hawait⟩ :=
    recvInner_pending alloc k i.recv.captured h.sound.hold
  refine ⟨⟨{ i.recv with rx := rx', live := some ⟨k, point, room⟩ }, i.input⟩,
    ⟨k, point, room⟩, ?_, rfl, rfl, ⟨h.sound.alive, hhold, ?_⟩, h.bytes, h.results,
    h.ended⟩
  · simp only [Inbound.step, Inbound.request, Receiver.step, hlive, h.sound.alive, hout,
      Receiver.settle, Bool.false_eq_true, if_false]
  · intro fut hfut
    cases hfut
    exact hawait

theorem At.readByte (halloc : Sized alloc) {src : List UInt8} {i : Inbound K S}
    {items : List (framing w fmt).Item} {p : List UInt8} {n : Nat} {fut : LiveRecv K}
    {b : UInt8} {rest : List UInt8} (h : At w fmt src i items p n)
    (hlive : i.recv.live = some fut) (hin : i.input = b :: rest) :
    ∃ i' items' p' n', i.step alloc w fmt (.read 1) = some i' ∧ i'.input = rest ∧
      At w fmt src i' items' p' n' := by
  have hroom := room_pos h.sound.hold (h.sound.await fut hlive)
  have hfits : (ReadResult.ok [b]).fits fut.room = true := by
    simp only [ReadResult.fits, List.length_singleton, decide_eq_true_eq]
    exact hroom
  have hstep : ∃ i', i.step alloc w fmt (.read 1) = some i' ∧ i'.input = rest := by
    have hreq : i.request (.read 1) = some (.read (.ok [b]), rest) := by
      simp [Inbound.request, hin]
    simp only [Inbound.step, hreq, Receiver.step, hlive, hfits, if_true]
    exact ⟨_, rfl, rfl⟩
  obtain ⟨i', hi', hrest⟩ := hstep
  obtain ⟨items', p', n', h', _⟩ := h.step halloc hi'
  exact ⟨i', items', p', n', hi', hrest, h'⟩

theorem At.eof (alloc : K → S → Nat → List UInt8 × S) {src : List UInt8}
    {i : Inbound K S} {items : List (framing w fmt).Item} {p : List UInt8} {n : Nat}
    {fut : LiveRecv K} (h : At w fmt src i items p n) (hlive : i.recv.live = some fut)
    (hin : i.input = []) :
    ∃ i', i.step alloc w fmt .eof = some i' ∧ i'.input = [] ∧
      At w fmt src i' items p (n + 1) := by
  refine ⟨⟨{ i.recv with
      live := none
      results := i.recv.results ++ [.error .closed] }, []⟩, ?_, rfl,
    ⟨h.sound.alive, h.sound.hold, nofun⟩, ?_, ?_, fun _ => rfl⟩
  · simp only [Inbound.step, Inbound.request, hin, if_true, Receiver.step, hlive,
      ReadResult.fits, List.length_nil, Nat.zero_le, decide_true, recvResume,
      Receiver.settle]
  · show (framing w fmt).encode items ++ p ++ [] = src
    rw [← h.bytes, hin]
  · show i.recv.results ++ [.error .closed] = _
    rw [h.results, List.append_assoc, ← List.replicate_succ']

/-- A receive is in progress, or one call away. -/
theorem At.asking [Inhabited K] (alloc : K → S → Nat → List UInt8 × S)
    {src : List UInt8} {i : Inbound K S} {items : List (framing w fmt).Item}
    {p : List UInt8} {n : Nat} (h : At w fmt src i items p n) :
    ∃ acts i' fut, run (Inbound.step alloc w fmt) i acts = some i' ∧
      i'.recv.live = some fut ∧ i'.input = i.input ∧ At w fmt src i' items p n := by
  cases hlive : i.recv.live with
  | none =>
      obtain ⟨i', fut, hcall, hlive', hsame, h'⟩ := h.call alloc hlive default
      exact ⟨[.call default], i', fut, run_singleton.mpr hcall, hlive', hsame, h'⟩
  | some fut => exact ⟨[], i, fut, rfl, hlive, rfl, h⟩

/-- From anywhere in the stream, read it to its end and be told so. -/
theorem At.drain [Inhabited K] (halloc : Sized alloc) {src : List UInt8}
    {i : Inbound K S} {items : List (framing w fmt).Item} {p : List UInt8} {n : Nat}
    (h : At w fmt src i items p n) :
    ∃ acts i' items' p' n', run (Inbound.step alloc w fmt) i acts = some i' ∧
      i'.input = [] ∧ At w fmt src i' items' p' (n' + 1) := by
  induction hlen : i.input.length using Nat.strong_induction_on
    generalizing i items p n with
  | _ m ih =>
      obtain ⟨acts₁, i₁, fut, hrun₁, hlive, hsame, h₁⟩ := h.asking alloc
      cases hin : i.input with
      | nil =>
          obtain ⟨i₂, heof, hend, h₂⟩ := h₁.eof alloc hlive (hsame.trans hin)
          exact ⟨acts₁ ++ [.eof], i₂, items, p, n,
            run_append.mpr ⟨i₁, hrun₁, run_singleton.mpr heof⟩, hend, h₂⟩
      | cons b rest =>
          obtain ⟨i₂, items₂, p₂, n₂, hread, hrest, h₂⟩ :=
            h₁.readByte halloc hlive (hsame.trans hin)
          have hless : i₂.input.length < m := by
            rw [← hlen, hrest, hin]
            exact Nat.lt_succ_self _
          obtain ⟨acts, i', items', p', n', hrun, hend, h'⟩ :=
            ih i₂.input.length hless h₂ rfl
          exact ⟨acts₁ ++ .read 1 :: acts, i', items', p', n',
            run_append.mpr ⟨i₁, hrun₁, run_cons.mpr ⟨i₂, hread, hrun⟩⟩, hend, h'⟩

end NngCore.Proofs
