import NngCore.Proofs.Endpoint
import NngCore.Proofs.Sub0
import NngCore.Spec.Stranger

/-!
# Eight bytes from a stranger

`decode_handshake` is exact: it takes back what `encode_handshake` makes and
nothing else. So the eight bytes a call has read are its peer's handshake if it
goes on, and otherwise one of three things is wrong with them.
-/

namespace NngCore.Proofs

open NngCore.Lib NngCore.Ref NngCore.Spec

variable {w : PointerWidth} {fmt : FrameFormat}

/-! ## The decoder is exact -/

theorem toList_encodeHandshake (p : ProtocolId) :
    (encodeHandshake p).toList = magic.toList ++ beBytes 2 p.id.toNat ++ [0, 0] := by
  rw [encodeHandshake, Vector.toList_mk, List.toList_toArray]

theorem take_encodeHandshake (p : ProtocolId) :
    (encodeHandshake p).toList.take 4 = magic.toList := by
  rw [toList_encodeHandshake, List.append_assoc]
  exact List.take_left' rfl

theorem drop_encodeHandshake (p : ProtocolId) :
    (encodeHandshake p).toList.drop 6 = [0, 0] := by
  rw [toList_encodeHandshake]
  refine List.drop_left' ?_
  rw [List.length_append, length_beBytes]
  rfl

theorem exists_eight {l : List UInt8} (h : l.length = 8) :
    ∃ b₀ b₁ b₂ b₃ hi lo b₆ b₇, l = [b₀, b₁, b₂, b₃, hi, lo, b₆, b₇] :=
  match l, h with
  | [_, _, _, _, _, _, _, _], _ => ⟨_, _, _, _, _, _, _, _, rfl⟩

/-- The decoder, byte by byte. -/
theorem decodeHandshake_eq {buf : Vector UInt8 8} {b₀ b₁ b₂ b₃ hi lo b₆ b₇ : UInt8}
    (h : buf.toList = [b₀, b₁, b₂, b₃, hi, lo, b₆, b₇]) :
    decodeHandshake buf =
      if [b₀, b₁, b₂, b₃] ≠ magic.toList then .error .invalidMagic
      else if [b₆, b₇] ≠ [0, 0] then .error .reservedNotZero
      else .ok ⟨UInt16.ofNat (beNat [hi, lo])⟩ := by
  have hbuf : buf = ⟨#[b₀, b₁, b₂, b₃, hi, lo, b₆, b₇], rfl⟩ := Vector.toList_inj.mp h
  subst hbuf
  have hmagic : [b₀, b₁, b₂, b₃] ≠ magic.toList ↔
      b₀ ≠ 0x00 ∨ b₁ ≠ 0x53 ∨ b₂ ≠ 0x50 ∨ b₃ ≠ 0x00 := by
    show ¬ [b₀, b₁, b₂, b₃] = [0x00, 0x53, 0x50, 0x00] ↔ _
    simp only [List.cons.injEq, and_true, Classical.not_and_iff_not_or_not, ne_eq]
  have hzero : [b₆, b₇] ≠ [0, 0] ↔ b₆ ≠ 0 ∨ b₇ ≠ 0 := by
    simp only [ne_eq, List.cons.injEq, and_true, Classical.not_and_iff_not_or_not]
  simp only [hmagic, hzero]
  rfl

/-- What the decoder says of eight bytes, one of three. -/
theorem decodeHandshake_cases (buf : Vector UInt8 8) :
    (decodeHandshake buf = .error .invalidMagic ∧ buf.toList.take 4 ≠ magic.toList) ∨
    (decodeHandshake buf = .error .reservedNotZero ∧ buf.toList.take 4 = magic.toList ∧
      buf.toList.drop 6 ≠ [0, 0]) ∨
    ∃ p, decodeHandshake buf = .ok p ∧ buf.toList = (encodeHandshake p).toList := by
  obtain ⟨b₀, b₁, b₂, b₃, hi, lo, b₆, b₇, hlist⟩ := exists_eight (length_handshake buf)
  rw [decodeHandshake_eq hlist, hlist]
  split
  · next hmagic => exact Or.inl ⟨rfl, hmagic⟩
  · next hmagic =>
      have htake : [b₀, b₁, b₂, b₃] = magic.toList := not_not.mp hmagic
      split
      · next hzero => exact Or.inr (Or.inl ⟨rfl, htake, hzero⟩)
      · next hzero =>
          have hdrop : [b₆, b₇] = [0, 0] := not_not.mp hzero
          refine Or.inr (Or.inr ⟨_, rfl, ?_⟩)
          have hword : beBytes 2 (UInt16.ofNat (beNat [hi, lo])).toNat = [hi, lo] := by
            have hlt : beNat [hi, lo] < 2 ^ 16 := beNat_lt_of_length (k := 2) rfl
            rw [UInt16.toNat_ofNat', Nat.mod_eq_of_lt hlt, beBytes_beNat (k := 2) rfl]
          rw [toList_encodeHandshake, hword, ← htake, ← hdrop]
          rfl

/-- What `connect` returns for its eight bytes. -/
theorem connectDone_cases (loc : ProtocolId) (rx : Vector UInt8 8) :
    (connectDone loc rx = .ok () ∧ rx.toList = (encodeHandshake loc.expectedPeer).toList) ∨
    ∃ err, connectDone loc rx = .error err ∧
      Refused loc (encodeHandshake loc).toList rx.toList err := by
  have hlen : rx.toList.length = 8 := length_handshake rx
  rcases decodeHandshake_cases rx with ⟨hdec, hmagic⟩ | ⟨hdec, hmagic, hzero⟩ | ⟨p, hdec, hrx⟩
  · refine Or.inr ⟨_, ?_, .noMagic rfl hlen hmagic⟩
    rw [connectDone, hdec]
  · refine Or.inr ⟨_, ?_, .reserved rfl hlen hmagic hzero⟩
    rw [connectDone, hdec]
  · have hrx' : rx = encodeHandshake p := Vector.toList_inj.mp hrx
    by_cases hpeer : p = loc.expectedPeer
    · subst hpeer
      refine Or.inl ⟨?_, hrx⟩
      rw [hrx', connectDone_encodeHandshake, if_pos rfl]
    · refine Or.inr ⟨_, ?_, .incompatible rfl hrx hpeer⟩
      rw [hrx', connectDone_encodeHandshake, if_neg hpeer]

/-! ## Where a side stands -/

/-- The same as `StandsAt`, with what the running call has in hand. -/
def StrangerOk (w : PointerWidth) (fmt : FrameFormat) (e : Endpoint) : Prop :=
  match e.state with
  | .connecting (.writing k) =>
      k < 8 ∧ e.wrote = (encodeHandshake e.loc).toList.take k ∧ e.took = []
  | .connecting (.reading rx k) =>
      k < 8 ∧ e.wrote = (encodeHandshake e.loc).toList ∧ e.took = rx.toList.take k
  | .failed err => Refused e.loc e.wrote e.took err
  | .connected recv _ =>
      (encodeHandshake e.loc).toList <+: e.wrote ∧
        e.took.take 8 = (encodeHandshake e.loc.expectedPeer).toList ∧
        ∃ items p, FramedAt w fmt ⟨recv, e.took.drop 8⟩ items p

theorem StrangerOk.standsAt {e : Endpoint} (h : StrangerOk w fmt e) : StandsAt w fmt e := by
  unfold StrangerOk at h
  unfold StandsAt
  split at h
  · next k hstate =>
      rw [hstate]
      obtain ⟨-, hwrote, htook⟩ := h
      rw [hwrote, htook]
      exact ⟨List.take_prefix _ _, by decide⟩
  · next rx k hstate =>
      rw [hstate]
      obtain ⟨hk, hwrote, htook⟩ := h
      rw [hwrote, htook, List.length_take, length_handshake]
      exact ⟨List.prefix_rfl, by omega⟩
  · next err hstate =>
      rw [hstate]
      exact h
  · next recv sending hstate =>
      rw [hstate]
      obtain ⟨hwrote, htook, items, p, hat⟩ := h
      exact ⟨hwrote, htook, hat.ownFrames⟩

theorem strangerOk_start (loc : ProtocolId) : StrangerOk w fmt (.start loc) := by
  have hstart : connectStart loc = .pending (.writing 0) := by
    rw [connectStart, connectWrite, length_handshake]
    rfl
  rw [Endpoint.start, hstart]
  exact ⟨by decide, rfl, rfl⟩

/-- A side that has just read its eighth byte, or is short of it. -/
theorem strangerOk_read {e : Endpoint} {rx : Vector UInt8 8} {k : Nat} (hk : k ≤ 8)
    (hwrote : e.wrote = (encodeHandshake e.loc).toList) (htook : e.took = rx.toList.take k) :
    StrangerOk w fmt (e.settle (connectRead e.loc rx k)) := by
  rw [connectRead, length_handshake]
  split
  · next hlt => exact ⟨hlt, hwrote, htook⟩
  · next hge =>
      have hall : e.took = rx.toList := by
        rw [htook]
        exact List.take_of_length_le (by rw [length_handshake]; omega)
      rcases connectDone_cases e.loc rx with ⟨hdone, hrx⟩ | ⟨err, hdone, hrefused⟩
      · rw [hdone]
        refine ⟨hwrote ▸ List.prefix_rfl, ?_, [], [], ?_⟩
        · show e.took.take 8 = _
          rw [hall, hrx]
          exact List.take_of_length_le (by rw [length_handshake])
        · have hdrop : e.took.drop 8 = [] := by
            rw [hall]
            exact List.drop_of_length_le (by rw [length_handshake])
          show FramedAt w fmt ⟨.fresh (), e.took.drop 8⟩ [] []
          rw [hdrop]
          exact framedAt_fresh
      · rw [hdone]
        show Refused e.loc e.wrote e.took err
        rw [hwrote, hall]
        exact hrefused

theorem refused_unwritten {loc : ProtocolId} {k : Nat} (hk : k < 8) {err : TransportError}
    (he : err = .closed ∨ ∃ text, err = .io text) :
    Refused loc ((encodeHandshake loc).toList.take k) [] err := by
  refine .unwritten he (List.take_prefix _ _) (fun heq => ?_) rfl
  have hlen := congrArg List.length heq
  rw [List.length_take, length_handshake] at hlen
  omega

theorem strangerOk_written {e e' : Endpoint} {n : Nat} (h : StrangerOk w fmt e)
    (hle : n ≤ e.offered.length) (hw : e.written (.ok n) = some e') :
    StrangerOk w fmt { e' with wrote := e'.wrote ++ e.offered.take n } := by
  obtain ⟨loc, state, sent, wrote, took⟩ := e
  match state with
  | .connecting (.writing k) =>
      have hat : k < 8 ∧ wrote = (encodeHandshake loc).toList.take k ∧ took = [] := h
      obtain ⟨hk, rfl, rfl⟩ := hat
      cases hw
      have hk' : k + n ≤ 8 := by
        simp only [Endpoint.offered, List.length_drop, length_handshake] at hle
        omega
      have hmore : (encodeHandshake loc).toList.take k ++
          ((encodeHandshake loc).toList.drop k).take n =
            (encodeHandshake loc).toList.take (k + n) := List.take_add.symm
      cases n with
      | zero =>
          show Refused loc ((encodeHandshake loc).toList.take k ++
            ((encodeHandshake loc).toList.drop k).take 0) [] .closed
          rw [hmore]
          exact refused_unwritten hk (Or.inl rfl)
      | succ m =>
          simp only [connectWritten, connectWrite, length_handshake]
          split
          · next hlt => exact ⟨hlt, hmore, rfl⟩
          · next hge =>
              have hall : (encodeHandshake loc).toList.take (k + (m + 1)) =
                  (encodeHandshake loc).toList :=
                List.take_of_length_le (by rw [length_handshake]; omega)
              exact ⟨by decide, hmore.trans hall, rfl⟩
  | .connected recv (some fut) =>
      obtain ⟨hwrote, hrest⟩ := h
      have hwrote' := hwrote.trans (List.prefix_append wrote (fut.offered.take n))
      cases hw
      cases hres : fut.resume (.ok n) with
      | pending fut' => exact ⟨hwrote', hrest⟩
      | ready r => exact ⟨hwrote', hrest⟩

theorem strangerOk_broken {e e' : Endpoint} {err : String} (h : StrangerOk w fmt e)
    (hw : e.written (.err err) = some e') : StrangerOk w fmt e' := by
  obtain ⟨loc, state, sent, wrote, took⟩ := e
  match state with
  | .connecting (.writing k) =>
      have hat : k < 8 ∧ wrote = (encodeHandshake loc).toList.take k ∧ took = [] := h
      obtain ⟨hk, rfl, rfl⟩ := hat
      cases hw
      exact refused_unwritten hk (Or.inr ⟨err, rfl⟩)
  | .connected recv (some fut) =>
      cases hw
      cases hres : fut.resume (.err err) with
      | pending fut' => exact h
      | ready r => exact h

/-- The receiver of a side that has its transport has made a step. -/
theorem strangerOk_received {e : Endpoint} {recv recv' : Receiver Unit Unit}
    (h : StrangerOk w fmt e) (hstate : e.state = .connected recv none) {a : RecvAct Unit}
    (hstep : recv.step vecZeroed w fmt a = some recv') :
    StrangerOk w fmt
      { e with state := .connected recv' none, took := e.took ++ a.bytes } := by
  obtain ⟨loc, state, sent, wrote, took⟩ := e
  cases hstate
  obtain ⟨hwrote, htook, items, p, hat⟩ := h
  have htook' : took.take 8 = (encodeHandshake loc.expectedPeer).toList := htook
  have hlen : 8 ≤ took.length := by
    have hlen := congrArg List.length htook'
    rw [List.length_take, length_handshake] at hlen
    omega
  refine ⟨hwrote, ?_, ?_⟩
  · show (took ++ a.bytes).take 8 = _
    rw [List.take_append_of_le_length hlen]
    exact htook
  · have hconn : (FramedConn.mk recv (took.drop 8)).step w fmt a =
        some ⟨recv', took.drop 8 ++ a.bytes⟩ := by
      simp only [FramedConn.step, hstep]
    show ∃ items p, FramedAt w fmt ⟨recv', (took ++ a.bytes).drop 8⟩ items p
    rw [List.drop_append_of_le_length hlen]
    exact hat.step hconn

theorem strangerOk_got {e e' : Endpoint} {bs : List UInt8} (h : StrangerOk w fmt e)
    (hle : bs.length ≤ e.room) (hg : e.got w fmt (.ok bs) = some e') :
    StrangerOk w fmt { e' with took := e'.took ++ bs } := by
  obtain ⟨loc, state, sent, wrote, took⟩ := e
  match state with
  | .connecting (.reading rx k) =>
      have hat : k < 8 ∧ wrote = (encodeHandshake loc).toList ∧ took = rx.toList.take k := h
      obtain ⟨hk, rfl, rfl⟩ := hat
      cases hg
      have hfit : bs.length ≤ 8 - k := by
        simpa only [Endpoint.room, length_handshake] using hle
      by_cases hlen : bs.length = 0
      · simp only [connectGot, if_pos hlen]
        refine .cutShort (Or.inl rfl) rfl ?_
        show (rx.toList.take k ++ bs).length < 8
        rw [List.length_append, hlen, List.length_take, length_handshake]
        omega
      · have htake : rx.toList.take k ++ bs =
            (overwriteVec rx k bs).toList.take (k + bs.length) := by
          rw [toList_overwriteVec]
          refine (take_overwrite ?_).symm
          rw [length_handshake]
          omega
        simp only [connectGot, if_neg hlen]
        rw [settle_took]
        exact strangerOk_read (by omega) rfl htake
  | .connected recv none =>
      simp only [Endpoint.got] at hg
      split at hg
      · cases hg
      · next recv' hstep =>
          cases hg
          exact strangerOk_received h rfl hstep

theorem strangerOk_readFailed {e e' : Endpoint} {err : String} (h : StrangerOk w fmt e)
    (hg : e.got w fmt (.err err) = some e') : StrangerOk w fmt e' := by
  obtain ⟨loc, state, sent, wrote, took⟩ := e
  match state with
  | .connecting (.reading rx k) =>
      have hat : k < 8 ∧ wrote = (encodeHandshake loc).toList ∧ took = rx.toList.take k := h
      obtain ⟨hk, rfl, rfl⟩ := hat
      cases hg
      refine .cutShort (Or.inr ⟨err, rfl⟩) rfl ?_
      show (rx.toList.take k).length < 8
      rw [List.length_take, length_handshake]
      omega
  | .connected recv none =>
      simp only [Endpoint.got] at hg
      split at hg
      · cases hg
      · next recv' hstep =>
          cases hg
          have hok := strangerOk_received h rfl hstep
          rw [show (RecvAct.read (.err err) : RecvAct Unit).bytes = [] from rfl] at hok
          simpa only [List.append_nil] using hok

theorem strangerOk_send {e e' : Endpoint} {msg : Message} (h : StrangerOk w fmt e)
    (hs : e.send fmt msg = some e') : StrangerOk w fmt e' := by
  obtain ⟨loc, state, sent, wrote, took⟩ := e
  match state with
  | .connected recv none =>
      simp only [Endpoint.send] at hs
      split at hs
      · cases hs
      · cases hs
        cases hstart : sendStart fmt msg with
        | pending fut => exact h
        | ready r => exact h

theorem strangerOk_recv {e e' : Endpoint} {a : RecvAct Unit} (h : StrangerOk w fmt e)
    (ha : a.bytes = []) (hr : e.recv w fmt a = some e') : StrangerOk w fmt e' := by
  obtain ⟨loc, state, sent, wrote, took⟩ := e
  match state with
  | .connected recv none =>
      simp only [Endpoint.recv] at hr
      split at hr
      · cases hr
      · next recv' hstep =>
          cases hr
          have hok := strangerOk_received h rfl hstep
          rw [ha] at hok
          simpa only [List.append_nil] using hok

theorem StrangerOk.step {e e' : Endpoint} {a : StrangerAct} (h : StrangerOk w fmt e)
    (hstep : e.meets w fmt a = some e') : StrangerOk w fmt e' := by
  unfold Endpoint.meets at hstep
  split at hstep
  · split at hstep
    · next hle =>
        obtain ⟨e₁, he₁, rfl⟩ := Option.map_eq_some_iff.mp hstep
        exact strangerOk_written h hle he₁
    · cases hstep
  · exact strangerOk_broken h hstep
  · split at hstep
    · next hle =>
        obtain ⟨e₁, he₁, rfl⟩ := Option.map_eq_some_iff.mp hstep
        exact strangerOk_got h hle he₁
    · cases hstep
  · exact strangerOk_readFailed h hstep
  · exact strangerOk_send h hstep
  · exact strangerOk_recv h rfl hstep
  · exact strangerOk_recv h rfl hstep

theorem meets_loc {e e' : Endpoint} {a : StrangerAct} (hstep : e.meets w fmt a = some e') :
    e'.loc = e.loc := by
  unfold Endpoint.meets at hstep
  split at hstep
  · split at hstep
    · obtain ⟨e₁, he₁, rfl⟩ := Option.map_eq_some_iff.mp hstep
      exact (written_same he₁).loc
    · cases hstep
  · exact (written_same hstep).loc
  · split at hstep
    · obtain ⟨e₁, he₁, rfl⟩ := Option.map_eq_some_iff.mp hstep
      exact (got_same he₁).loc
    · cases hstep
  · exact (got_same hstep).loc
  · exact (send_same hstep).loc
  · exact (recv_same hstep).loc
  · exact (recv_same hstep).loc

/-! ## The verdict -/

/-- Eight bytes that were refused are not the handshake that is accepted. -/
theorem not_expected_of_refused {loc : ProtocolId} {wrote took : List UInt8}
    {err : TransportError}
    (h : Refused loc wrote took err) (hlen : 8 ≤ took.length) :
    took.take 8 ≠ (encodeHandshake loc.expectedPeer).toList := by
  intro heq
  cases h with
  | unwritten he hwrote hne htook =>
      rw [htook] at hlen
      exact absurd hlen (by decide)
  | cutShort he hwrote htook => omega
  | noMagic hwrote hlen' h =>
      rw [List.take_of_length_le (Nat.le_of_eq hlen')] at heq
      exact h (heq ▸ take_encodeHandshake _)
  | reserved hwrote hlen' hmagic h =>
      rw [List.take_of_length_le (Nat.le_of_eq hlen')] at heq
      exact h (heq ▸ drop_encodeHandshake _)
  | @incompatible remote hwrote htook h =>
      rw [htook, List.take_of_length_le (by rw [length_handshake])] at heq
      have hsame := congrArg decodeHandshake (Vector.toList_inj.mp heq)
      rw [decodeHandshake_encodeHandshake, decodeHandshake_encodeHandshake] at hsame
      exact h (Except.ok.inj hsame)

theorem StandsAt.decided {e : Endpoint} (h : StandsAt w fmt e) (hlen : 8 ≤ e.took.length) :
    e.outcome = some (.ok ()) ↔
      e.took.take 8 = (encodeHandshake e.loc.expectedPeer).toList := by
  unfold StandsAt at h
  split at h
  · exact absurd hlen (Nat.not_le_of_lt h.2)
  · next err hstate =>
      rw [Endpoint.outcome, hstate]
      exact ⟨nofun, fun heq => absurd heq (not_expected_of_refused h hlen)⟩
  · next recv sending hstate =>
      rw [Endpoint.outcome, hstate]
      exact ⟨fun _ => h.2.1, fun _ => rfl⟩

/-- Whoever is at the other end, and whatever it sends. -/
theorem stranger_judged (w : PointerWidth) (fmt : FrameFormat) (loc : ProtocolId)
    {acts : List StrangerAct} {e : Endpoint}
    (hrun : run (Endpoint.meets w fmt) (.start loc) acts = some e) : Judges w fmt loc e := by
  have hok : StrangerOk w fmt e ∧ e.loc = loc := by
    refine run_invariant (I := fun e => StrangerOk w fmt e ∧ e.loc = loc)
      ⟨strangerOk_start loc, (settle_same _ _).loc⟩ (fun u a v hu hstep => ?_) hrun
    exact ⟨hu.1.step hstep, (meets_loc hstep).trans hu.2⟩
  obtain ⟨hok, rfl⟩ := hok
  exact ⟨rfl, hok.standsAt, StandsAt.decided hok.standsAt⟩

/-- A publisher is met by a subscriber that sends a frame right behind its handshake,
and a requester by somebody who speaks HTTP. -/
theorem stranger_judged_both :
    (∃ e, run (Endpoint.meets .w64 .tcp) (.start .pub0)
        [.write (.ok 5), .write (.ok 3), .read (.ok [0, 83, 80]), .read (.ok [0, 0, 33, 0, 0]),
          .call, .read (.ok [0, 0, 0, 0, 0, 0, 0, 1]), .read (.ok [7])] = some e ∧
      e.outcome = some (.ok ()) ∧ Judges .w64 .tcp .pub0 e) ∧
    (∃ e, run (Endpoint.meets .w64 .tcp) (.start .req0)
        [.write (.ok 8), .read (.ok [72, 84, 84, 80, 47, 49, 46, 49])] = some e ∧
      e.outcome = some (.error (.handshake .invalidMagic)) ∧ Judges .w64 .tcp .req0 e) :=
  ⟨Exists.imp (fun e (he : _ = some e ∧ _) =>
      ⟨he.1, he.2, stranger_judged .w64 .tcp .pub0 he.1⟩) ⟨_, rfl, rfl⟩,
    Exists.imp (fun e (he : _ = some e ∧ _) =>
      ⟨he.1, he.2, stranger_judged .w64 .tcp .req0 he.1⟩) ⟨_, rfl, rfl⟩⟩

end NngCore.Proofs
