import NngCore.Proofs.Session
import NngCore.Spec.Handshake

/-!
# One side of a handshake

What a side that runs `connect`, and later sends and receives, wrote and took is
settled by where it stands (`EndOk`), whatever the other side does. What it
wrote is the beginning of its handshake and its frames. What it took begins
with the eight bytes that decided its call, and behind them its receiver stands
somewhere in a stream of items. While the call runs it has taken at most eight
bytes, and every write and every read brings it nearer to its end.
-/

namespace NngCore.Proofs

open NngCore.Lib NngCore.Ref NngCore.Spec

variable {w : PointerWidth} {fmt : FrameFormat}

/-! ## What eight bytes decide -/

@[simp] theorem length_handshake (v : Vector UInt8 8) : v.toList.length = 8 := by simp

theorem connectDone_encodeHandshake (loc remote : ProtocolId) :
    connectDone loc (encodeHandshake remote) =
      if remote = loc.expectedPeer then .ok ()
      else .error (.handshake (.incompatibleProtocol loc remote)) := by
  rw [connectDone, decodeHandshake_encodeHandshake]
  by_cases h : remote = loc.expectedPeer
  · have hok : checkPeer loc remote = .ok () := if_neg (not_not_intro h)
    simp only [hok, if_pos h]
  · have herr : checkPeer loc remote = .error (.incompatibleProtocol loc remote) := if_pos h
    simp only [herr, if_neg h]

/-! ## The law of one side -/

/-- A side that has its transport. -/
structure ConnectedOk (w : PointerWidth) (fmt : FrameFormat) (e : Endpoint)
    (recv : Receiver Unit Unit) (sending : Option SendFut) : Prop where
  wrote : e.wrote ++ sendLeft sending =
    (encodeHandshake e.loc).toList ++ e.sent.flatMap (frameBytes fmt)
  greeted : (encodeHandshake e.loc).toList <+: e.wrote
  took : ∃ (rx : Vector UInt8 8) (items : List (framing w fmt).Item) (p : List UInt8),
    connectDone e.loc rx = .ok () ∧
      e.took = rx.toList ++ ((framing w fmt).encode items ++ p) ∧
      Sound w fmt recv p ∧ recv.results = items.map (answer w fmt)

/-- What a side wrote and took, wherever it stands. -/
def EndOk (w : PointerWidth) (fmt : FrameFormat) (e : Endpoint) : Prop :=
  match e.state with
  | .connecting (.writing k) =>
      k < 8 ∧ e.wrote = (encodeHandshake e.loc).toList.take k ∧ e.took = [] ∧ e.sent = []
  | .connecting (.reading rx k) =>
      k < 8 ∧ e.wrote = (encodeHandshake e.loc).toList ∧ e.took = rx.toList.take k ∧
        e.sent = []
  | .failed err =>
      e.wrote = (encodeHandshake e.loc).toList ∧ e.sent = [] ∧
        ∃ rx : Vector UInt8 8, e.took = rx.toList ∧ connectDone e.loc rx = .error err
  | .connected recv sending => ConnectedOk w fmt e recv sending

theorem endOk_start (loc : ProtocolId) : EndOk w fmt (.start loc) := by
  have hstart : connectStart loc = .pending (.writing 0) := by
    rw [connectStart, connectWrite, length_handshake]
    rfl
  rw [Endpoint.start, hstart]
  exact ⟨by decide, rfl, rfl, rfl⟩

/-- A side that has just read its eighth byte, or is short of it. -/
theorem endOk_read {e : Endpoint} {rx : Vector UInt8 8} {k : Nat} (hk : k ≤ 8)
    (hwrote : e.wrote = (encodeHandshake e.loc).toList) (htook : e.took = rx.toList.take k)
    (hsent : e.sent = []) : EndOk w fmt (e.settle (connectRead e.loc rx k)) := by
  rw [connectRead, length_handshake]
  split
  · next hlt => exact ⟨hlt, hwrote, htook, hsent⟩
  · next hge =>
      have hall : e.took = rx.toList := by
        rw [htook]
        exact List.take_of_length_le (by rw [length_handshake]; omega)
      cases hdone : connectDone e.loc rx with
      | error err => exact ⟨hwrote, hsent, rx, hall, hdone⟩
      | ok u =>
          refine ⟨?_, hwrote ▸ List.prefix_rfl, rx, [], [], hdone, ?_, sound_fresh (), rfl⟩
          · show e.wrote ++ [] = _ ++ e.sent.flatMap _
            rw [hwrote, hsent]
            rfl
          · show e.took = rx.toList ++ []
            rw [hall, List.append_nil]

theorem settle_took (e : Endpoint) (p : ConnectPoll) (bs : List UInt8) :
    { e.settle p with took := (e.settle p).took ++ bs } =
      { e with took := e.took ++ bs }.settle p := by
  match p with
  | .pending fut => rfl
  | .ready (.ok ()) => rfl
  | .ready (.error err) => rfl

/-- The awaited write took the next `n` bytes offered. -/
theorem endOk_written {e e' : Endpoint} {n : Nat} (h : EndOk w fmt e) (hpos : 0 < n)
    (hle : n ≤ e.offered.length) (hw : e.written (.ok n) = some e') :
    EndOk w fmt { e' with wrote := e'.wrote ++ e.offered.take n } := by
  obtain ⟨loc, state, sent, wrote, took⟩ := e
  match state with
  | .connecting (.writing k) =>
      have hat : k < 8 ∧ wrote = (encodeHandshake loc).toList.take k ∧ took = [] ∧
        sent = [] := h
      obtain ⟨hk, rfl, rfl, rfl⟩ := hat
      cases hw
      obtain ⟨m, rfl⟩ : ∃ m, n = m + 1 := ⟨n - 1, by omega⟩
      have hk' : k + (m + 1) ≤ 8 := by
        simp only [Endpoint.offered, List.length_drop, length_handshake] at hle
        omega
      have hmore : (encodeHandshake loc).toList.take k ++
          ((encodeHandshake loc).toList.drop k).take (m + 1) =
            (encodeHandshake loc).toList.take (k + (m + 1)) :=
        List.take_add.symm
      simp only [connectWritten, connectWrite, length_handshake]
      split
      · next hlt => exact ⟨hlt, hmore, rfl, rfl⟩
      · next hge =>
          have hall : (encodeHandshake loc).toList.take (k + (m + 1)) =
              (encodeHandshake loc).toList :=
            List.take_of_length_le (by rw [length_handshake]; omega)
          exact ⟨by decide, hmore.trans hall, rfl, rfl⟩
  | .connected recv (some fut) =>
      obtain ⟨hwrote, hgreeted, htook⟩ : ConnectedOk w fmt _ recv (some fut) := h
      have hgreeted' := hgreeted.trans (List.prefix_append wrote (fut.offered.take n))
      cases hw
      have hleft := resume_left hpos hle
      have hnew : wrote ++ fut.offered.take n ++ pollLeft (fut.resume (.ok n)) =
          (encodeHandshake loc).toList ++ sent.flatMap (frameBytes fmt) := by
        rw [List.append_assoc, hleft]
        exact hwrote
      cases hres : fut.resume (.ok n) with
      | pending fut' =>
          rw [hres] at hnew
          exact ⟨hnew, hgreeted', htook⟩
      | ready r =>
          rw [hres] at hnew
          exact ⟨hnew, hgreeted', htook⟩

/-- The awaited read came back with bytes that fit its slice. -/
theorem endOk_got {e e' : Endpoint} {bs : List UInt8} (h : EndOk w fmt e) (hne : bs ≠ [])
    (hle : bs.length ≤ e.room) (hg : e.got w fmt (.ok bs) = some e') :
    EndOk w fmt { e' with took := e'.took ++ bs } := by
  obtain ⟨loc, state, sent, wrote, took⟩ := e
  have hlen : bs.length ≠ 0 := fun h0 => hne (List.length_eq_zero_iff.mp h0)
  match state with
  | .connecting (.reading rx k) =>
      have hat : k < 8 ∧ wrote = (encodeHandshake loc).toList ∧ took = rx.toList.take k ∧
        sent = [] := h
      obtain ⟨hk, rfl, rfl, rfl⟩ := hat
      cases hg
      have hfit : bs.length ≤ 8 - k := by
        simpa only [Endpoint.room, length_handshake] using hle
      have htake : rx.toList.take k ++ bs =
          (overwriteVec rx k bs).toList.take (k + bs.length) := by
        rw [toList_overwriteVec]
        refine (take_overwrite ?_).symm
        rw [length_handshake]
        omega
      simp only [connectGot, if_neg hlen]
      rw [settle_took]
      exact endOk_read (by omega) rfl htake rfl
  | .connected recv none =>
      obtain ⟨hwrote, hgreeted, rx, items, p, hdone, htook, hsound, hres⟩ :
        ConnectedOk w fmt _ recv none := h
      simp only [Endpoint.got] at hg
      split at hg
      · cases hg
      · next recv' hstep =>
          cases hg
          obtain ⟨p', rs, hmove, hsound', hres'⟩ := hsound.step sized_vecZeroed hstep
          refine ⟨hwrote, hgreeted, ?_⟩
          cases hmove with
          | ended => exact absurd rfl hne
          | more _ =>
              refine ⟨rx, items, p ++ bs, hdone, ?_, hsound', ?_⟩
              · refine (congrArg (· ++ bs) htook).trans ?_
                simp only [List.append_assoc]
              · rw [hres', hres, List.append_nil]
          | item it hp _ =>
              refine ⟨rx, items ++ [it], [], hdone, ?_, hsound', ?_⟩
              · refine (congrArg (· ++ bs) htook).trans ?_
                rw [Framing.encode_concat, hp]
                simp only [List.append_assoc, List.append_nil]
              · rw [hres', hres, List.map_append]
                rfl

theorem endOk_send {e e' : Endpoint} {msg : Message} (h : EndOk w fmt e)
    (hs : e.send fmt msg = some e') : EndOk w fmt e' := by
  obtain ⟨loc, state, sent, wrote, took⟩ := e
  match state with
  | .connected recv none =>
      obtain ⟨hwrote, hgreeted, htook⟩ : ConnectedOk w fmt _ recv none := h
      simp only [Endpoint.send] at hs
      split at hs
      · cases hs
      · cases hs
        have hnew : wrote ++ pollLeft (sendStart fmt msg) =
            (encodeHandshake loc).toList ++ (sent ++ [msg]).flatMap (frameBytes fmt) := by
          rw [sendStart_left, List.flatMap_append, ← List.append_assoc, List.flatMap_singleton]
          exact congrArg (· ++ _) ((List.append_nil _).symm.trans hwrote)
        cases hstart : sendStart fmt msg with
        | pending fut =>
            rw [hstart] at hnew
            exact ⟨hnew, hgreeted, htook⟩
        | ready r =>
            rw [hstart] at hnew
            exact ⟨hnew, hgreeted, htook⟩

/-- Starting and dropping a receive moves no byte and returns nothing. -/
theorem endOk_recv {e e' : Endpoint} {a : RecvAct Unit} (h : EndOk w fmt e)
    (ha : a = .call () ∨ a = .drop) (hr : e.recv w fmt a = some e') : EndOk w fmt e' := by
  obtain ⟨loc, state, sent, wrote, took⟩ := e
  match state with
  | .connected recv none =>
      obtain ⟨hwrote, hgreeted, rx, items, p, hdone, htook, hsound, hres⟩ :
        ConnectedOk w fmt _ recv none := h
      simp only [Endpoint.recv] at hr
      split at hr
      · cases hr
      · next recv' hstep =>
          cases hr
          obtain ⟨p', rs, hmove, hsound', hres'⟩ := hsound.step sized_vecZeroed hstep
          have hnone : p' = p ∧ rs = [] := by
            rcases ha with rfl | rfl
            · cases hmove
              exact ⟨rfl, rfl⟩
            · cases hmove
              exact ⟨rfl, rfl⟩
          obtain ⟨rfl, rfl⟩ := hnone
          refine ⟨hwrote, hgreeted, rx, items, p', hdone, htook, hsound', ?_⟩
          rw [hres', hres, List.append_nil]

/-! ## What the actions of a side leave alone -/

/-- The bytes are booked by the pipes. -/
structure SameLog (e e' : Endpoint) : Prop where
  loc : e'.loc = e.loc
  wrote : e'.wrote = e.wrote
  took : e'.took = e.took

theorem settle_same (e : Endpoint) (p : ConnectPoll) : SameLog e (e.settle p) := by
  match p with
  | .pending fut => exact ⟨rfl, rfl, rfl⟩
  | .ready (.ok ()) => exact ⟨rfl, rfl, rfl⟩
  | .ready (.error err) => exact ⟨rfl, rfl, rfl⟩

theorem settleSend_same (e : Endpoint) (recv : Receiver Unit Unit) (p : SendPoll) :
    SameLog e (e.settleSend recv p) := by
  cases p with
  | pending fut => exact ⟨rfl, rfl, rfl⟩
  | ready r => exact ⟨rfl, rfl, rfl⟩

theorem written_same {e e' : Endpoint} {r : WriteResult} (h : e.written r = some e') :
    SameLog e e' := by
  rw [Endpoint.written] at h
  split at h
  · cases h
    exact settle_same e _
  · cases h
    exact settleSend_same e _ _
  · cases h

theorem got_same {e e' : Endpoint} {r : ReadResult} (h : e.got w fmt r = some e') :
    SameLog e e' := by
  rw [Endpoint.got] at h
  split at h
  · cases h
    exact settle_same e _
  · split at h
    · cases h
    · cases h
      exact ⟨rfl, rfl, rfl⟩
  · cases h

theorem send_same {e e' : Endpoint} {msg : Message} (h : e.send fmt msg = some e') :
    SameLog e e' := by
  rw [Endpoint.send] at h
  split at h
  · split at h
    · cases h
    · cases h
      obtain ⟨hloc, hwrote, htook⟩ := settleSend_same { e with sent := e.sent ++ [msg] } _
        (sendStart fmt msg)
      exact ⟨hloc, hwrote, htook⟩
  · cases h

theorem recv_same {e e' : Endpoint} {a : RecvAct Unit} (h : e.recv w fmt a = some e') :
    SameLog e e' := by
  rw [Endpoint.recv] at h
  split at h
  · split at h
    · cases h
    · cases h
      exact ⟨rfl, rfl, rfl⟩
  · cases h

/-! ## Read off the law -/

/-- What a side wrote is the beginning of its handshake and its frames. -/
theorem EndOk.wrote_begins {e : Endpoint} (h : EndOk w fmt e) :
    e.wrote <+: (encodeHandshake e.loc).toList ++ e.sent.flatMap (frameBytes fmt) := by
  obtain ⟨loc, state, sent, wrote, took⟩ := e
  match state with
  | .connecting (.writing k) =>
      have hwrote : wrote = (encodeHandshake loc).toList.take k := h.2.1
      show wrote <+: _
      rw [hwrote]
      exact (List.take_prefix k _).trans (List.prefix_append _ _)
  | .connecting (.reading rx k) => exact h.2.1 ▸ List.prefix_append _ _
  | .failed err => exact h.1 ▸ List.prefix_append _ _
  | .connected recv sending => exact ⟨_, ConnectedOk.wrote h⟩

/-- A call that returned was decided by the first eight bytes taken. -/
theorem EndOk.decided {e : Endpoint} (h : EndOk w fmt e) {r : Except TransportError Unit}
    (hr : e.outcome = some r) :
    ∃ rx : Vector UInt8 8, rx.toList <+: e.took ∧ connectDone e.loc rx = r := by
  obtain ⟨loc, state, sent, wrote, took⟩ := e
  match state with
  | .connecting fut => cases hr
  | .failed err =>
      cases hr
      obtain ⟨-, -, rx, htook, hdone⟩ := h
      exact ⟨rx, htook ▸ List.prefix_rfl, hdone⟩
  | .connected recv sending =>
      cases hr
      obtain ⟨rx, items, p, hdone, htook, -⟩ := ConnectedOk.took h
      exact ⟨rx, htook ▸ List.prefix_append _ _, hdone⟩

/-- A side that is not writing its handshake has written it. -/
theorem EndOk.wrote_handshake {e : Endpoint} (h : EndOk w fmt e) :
    (∃ k, e.state = .connecting (.writing k)) ∨ 8 ≤ e.wrote.length := by
  obtain ⟨loc, state, sent, wrote, took⟩ := e
  have hfull : ∀ v : Vector UInt8 8, v.toList <+: wrote → 8 ≤ wrote.length :=
    fun v hv => (length_handshake v).symm.trans_le hv.length_le
  match state with
  | .connecting (.writing k) => exact Or.inl ⟨k, rfl⟩
  | .connecting (.reading rx k) =>
      exact Or.inr (hfull _ ⟨[], (List.append_nil _).trans h.2.1.symm⟩)
  | .failed err => exact Or.inr (hfull _ ⟨[], (List.append_nil _).trans h.1.symm⟩)
  | .connected recv sending => exact Or.inr (hfull _ (ConnectedOk.greeted h))

/-- A call that runs never takes more than eight bytes. -/
theorem EndOk.took_le {e : Endpoint} (h : EndOk w fmt e) (hrunning : e.outcome = none) :
    e.took.length + e.room ≤ 8 := by
  obtain ⟨loc, state, sent, wrote, took⟩ := e
  match state with
  | .connecting (.writing k) =>
      have htook : took = [] := h.2.2.1
      rw [htook]
      exact Nat.zero_le 8
  | .connecting (.reading rx k) =>
      have hk : k < 8 := h.1
      have htook : took = rx.toList.take k := h.2.2.1
      show took.length + (rx.toList.length - k) ≤ 8
      rw [htook, List.length_take, length_handshake]
      omega
  | .failed err => cases hrunning
  | .connected recv sending => cases hrunning

/-! ## Getting on -/

/-- A write brings a call nearer to its end. -/
theorem bytesLeft_written {e e' : Endpoint} {n : Nat} (h : EndOk w fmt e) (hpos : 0 < n)
    (hw : e.written (.ok n) = some e') :
    bytesLeft e' ≤ bytesLeft e ∧ (e.outcome = none → bytesLeft e' < bytesLeft e) := by
  obtain ⟨loc, state, sent, wrote, took⟩ := e
  match state with
  | .connecting (.writing k) =>
      have hk : k < 8 := h.1
      cases hw
      obtain ⟨m, rfl⟩ : ∃ m, n = m + 1 := ⟨n - 1, by omega⟩
      have hlt : bytesLeft (Endpoint.settle ⟨loc, .connecting (.writing k), sent, wrote, took⟩
          (connectWrite loc (k + (m + 1)))) < (8 - k) + 8 := by
        rw [connectWrite, length_handshake]
        split
        · show (8 - (k + (m + 1))) + 8 < _
          omega
        · show 8 - 0 < _
          omega
      exact ⟨Nat.le_of_lt hlt, fun _ => hlt⟩
  | .connected recv (some fut) =>
      cases hw
      refine ⟨?_, nofun⟩
      cases fut.resume (.ok n) with
      | pending fut' => exact Nat.le_refl 0
      | ready r => exact Nat.le_refl 0

/-- A read brings a call nearer to its end. -/
theorem bytesLeft_got {e e' : Endpoint} {bs : List UInt8} (h : EndOk w fmt e) (hne : bs ≠ [])
    (hg : e.got w fmt (.ok bs) = some e') :
    bytesLeft e' ≤ bytesLeft e ∧ (e.outcome = none → bytesLeft e' < bytesLeft e) := by
  obtain ⟨loc, state, sent, wrote, took⟩ := e
  have hlen : 0 < bs.length := List.length_pos_iff.mpr hne
  match state with
  | .connecting (.reading rx k) =>
      have hk : k < 8 := h.1
      cases hg
      have hlt : bytesLeft (Endpoint.settle
          ⟨loc, .connecting (.reading rx k), sent, wrote, took⟩
          (connectGot loc rx k (.ok bs))) < 8 - k := by
        rw [connectGot, if_neg (by omega), connectRead, length_handshake]
        split
        · show 8 - (k + bs.length) < _
          omega
        · match connectDone loc (overwriteVec rx k bs) with
          | .ok () => exact Nat.sub_pos_of_lt hk
          | .error err => exact Nat.sub_pos_of_lt hk
      exact ⟨Nat.le_of_lt hlt, fun _ => hlt⟩
  | .connected recv none =>
      simp only [Endpoint.got] at hg
      split at hg
      · cases hg
      · cases hg
        exact ⟨Nat.le_refl 0, nofun⟩

theorem bytesLeft_send {e e' : Endpoint} {msg : Message} (h : e.send fmt msg = some e') :
    bytesLeft e' = 0 := by
  rw [Endpoint.send] at h
  split at h
  · split at h
    · cases h
    · cases h
      cases sendStart fmt msg <;> rfl
  · cases h

theorem bytesLeft_recv {e e' : Endpoint} {a : RecvAct Unit} (h : e.recv w fmt a = some e') :
    bytesLeft e' = 0 := by
  rw [Endpoint.recv] at h
  split at h
  · split at h
    · cases h
    · cases h
      rfl
  · cases h

end NngCore.Proofs
