import NngCore.Proofs.Recv

/-!
# What a send writes

`send` makes up to four `write_all` calls, each of them a loop of partial
writes. Between two awaits the future always has the same thing in front of
it: the bytes of the frame that no write has accepted yet (`SendFut.left`). A
write takes some of them off the front, and the future returns when none are
left. The frame itself is one item of the receiver's framing, so a stream of
sends is a stream of items.
-/

namespace NngCore.Proofs

open NngCore.Lib NngCore.Ref NngCore.Spec

variable {fmt : FrameFormat}

/-- The bytes still to write, wherever `send` stopped: none once it returned. -/
def pollLeft : SendPoll → List UInt8
  | .pending fut => fut.left
  | .ready _ => []

theorem nextWrite_left (parts : List (List UInt8)) :
    pollLeft (.ofNext (nextWrite parts)) = parts.flatten := by
  induction parts with
  | nil => rfl
  | cons buf rest ih =>
      rw [nextWrite]
      split
      · rfl
      · next hempty =>
          have hnil : buf = [] := List.length_eq_zero_iff.mp (by omega)
          rw [ih, hnil]
          rfl

theorem flatten_sendParts (fmt : FrameFormat) (msg : Message) :
    (sendParts fmt msg).flatten = frameBytes fmt msg := by
  have hopt : ∀ l : List UInt8, (if l = [] then [] else [l]).flatten = l := by
    intro l
    split
    · next h => rw [h]; rfl
    · exact List.flatten_singleton
  have htype : (if fmt = .ipc then [([0x01] : List UInt8)] else []).flatten =
      if fmt = .ipc then [0x01] else [] := by
    split <;> rfl
  rw [sendParts, frameBytes, encodeFrame]
  simp only [List.flatten_append, hopt, htype, List.flatten_singleton, List.append_assoc]

theorem sendStart_left (fmt : FrameFormat) (msg : Message) :
    pollLeft (sendStart fmt msg) = frameBytes fmt msg := by
  rw [sendStart, nextWrite_left, flatten_sendParts]

/-- A write that accepted `n` of the offered bytes took them off the front of
what was left. -/
theorem resume_left {fut : SendFut} {n : Nat} (hpos : 0 < n)
    (hle : n ≤ fut.offered.length) :
    fut.offered.take n ++ pollLeft (fut.resume (.ok n)) = fut.left := by
  obtain ⟨m, rfl⟩ : ∃ m, n = m + 1 := ⟨n - 1, by omega⟩
  have hlen : fut.offered.length = fut.buf.length - fut.written := by
    rw [SendFut.offered, List.length_drop]
  simp only [SendFut.resume]
  split
  · next hlt =>
      have hdrop : fut.buf.drop (fut.written + (m + 1)) = fut.offered.drop (m + 1) := by
        rw [SendFut.offered, List.drop_drop]
      show fut.offered.take (m + 1) ++
        (fut.buf.drop (fut.written + (m + 1)) ++ fut.rest.flatten) = fut.left
      rw [hdrop, ← List.append_assoc, List.take_append_drop]
      rfl
  · next hge =>
      rw [nextWrite_left, List.take_of_length_le (by omega)]
      rfl

/-- A write that does not fail and leaves bytes over leaves the future waiting. -/
theorem resume_ready {fut : SendFut} {n : Nat} {r : Except TransportError Unit}
    (hpos : 0 < n) (h : fut.resume (.ok n) = .ready r) : r = .ok () := by
  obtain ⟨m, rfl⟩ : ∃ m, n = m + 1 := ⟨n - 1, by omega⟩
  simp only [SendFut.resume] at h
  split at h
  · cases h
  · cases hnext : nextWrite fut.rest with
    | none => rw [hnext] at h; cases h; rfl
    | some fut' => rw [hnext] at h; cases h

/-! A future that waits always has something to offer, so the two ways a write
can leave it are told apart by the bytes. -/

theorem nextWrite_offered {parts : List (List UInt8)} {fut : SendFut}
    (h : nextWrite parts = some fut) : fut.offered ≠ [] := by
  induction parts with
  | nil => cases h
  | cons buf rest ih =>
      rw [nextWrite] at h
      split at h
      · next hpos =>
          cases h
          exact List.ne_nil_of_length_pos hpos
      · exact ih h

theorem left_ne_nil {fut : SendFut} (h : fut.offered ≠ []) : fut.left ≠ [] :=
  List.append_ne_nil_of_left_ne_nil h _

theorem resume_cases {fut : SendFut} {n : Nat} (hpos : 0 < n)
    (hle : n ≤ fut.offered.length) :
    (∃ fut', fut.resume (.ok n) = .pending fut' ∧ fut'.offered ≠ [] ∧
      fut.offered.take n ++ fut'.left = fut.left) ∨
    (fut.resume (.ok n) = .ready (.ok ()) ∧ fut.offered.take n = fut.left) := by
  have hleft := resume_left hpos hle
  cases hres : fut.resume (.ok n) with
  | ready r =>
      rw [hres, pollLeft, List.append_nil] at hleft
      rw [resume_ready hpos hres]
      exact Or.inr ⟨rfl, hleft⟩
  | pending fut' =>
      rw [hres] at hleft
      refine Or.inl ⟨fut', rfl, ?_, hleft⟩
      obtain ⟨m, rfl⟩ : ∃ m, n = m + 1 := ⟨n - 1, by omega⟩
      simp only [SendFut.resume] at hres
      split at hres
      · next hlt =>
          cases hres
          refine List.ne_nil_of_length_pos ?_
          rw [SendFut.offered, List.length_drop]
          exact Nat.sub_pos_of_lt hlt
      · cases hnext : nextWrite fut.rest with
        | none => rw [hnext] at hres; cases hres
        | some fut₂ =>
            rw [hnext] at hres
            cases hres
            exact nextWrite_offered hnext

/-- A send of `frame` that has `sent` behind it stands here. -/
def SendAt (frame sent : List UInt8) : SendPoll → Prop
  | .pending fut => sent ++ fut.left = frame ∧ fut.offered ≠ []
  | .ready (.ok ()) => sent = frame
  | .ready (.error _) => ∃ rest, rest ≠ [] ∧ sent ++ rest = frame

theorem sendAt_written {frame sent : List UInt8} {fut : SendFut} {n : Nat}
    (h : SendAt frame sent (.pending fut)) (hle : n ≤ fut.offered.length) :
    SendAt frame (sent ++ fut.offered.take n) (fut.resume (.ok n)) := by
  obtain ⟨hsent, hoff⟩ := h
  cases n with
  | zero =>
      refine ⟨fut.left, left_ne_nil hoff, ?_⟩
      rw [List.take_zero, List.append_nil]
      exact hsent
  | succ n =>
      rcases resume_cases (Nat.succ_pos n) hle with ⟨fut', hres, hoff', hleft⟩ | ⟨hres, hleft⟩
      · rw [hres]
        refine ⟨?_, hoff'⟩
        rw [List.append_assoc, hleft]
        exact hsent
      · rw [hres]
        show sent ++ fut.offered.take (n + 1) = frame
        rw [hleft]
        exact hsent

theorem sendAt_error {frame sent : List UInt8} {fut : SendFut}
    (h : SendAt frame sent (.pending fut)) (e : String) :
    SendAt frame sent (fut.resume (.err e)) :=
  ⟨fut.left, left_ne_nil h.2, h.1⟩

/-! ## The frame is one item -/

theorem frameBytes_eq (fmt : FrameFormat) (msg : Message) :
    frameBytes fmt msg = wireHeader fmt msg.len ++ msg.payload := by
  rw [frameBytes, encodeFrame_eq, wireHeader, List.append_assoc]

theorem frameBytes_ne_nil (fmt : FrameFormat) (msg : Message) :
    frameBytes fmt msg ≠ [] := by
  intro h
  have hlen := congrArg List.length h
  have hpos : 0 < fmt.needed := (framing .w64 fmt).headerLen_pos
  rw [frameBytes_eq, List.length_append, length_wireHeader, List.length_nil] at hlen
  omega

/-- A send never returns before its first write. -/
theorem sendStart_pending (fmt : FrameFormat) (msg : Message) :
    ∃ fut, sendStart fmt msg = .pending fut ∧ fut.left = frameBytes fmt msg ∧
      fut.offered ≠ [] := by
  have hleft := sendStart_left fmt msg
  rw [sendStart] at hleft ⊢
  cases hnext : nextWrite (sendParts fmt msg) with
  | none =>
      rw [hnext] at hleft
      exact absurd hleft.symm (frameBytes_ne_nil fmt msg)
  | some fut =>
      rw [hnext] at hleft
      exact ⟨fut, rfl, hleft, nextWrite_offered hnext⟩

theorem sendAt_start (fmt : FrameFormat) (msg : Message) :
    SendAt (frameBytes fmt msg) [] (sendStart fmt msg) := by
  obtain ⟨fut, hstart, hleft, hoff⟩ := sendStart_pending fmt msg
  rw [hstart]
  exact ⟨hleft, hoff⟩

/-- Whatever the width, a frame within the limit declares its own length. -/
theorem payloadLen_frame (w : PointerWidth) (fmt : FrameFormat) {msg : Message}
    (h : msg.len ≤ maxFrameBytes) :
    payloadLen w fmt (wireHeader fmt msg.len) = .ok msg.len := by
  have hmax : maxFrameBytes < 2 ^ 32 := by decide
  have hw : 2 ^ 32 ≤ 2 ^ w.bits := by cases w <;> decide
  have hword : w.asUsize msg.len = msg.len := Nat.mod_eq_of_lt (by omega)
  rw [payloadLen_wireHeader w fmt (by omega), hword, if_neg (Nat.not_lt.mpr h)]

/-- A frame within the limit, as an item. -/
def frameItem (w : PointerWidth) (fmt : FrameFormat) (msg : Message)
    (h : msg.len ≤ maxFrameBytes) : (framing w fmt).Item where
  header := wireHeader fmt msg.len
  payload := msg.payload
  header_len := length_wireHeader fmt msg.len
  payload_len := by
    rw [framing_payloadLen_ok (payloadLen_frame w fmt h), Message.length_payload]

theorem symbols_frameItem (w : PointerWidth) (fmt : FrameFormat) (msg : Message)
    (h : msg.len ≤ maxFrameBytes) :
    (frameItem w fmt msg h).symbols = frameBytes fmt msg :=
  (frameBytes_eq fmt msg).symm

theorem answer_frameItem (w : PointerWidth) (fmt : FrameFormat) (msg : Message)
    (h : msg.len ≤ maxFrameBytes) :
    answer w fmt (frameItem w fmt msg h) = .ok msg.received :=
  answer_ok _ (payloadLen_frame w fmt h)

/-- A stream of frames within the limit is a stream of items, answered by the
messages sent. -/
theorem frames_items (w : PointerWidth) (fmt : FrameFormat) {msgs : List Message}
    (h : ∀ m ∈ msgs, m.len ≤ maxFrameBytes) :
    ∃ ys : List (framing w fmt).Item,
      (framing w fmt).encode ys = msgs.flatMap (frameBytes fmt) ∧
        ys.map (answer w fmt) = msgs.map (fun m => .ok m.received) := by
  induction msgs with
  | nil => exact ⟨[], rfl, rfl⟩
  | cons m msgs ih =>
      obtain ⟨ys, henc, hans⟩ := ih (fun m' hm' => h m' (List.mem_cons_of_mem _ hm'))
      have hm := h m List.mem_cons_self
      refine ⟨frameItem w fmt m hm :: ys, ?_, ?_⟩
      · rw [Framing.encode_cons, symbols_frameItem, henc, List.flatMap_cons]
      · rw [List.map_cons, List.map_cons, answer_frameItem, hans]

end NngCore.Proofs
