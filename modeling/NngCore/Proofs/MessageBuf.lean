import NngCore.Proofs.ZeroCopy
import NngCore.Spec.MessageOps

/-!
# Heap and stack message under the same protocols

All of the protocols' own code is between the three operations that change a
message, so what these keep, the protocols keep; that is proved once, for any two
messages.

Between heap and stack message the relation is that they show the same bytes, and
that the stack message's layout is in order. The trimmed bytes stay in the array
and never show, because a push writes behind the body and the header ends in front
of it.
-/

namespace NngCore.Proofs

open NngCore.Lib NngCore.Ref NngCore.Spec NngCore.Ref.ZeroCopyMessage

variable {N : UInt64} {m : Message} {z : ZeroCopyMessage N}

structure Alike (m : Message) (z : ZeroCopyMessage N) : Prop extends Equivalent m z where
  layout : Layout z

theorem alike_new : Alike .new (ZeroCopyMessage.new : ZeroCopyMessage N) where
  header := rfl
  body := by
    rw [ZeroCopyMessage.body, List.drop_eq_nil_of_le]
    · rfl
    · rw [List.length_take]
      exact Nat.min_le_left _ _
  layout := layout_new

theorem length_header_of_layout (h : Layout z) : z.header.length = z.hEnd := by
  have hbuf : z.buf.toList.length = N.toNat := z.buf.size_toArray
  have hcap : headerCap N ≤ N.toNat := Nat.div_le_self _ _
  rw [ZeroCopyMessage.header, List.length_take, hbuf,
    Nat.min_eq_left (Nat.le_trans h.header hcap)]

/-! ## The operations -/

theorem copyFromSlice_of_le {buf : Vector UInt8 N.toNat} {lo : Nat} {data : List UInt8}
    (h : lo + data.length ≤ N.toNat) :
    copyFromSlice buf lo (lo + data.length) data = some (overwriteVec buf lo data) :=
  if_pos ⟨Nat.le_add_right _ _, h, Nat.add_sub_cancel_left _ _⟩

theorem Alike.pushBack (h : Alike m z) {data : List UInt8}
    (hroom : data.length ≤ z.bodyRemaining) :
    ∃ z', z.pushBack data = some z' ∧ Alike (m.pushBack data) z' := by
  obtain ⟨hheader, htrimmed, hbody, htail⟩ := h.layout
  have hN : N.toNat < 2 ^ 64 := N.toNat_lt
  have hbuf : z.buf.toList.length = N.toNat := z.buf.size_toArray
  have hend : z.bEnd + data.length ≤ N.toNat := by
    rw [bodyRemaining] at hroom
    omega
  have hpush : z.pushBack data = some
      { z with buf := overwriteVec z.buf z.bEnd data, bEnd := z.bEnd + data.length } := by
    simp only [ZeroCopyMessage.pushBack, usizeAdd_of_lt (Nat.lt_of_le_of_lt hend hN),
      if_pos hend, copyFromSlice_of_le hend]
  refine ⟨_, hpush, ⟨?_, ?_⟩,
    ⟨hheader, htrimmed, Nat.le_trans hbody (Nat.le_add_right _ _), hend⟩⟩
  · show m.header = (overwriteVec z.buf z.bEnd data).toList.take z.hEnd
    rw [toList_overwriteVec, take_overwrite_of_le (by omega) (by omega), h.header]
    rfl
  · show m.body ++ data =
      ((overwriteVec z.buf z.bEnd data).toList.take (z.bEnd + data.length)).drop z.bStart
    rw [toList_overwriteVec, take_overwrite (by omega),
      List.drop_append_of_le_length (by rw [List.length_take]; omega), h.body]
    rfl

theorem Alike.headerPushBack (h : Alike m z) {data : List UInt8}
    (hroom : HeaderRoom z data.length) :
    ∃ z', z.headerPushBack data = some z' ∧ Alike (m.headerPushBack data) z' := by
  obtain ⟨hheader, htrimmed, hbody, htail⟩ := h.layout
  have hN : N.toNat < 2 ^ 64 := N.toNat_lt
  have hbuf : z.buf.toList.length = N.toNat := z.buf.size_toArray
  have hcap : z.hEnd + data.length ≤ headerCap N := by
    rw [HeaderRoom, length_header_of_layout h.layout] at hroom
    exact hroom
  have hend : z.hEnd + data.length ≤ N.toNat := by omega
  have hpush : z.headerPushBack data = some
      { z with buf := overwriteVec z.buf z.hEnd data, hEnd := z.hEnd + data.length } := by
    simp only [ZeroCopyMessage.headerPushBack, usizeAdd_of_lt (Nat.lt_of_le_of_lt hend hN),
      if_pos hcap, copyFromSlice_of_le hend]
  refine ⟨_, hpush, ⟨?_, ?_⟩, ⟨hcap, htrimmed, hbody, htail⟩⟩
  · show m.header ++ data =
      (overwriteVec z.buf z.hEnd data).toList.take (z.hEnd + data.length)
    rw [toList_overwriteVec, take_overwrite (by omega), h.header]
    rfl
  · show m.body = ((overwriteVec z.buf z.hEnd data).toList.take z.bEnd).drop z.bStart
    rw [toList_overwriteVec, List.drop_take, drop_overwrite (by omega) (by omega),
      ← List.drop_take, h.body]
    rfl

theorem Alike.trimFront (h : Alike m z) {n : Nat} (hn : n ≤ z.body.length) :
    ∃ m' z', m.trimFront n = some m' ∧ z.trimFront n = some z' ∧ Alike m' z' := by
  have hlen := length_body_of_layout h.layout
  obtain ⟨hheader, htrimmed, hbody, htail⟩ := h.layout
  have hN : N.toNat < 2 ^ 64 := N.toNat_lt
  have hend : z.bStart + n ≤ z.bEnd := by omega
  have htrim : z.trimFront n = some { z with bStart := z.bStart + n } := by
    rw [ZeroCopyMessage.trimFront, usizeAdd_of_lt (by omega), if_pos hend]
  refine ⟨{ m with body := m.body.drop n }, _, ?_, htrim, ⟨h.header, ?_⟩,
    ⟨hheader, Nat.le_trans htrimmed (Nat.le_add_right _ _), hend, htail⟩⟩
  · rw [Message.trimFront_of_le]
    rw [h.body]
    exact hn
  · show m.body.drop n = (z.buf.toList.take z.bEnd).drop (z.bStart + n)
    rw [h.body, ZeroCopyMessage.body, List.drop_drop]

/-! ## The protocols -/

section

variable {M Z : Type} [MessageBuf M] [MessageBuf Z] (S : MessageSim M Z) {m : M} {z : Z}

/-- Stamping a header, which all the outgoing operations come down to. -/
theorem stamp_sim (h : S.rel m z) {data : List UInt8} (hlen : data.length = 4)
    (hroom : S.headerRoom z 4) :
    ∃ m' z', MessageBuf.headerPushBack m data = some m' ∧
      MessageBuf.headerPushBack z data = some z' ∧ S.rel m' z' := by
  rw [← hlen] at hroom
  exact S.headerPushBack h hroom

/-- Taking a header off, which all the incoming operations come down to once
they have found four bytes. -/
theorem strip_sim (h : S.rel m z) (hlen : ¬ (MessageBuf.body m).length < 4) :
    ∃ m' z', MessageBuf.trimFront m 4 = some m' ∧ MessageBuf.trimFront z 4 = some z' ∧
      S.rel m' z' := by
  refine S.trimFront h ?_
  rw [S.body h]
  exact Nat.le_of_not_lt hlen

/-- One operation: the same answer, the same protocol states, and messages that
are alike again. -/
theorem apply_sim {p : Protocols} {results : List OpResult} {op : MessageOp}
    (h : S.rel m z) (hfits : S.Fits ⟨p, z, results⟩ op) :
    ∃ result p' m' z', p.apply m op = some (result, p', m') ∧
      p.apply z op = some (result, p', z') ∧ S.rel m' z' := by
  cases op with
  | pushBack data =>
      obtain ⟨m', z', hm', hz', hsim⟩ := S.pushBack h hfits
      exact ⟨.unit, p, m', z', congrArg (Option.map _) hm', congrArg (Option.map _) hz', hsim⟩
  | headerPushBack data =>
      obtain ⟨m', z', hm', hz', hsim⟩ := S.headerPushBack h hfits
      exact ⟨.unit, p, m', z', congrArg (Option.map _) hm', congrArg (Option.map _) hz', hsim⟩
  | trimFront n =>
      obtain ⟨m', z', hm', hz', hsim⟩ := S.trimFront h hfits
      exact ⟨.unit, p, m', z', congrArg (Option.map _) hm', congrArg (Option.map _) hz', hsim⟩
  | reqPrepareOutgoing =>
      obtain ⟨m', z', hm', hz', hsim⟩ :=
        stamp_sim S h (length_u32ToBeBytes (p.req.nextId ||| 0x80000000)) hfits
      simp only [Protocols.apply, Req0State.prepareOutgoing, hm', hz']
      exact ⟨_, _, m', z', rfl, rfl, hsim⟩
  | reqProcessIncoming sentId =>
      simp only [Protocols.apply, Req0State.processIncoming, S.body h]
      split
      · exact ⟨_, p, m, z, rfl, rfl, h⟩
      · next hlen =>
          obtain ⟨m', z', hm', hz', hsim⟩ := strip_sim S h hlen
          simp only [hm', hz']
          split
          · exact ⟨_, p, m', z', rfl, rfl, hsim⟩
          · exact ⟨_, p, m', z', rfl, rfl, hsim⟩
  | repProcessIncoming =>
      simp only [Protocols.apply, Rep0State.processIncoming, S.body h]
      split
      · exact ⟨_, p, m, z, rfl, rfl, h⟩
      · next hlen =>
          obtain ⟨m', z', hm', hz', hsim⟩ := strip_sim S h hlen
          simp only [hm', hz']
          exact ⟨_, p, m', z', rfl, rfl, hsim⟩
  | repPrepareReply routing =>
      have hlen : routing.bytes.toList.length = 4 := routing.bytes.size_toArray
      obtain ⟨m', z', hm', hz', hsim⟩ := stamp_sim S h hlen hfits
      simp only [Protocols.apply, Rep0State.prepareReply, hm', hz']
      exact ⟨_, p, m', z', rfl, rfl, hsim⟩
  | prepareSurvey =>
      obtain ⟨m', z', hm', hz', hsim⟩ :=
        stamp_sim S h (length_u32ToBeBytes p.surveyor.nextId) hfits
      simp only [Protocols.apply, Surveyor0State.prepareSurvey, hm', hz']
      exact ⟨_, _, m', z', rfl, rfl, hsim⟩
  | processResponse =>
      simp only [Protocols.apply, Surveyor0State.processResponse, S.body h]
      split
      · exact ⟨_, p, m, z, rfl, rfl, h⟩
      · next hlen =>
          obtain ⟨m', z', hm', hz', hsim⟩ := strip_sim S h hlen
          simp only [hm', hz']
          split
          · exact ⟨_, p, m', z', rfl, rfl, hsim⟩
          · exact ⟨_, p, m', z', rfl, rfl, hsim⟩
  | respondentProcessIncoming =>
      simp only [Protocols.apply, Respondent0State.processIncoming, S.body h]
      split
      · exact ⟨_, p, m, z, rfl, rfl, h⟩
      · next hlen =>
          obtain ⟨m', z', hm', hz', hsim⟩ := strip_sim S h hlen
          simp only [hm', hz']
          exact ⟨_, p, m', z', rfl, rfl, hsim⟩
  | prepareResponse routing =>
      have hlen : routing.bytes.toList.length = 4 := routing.bytes.size_toArray
      obtain ⟨m', z', hm', hz', hsim⟩ := stamp_sim S h hlen hfits
      simp only [Protocols.apply, Respondent0State.prepareResponse, hm', hz']
      exact ⟨_, p, m', z', rfl, rfl, hsim⟩
  | attachTtl =>
      obtain ⟨m', z', hm', hz', hsim⟩ :=
        stamp_sim S h (length_u32ToBeBytes (0x80000000 ||| p.pair1.maxTtl.toUInt32)) hfits
      simp only [Protocols.apply, Pair1State.attachTtl, hm', hz']
      exact ⟨_, p, m', z', rfl, rfl, hsim⟩
  | pairProcessIncoming =>
      simp only [Protocols.apply, Pair1State.processIncoming, S.body h]
      split
      · exact ⟨_, p, m, z, rfl, rfl, h⟩
      · next hlen =>
          obtain ⟨m', z', hm', hz', hsim⟩ := strip_sim S h hlen
          simp only [hm', hz']
          split
          · exact ⟨_, p, m', z', rfl, rfl, hsim⟩
          · exact ⟨_, p, m', z', rfl, rfl, hsim⟩
  | isMatch =>
      simp only [Protocols.apply, Sub0State.isMatch, S.body h]
      exact ⟨_, p, m, z, rfl, rfl, h⟩

theorem run_sim {ops : List MessageOp} {a : Handled M} {b : Handled Z}
    (hp : a.protocols = b.protocols) (hr : a.results = b.results) (h : S.rel a.msg b.msg)
    (hfits : EveryStep Handled.step S.Fits b ops) :
    ∃ a' b', run Handled.step a ops = some a' ∧ run Handled.step b ops = some b' ∧
      a'.results = b'.results ∧ a'.protocols = b'.protocols ∧ S.rel a'.msg b'.msg := by
  induction ops generalizing a b with
  | nil => exact ⟨a, b, rfl, rfl, hr, hp, h⟩
  | cons op ops ih =>
      obtain ⟨hop, hrest⟩ := hfits
      obtain ⟨result, p', m', z', hm', hz', hsim⟩ := apply_sim S h hop
      have ha : a.step op = some ⟨p', m', a.results ++ [result]⟩ := by
        rw [Handled.step, hp, hm']
      have hb : b.step op = some ⟨p', z', b.results ++ [result]⟩ := by
        rw [Handled.step, hz']
      obtain ⟨a', b', harun, hbrun, hend⟩ :=
        ih (a := ⟨p', m', a.results ++ [result]⟩) rfl (congrArg (· ++ [result]) hr) hsim
          (hrest _ hb)
      exact ⟨a', b', run_cons.mpr ⟨_, ha, harun⟩, run_cons.mpr ⟨_, hb, hbrun⟩, hend⟩

end

/-! ## The stack message -/

def stackSim (N : UInt64) : MessageSim Message (ZeroCopyMessage N) where
  rel := Alike
  bodyRoom z n := n ≤ z.bodyRemaining
  headerRoom := HeaderRoom
  body h := h.body.symm
  pushBack h hroom :=
    let ⟨z', hz', halike⟩ := h.pushBack hroom
    ⟨_, z', rfl, hz', halike⟩
  headerPushBack h hroom :=
    let ⟨z', hz', halike⟩ := h.headerPushBack hroom
    ⟨_, z', rfl, hz', halike⟩
  trimFront h hn := h.trimFront hn

theorem stackSim_fits (s : Handled (ZeroCopyMessage N)) (op : MessageOp) :
    (stackSim N).Fits s op = Fits s op := by
  cases op <;> rfl

/-- For every size, every protocol states to start from and every sequence of
operations that fit: heap and stack message go through it with the same
answers and the same protocol states, and show the same bytes after it. -/
theorem messages_agree (N : UInt64) (p : Protocols) (ops : List MessageOp)
    (hfits : EveryStep Handled.step Fits
      ⟨p, (ZeroCopyMessage.new : ZeroCopyMessage N), []⟩ ops) :
    ∃ (a : Handled Message) (b : Handled (ZeroCopyMessage N)),
      run Handled.step ⟨p, .new, []⟩ ops = some a ∧
      run Handled.step ⟨p, .new, []⟩ ops = some b ∧
      a.results = b.results ∧ a.protocols = b.protocols ∧ Equivalent a.msg b.msg := by
  have hfits' : EveryStep Handled.step (stackSim N).Fits ⟨p, .new, []⟩ ops := by
    rwa [show (stackSim N).Fits = Fits from funext₂ stackSim_fits]
  obtain ⟨a, b, ha, hb, hresults, hprotocols, halike⟩ :=
    run_sim (stackSim N) (a := ⟨p, .new, []⟩) (b := ⟨p, .new, []⟩) rfl rfl alike_new hfits'
  exact ⟨a, b, ha, hb, hresults, hprotocols, halike.toEquivalent⟩

/-- A request is stamped and sent, its reply comes in with the ID in front, and
the ID is taken off. -/
theorem messages_agree_request :
    ∃ (a : Handled Message) (b : Handled (ZeroCopyMessage 32)),
      run Handled.step ⟨⟨.new, .new, ⟨8, by decide⟩, .new⟩, .new, []⟩
        [.reqPrepareOutgoing, .pushBack [128, 0, 0, 1, 9], .reqProcessIncoming 1] = some a ∧
      run Handled.step ⟨⟨.new, .new, ⟨8, by decide⟩, .new⟩, .new, []⟩
        [.reqPrepareOutgoing, .pushBack [128, 0, 0, 1, 9], .reqProcessIncoming 1] = some b ∧
      a.results = b.results ∧ a.protocols = b.protocols ∧ Equivalent a.msg b.msg := by
  refine messages_agree 32 _ _
    ⟨?_, fun s hs => ⟨?_, fun t ht => ⟨trivial, fun _ _ => trivial⟩⟩⟩
  · exact Nat.le_of_ble_eq_true rfl
  · cases hs
    exact Nat.le_of_ble_eq_true rfl

end NngCore.Proofs
