import NngCore.Proofs.Send
import NngCore.Spec.SendRaw

/-!
# A raw send delivers at most once

Where a send stands says what it has written: all of the frame when it
returned `Ok`, less than all of it when it waits or has failed, because a
write that fails adds nothing. A second send is only ever started on a new
connection, after the first one failed. So at any time the connections given
up have a part of the frame each, and the connection held has what the send
now running says.
-/

namespace NngCore.Proofs

open NngCore.Lib NngCore.Ref NngCore.Spec NngCore.Ref.SendRaw

/-! ## What is on the connections -/

/-- What the phase says of the connection held. -/
def PhaseAt (frame sent : List UInt8) : RawPhase → Prop
  | .send fut _ => SendAt frame sent (.pending fut)
  | .done (.ok ()) => sent = frame
  | _ => ∃ rest, rest ≠ [] ∧ sent ++ rest = frame

structure RawInv (msg : Message) (s : SendRaw) : Prop where
  sends : s.msg = msg
  past : ∀ c ∈ s.past, Part msg c
  now : PhaseAt (frameBytes s.conn.fmt msg) s.conn.since s.phase

theorem failed_inv {msg : Message} {s : SendRaw} (hmsg : s.msg = msg)
    (hpast : ∀ c ∈ s.past, Part msg c) (hpart : Part msg s.conn) (retry : Bool)
    (e : NngError) :
    RawInv msg (s.failed retry e) := by
  unfold failed
  split
  · exact ⟨hmsg, hpast, hpart⟩
  · exact ⟨hmsg, hpast, hpart⟩

theorem settle_inv {msg : Message} {s : SendRaw} (hmsg : s.msg = msg)
    (hpast : ∀ c ∈ s.past, Part msg c) (retry : Bool) {p : SendPoll}
    (hat : SendAt (frameBytes s.conn.fmt msg) s.conn.since p) :
    RawInv msg (s.settle retry p) := by
  match p with
  | .pending fut => exact ⟨hmsg, hpast, hat⟩
  | .ready (.ok ()) => exact ⟨hmsg, hpast, hat⟩
  | .ready (.error e) => exact failed_inv hmsg hpast hat retry _

theorem startSend_inv {msg : Message} {s : SendRaw} (hmsg : s.msg = msg)
    (hpast : ∀ c ∈ s.past, Part msg c) (hnew : s.conn.since = []) (retry : Bool) :
    RawInv msg (s.startSend retry) := by
  refine settle_inv hmsg hpast retry ?_
  rw [hnew, hmsg]
  exact sendAt_start s.conn.fmt msg

theorem written_inv {msg : Message} {s t : SendRaw} {fut : SendFut} {retry : Bool}
    {r : WriteResult} (h : RawInv msg s) (hphase : s.phase = .send fut retry)
    (hw : s.written fut retry r = some t) : RawInv msg t := by
  have hat := h.now
  rw [hphase] at hat
  cases r with
  | ok n =>
      rw [written] at hw
      split at hw
      · next hle =>
          cases hw
          exact settle_inv (s := { s with conn := s.conn.write (fut.offered.take n) })
            h.sends h.past retry (sendAt_written hat hle)
      · cases hw
  | err e =>
      cases hw
      exact settle_inv h.sends h.past retry (sendAt_error hat e)

theorem dialDone_inv {msg : Message} {s t : SendRaw} {cause : NngError} {r : Redial}
    {fmt : Option FrameFormat} (h : RawInv msg s) (hphase : s.phase = .redial cause r)
    (hd : s.dialDone cause r fmt = some t) : RawInv msg t := by
  have hpart : Part msg s.conn := by
    have hnow := h.now
    rw [hphase] at hnow
    exact hnow
  cases fmt with
  | some fmt =>
      cases hd
      refine startSend_inv (s := { s with conn := .fresh fmt, past := s.past ++ [s.conn] })
        h.sends ?_ rfl true
      exact forall_mem_concat h.past hpart
  | none =>
      rw [dialDone] at hd
      split at hd
      · cases hd
      · split at hd <;> cases hd <;> exact ⟨h.sends, h.past, hpart⟩

theorem step_inv {msg : Message} {s t : SendRaw} {a : RawAct} (h : RawInv msg s)
    (hstep : step s a = some t) : RawInv msg t := by
  unfold step at hstep
  split at hstep
  · exact written_inv h ‹_› hstep
  · split at hstep
    · cases hstep
    · cases hstep
      have hnow := h.now
      rw [‹s.phase = _›] at hnow
      exact ⟨h.sends, h.past, hnow⟩
  · split at hstep
    · exact dialDone_inv h ‹_› hstep
    · cases hstep
  · cases hstep

theorem call_inv (msg : Message) (dialAddr : Option String)
    (reconnect : Option ReconnectOptions) (fmt : FrameFormat) (wire : List UInt8) :
    RawInv msg (call msg dialAddr reconnect fmt wire) :=
  startSend_inv (s := ⟨msg, dialAddr, reconnect, ⟨fmt, wire, []⟩, [], .panicked⟩)
    rfl nofun rfl false

theorem run_inv {msg : Message} {s t : SendRaw} {acts : List RawAct} (h : RawInv msg s)
    (hrun : run step s acts = some t) : RawInv msg t :=
  run_invariant h (fun _ _ _ hu hstep => step_inv hu hstep) hrun

/-! ## What the connections were before -/

theorem failed_conns (s : SendRaw) (retry : Bool) (e : NngError) :
    (s.failed retry e).conn = s.conn ∧ (s.failed retry e).past = s.past := by
  unfold failed
  split
  · exact ⟨rfl, rfl⟩
  · exact ⟨rfl, rfl⟩

theorem settle_conns (s : SendRaw) (retry : Bool) (p : SendPoll) :
    (s.settle retry p).conn = s.conn ∧ (s.settle retry p).past = s.past := by
  match p with
  | .pending fut => exact ⟨rfl, rfl⟩
  | .ready (.ok ()) => exact ⟨rfl, rfl⟩
  | .ready (.error e) => exact failed_conns s retry _

/-- What a step does to the connections: nothing, more bytes on the one held,
or a new one in its place. -/
theorem step_conns {s t : SendRaw} {a : RawAct} (h : step s a = some t) :
    (t.past = s.past ∧ ∃ bs, t.conn = s.conn.write bs) ∨
      (t.past = s.past ++ [s.conn] ∧ ∃ fmt, t.conn = .fresh fmt) := by
  have hnone : s.conn = s.conn.write [] := by
    rw [RawConn.write, List.append_nil, List.append_nil]
  unfold step at h
  split at h
  · rename_i r fut retry hphase
    cases r with
    | ok n =>
        rw [written] at h
        split at h
        · cases h
          obtain ⟨hconn, hpast⟩ := settle_conns
            { s with conn := s.conn.write (fut.offered.take n) } retry (fut.resume (.ok n))
          exact Or.inl ⟨hpast, _, hconn⟩
        · cases h
    | err e =>
        cases h
        obtain ⟨hconn, hpast⟩ := settle_conns s retry (fut.resume (.err e))
        exact Or.inl ⟨hpast, [], hconn.trans hnone⟩
  · split at h
    · cases h
    · cases h
      exact Or.inl ⟨rfl, [], hnone⟩
  · rename_i fmt cause r hphase
    split at h
    · cases fmt with
      | some fmt =>
          cases h
          obtain ⟨hconn, hpast⟩ := settle_conns
            { s with conn := .fresh fmt, past := s.past ++ [s.conn] } true
            (sendStart fmt s.msg)
          exact Or.inr ⟨hpast, fmt, hconn⟩
      | none =>
          rw [dialDone] at h
          split at h
          · cases h
          · split at h <;> cases h <;> exact Or.inl ⟨rfl, [], hnone⟩
    · cases h
  · cases h

theorem run_past {s t : SendRaw} {acts : List RawAct} (hrun : run step s acts = some t) :
    s.past <+: t.past := by
  refine run_invariant (I := fun u => s.past <+: u.past) List.prefix_rfl ?_ hrun
  intro u a v hu hstep
  rcases step_conns hstep with ⟨hpast, -⟩ | ⟨hpast, -⟩
  · rw [hpast]
    exact hu
  · rw [hpast]
    exact hu.trans (List.prefix_append _ _)

theorem write_added {c : RawConn} {wire : List UInt8} (h : c.wire = wire ++ c.since)
    (bs : List UInt8) : (c.write bs).wire = wire ++ (c.write bs).since := by
  show c.wire ++ bs = wire ++ (c.since ++ bs)
  rw [h, List.append_assoc]

theorem step_added {wire : List UInt8} {s t : SendRaw} {a : RawAct} (h : Added wire s)
    (hstep : step s a = some t) : Added wire t := by
  obtain ⟨c, cs, hconns, hc, hcs⟩ := h
  rcases step_conns hstep with ⟨hpast, bs, hconn⟩ | ⟨hpast, fmt, hconn⟩
  · -- the connection held is the first one or the last of the dialled ones
    rw [Added, conns, hpast, hconn]
    rw [conns] at hconns
    cases hs : s.past with
    | nil =>
        rw [hs] at hconns
        cases hconns
        exact ⟨_, [], rfl, write_added hc bs, nofun⟩
    | cons d ds =>
        rw [hs] at hconns
        cases hconns
        have hconn : s.conn.wire = [] ++ s.conn.since :=
          hcs s.conn (List.mem_append_right _ (by simp))
        refine ⟨_, ds ++ [s.conn.write bs], rfl, hc, ?_⟩
        exact forall_mem_concat (fun e he => hcs e (List.mem_append_left _ he))
          (write_added hconn bs)
  · rw [Added, conns, hpast, hconn]
    rw [conns] at hconns
    rw [hconns]
    exact ⟨c, cs ++ [.fresh fmt], rfl, hc, forall_mem_concat hcs rfl⟩

theorem call_added (msg : Message) (dialAddr : Option String)
    (reconnect : Option ReconnectOptions) (fmt : FrameFormat) (wire : List UInt8) :
    Added wire (call msg dialAddr reconnect fmt wire) := by
  obtain ⟨hconn, hpast⟩ := settle_conns
    ⟨msg, dialAddr, reconnect, ⟨fmt, wire, []⟩, [], .panicked⟩ false (sendStart fmt msg)
  refine ⟨⟨fmt, wire, []⟩, [], ?_, (List.append_nil wire).symm, nofun⟩
  rw [conns, call, startSend, hconn, hpast]
  rfl

/-! ## At most once -/

theorem part_not_whole {msg : Message} {c : RawConn} (h : Part msg c) : ¬ Whole msg c := by
  obtain ⟨rest, hne, hrest⟩ := h
  intro hwhole
  rw [← hwhole] at hrest
  exact hne (List.self_eq_append_right.mp hrest.symm)

theorem inv_sentOnce {msg : Message} {s : SendRaw} (h : RawInv msg s)
    (hret : s.returned = some (.ok ())) : SentOnce msg s := by
  have hheld : Whole msg s.conn := by
    have hnow := h.now
    rw [returned] at hret
    split at hret
    · next hphase =>
        cases hret
        rw [hphase] at hnow
        exact hnow
    · cases hret
  refine ⟨hheld, h.past, ?_⟩
  have hpast : s.past.countP (fun c => c.since = frameBytes c.fmt msg) = 0 := by
    rw [List.countP_eq_zero]
    intro c hc
    rw [decide_eq_true_eq]
    exact part_not_whole (h.past c hc)
  rw [conns, List.countP_append, hpast, List.countP_singleton,
    if_pos (decide_eq_true (p := s.conn.since = _) hheld)]

theorem inv_parts {msg : Message} {s : SendRaw} {e : NngError} (h : RawInv msg s)
    (hret : s.returned = some (.error e)) : ∀ c ∈ conns s, Part msg c := by
  have hheld : Part msg s.conn := by
    have hnow := h.now
    rw [returned] at hret
    split at hret
    · next hphase =>
        cases hret
        rw [hphase] at hnow
        exact hnow
    · cases hret
  exact forall_mem_concat h.past hheld

/-- Whatever the writes and the redials of a raw send come back with: a call
that returned `Ok` wrote the frame once, on the connection now held; one that
returned an error wrote it nowhere; a connection given up is left alone; and
the bytes of this call are all that was added to any of them. -/
theorem raw_send_delivers_at_most_once {msg : Message} {dialAddr : Option String}
    {reconnect : Option ReconnectOptions} {fmt : FrameFormat} {wire : List UInt8}
    {acts : List RawAct} {s : SendRaw}
    (hrun : run step (call msg dialAddr reconnect fmt wire) acts = some s) :
    DeliveredAtMostOnce msg s ∧ Added wire s := by
  have hinv := run_inv (call_inv msg dialAddr reconnect fmt wire) hrun
  refine ⟨⟨inv_sentOnce hinv, fun e => inv_parts hinv, fun acts t => run_past⟩, ?_⟩
  exact run_invariant (call_added msg dialAddr reconnect fmt wire)
    (fun _ _ _ hu hstep => step_added hu hstep) hrun

/-! A send that breaks off after five bytes, one redial that fails and one that
gets through, and the frame in two writes. -/

def brokenOff : SendRaw :=
  call ⟨[1], [2, 3]⟩ (some "tcp://127.0.0.1:5555") (some .default) .tcp [9]

def sentAgain : List RawAct :=
  [.write (.ok 5), .write (.err "broken pipe"), .slept, .dialed none, .slept,
    .dialed (some .tcp), .write (.ok 8), .write (.ok 1), .write (.ok 2)]

def sentAgainDone : SendRaw where
  msg := ⟨[1], [2, 3]⟩
  dialAddr := some "tcp://127.0.0.1:5555"
  reconnect := some .default
  conn := ⟨.tcp, [0, 0, 0, 0, 0, 0, 0, 3, 1, 2, 3], [0, 0, 0, 0, 0, 0, 0, 3, 1, 2, 3]⟩
  past := [⟨.tcp, [9, 0, 0, 0, 0, 0], [0, 0, 0, 0, 0]⟩]
  phase := .done (.ok ())

theorem raw_send_delivers_at_most_once_redialled :
    run step brokenOff sentAgain = some sentAgainDone ∧
      sentAgainDone.returned = some (.ok ()) ∧
      DeliveredAtMostOnce ⟨[1], [2, 3]⟩ sentAgainDone ∧ Added [9] sentAgainDone :=
  have hrun : run step brokenOff sentAgain = some sentAgainDone := by decide +kernel
  ⟨hrun, rfl, raw_send_delivers_at_most_once hrun⟩

end NngCore.Proofs
