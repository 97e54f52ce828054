import NngCore.Proofs.Endpoint

/-!
# Two sides that connect agree

The pipes tie the laws of the two sides together, since what one side took is
the beginning of what the other wrote. So the eight bytes that decide a call
are the other side's handshake, and whether it succeeds depends on the two
protocols alone; that the two calls decide alike is the symmetry of
`expected_peer`.

Nobody is stuck because a handshake always fits: a side that still writes has
put fewer than eight bytes into its pipe, and a side that still reads faces one
that writes or one that has written all eight.
-/

namespace NngCore.Proofs

open NngCore.Lib NngCore.Ref NngCore.Spec

variable {w : PointerWidth} {fmt : FrameFormat}

theorem expectedPeer_comm {p q : ProtocolId} : p = q.expectedPeer ↔ q = p.expectedPeer := by
  constructor
  · intro h
    rw [h, ProtocolId.expectedPeer_expectedPeer]
  · intro h
    rw [h, ProtocolId.expectedPeer_expectedPeer]

/-! ## Both sides -/

@[simp] theorem Side.other_other (d : Side) : d.other.other = d := by
  cases d <;> rfl

theorem Side.other_ne (d : Side) : d.other ≠ d := by
  cases d <;> nofun

theorem Side.both {P : Side → Prop} (d : Side) (h : P d) (ho : P d.other) : ∀ c, P c := by
  cases d <;> rintro (_ | _) <;> assumption

/-- The laws of the two sides, and the pipes between them. -/
structure DuplexInv (w : PointerWidth) (fmt : FrameFormat) (loc : Side → ProtocolId)
    (s : Duplex) : Prop where
  ends : ∀ d, EndOk w fmt (s.ends d)
  locs : ∀ d, (s.ends d).loc = loc d
  pipes : ∀ d, (s.ends d).wrote = (s.ends d.other).took ++ (s.pipes d).bytes
  room : ∀ d, 8 ≤ (s.pipes d).capacity

variable {loc : Side → ProtocolId}

theorem duplexInv_start {capacity : Side → Nat} (hcap : ∀ d, 8 ≤ capacity d) :
    DuplexInv w fmt loc (.start loc capacity) := by
  have hlog : ∀ p, SameLog ⟨p, .connected (.fresh ()) none, [], [], []⟩ (.start p) :=
    fun p => settle_same _ _
  refine ⟨fun d => endOk_start (loc d), fun d => (hlog (loc d)).loc, fun d => ?_, hcap⟩
  show (Endpoint.start (loc d)).wrote = (Endpoint.start (loc d.other)).took ++ []
  rw [(hlog (loc d)).wrote, (hlog (loc d.other)).took]
  rfl

section

variable (s : Duplex) (d : Side) (e : Endpoint) (bytes : List UInt8)

@[simp] theorem setEnd_ends : (s.setEnd d e).ends d = e := Function.update_self ..

@[simp] theorem setEnd_ends_other : (s.setEnd d e).ends d.other = s.ends d.other :=
  Function.update_of_ne (Side.other_ne d) ..

@[simp] theorem setEnd_pipes : (s.setEnd d e).pipes = s.pipes := rfl

@[simp] theorem setBytes_ends : (s.setBytes d bytes).ends = s.ends := rfl

@[simp] theorem setBytes_pipes :
    (s.setBytes d bytes).pipes d = ⟨(s.pipes d).capacity, bytes⟩ :=
  Function.update_self ..

@[simp] theorem setBytes_pipes_other :
    (s.setBytes d bytes).pipes d.other = s.pipes d.other :=
  Function.update_of_ne (Side.other_ne d) ..

@[simp] theorem setBytes_other_pipes :
    (s.setBytes d.other bytes).pipes d = s.pipes d :=
  Function.update_of_ne (Side.other_ne d).symm ..

end

section

variable {s t : Duplex} {d : Side} {e : Endpoint}

/-- One side moved, perhaps with bytes of either pipe. -/
theorem DuplexInv.move (h : DuplexInv w fmt loc s) (hother : t.ends d.other = s.ends d.other)
    (hok : EndOk w fmt (t.ends d)) (hloc : (t.ends d).loc = (s.ends d).loc)
    (hout : (t.ends d).wrote = (s.ends d.other).took ++ (t.pipes d).bytes)
    (hin : (s.ends d.other).wrote = (t.ends d).took ++ (t.pipes d.other).bytes)
    (hcap : ∀ c, (t.pipes c).capacity = (s.pipes c).capacity) : DuplexInv w fmt loc t := by
  refine ⟨Side.both d hok ?_, Side.both d ?_ ?_, Side.both d ?_ ?_, fun c => ?_⟩
  · rw [hother]
    exact h.ends d.other
  · rw [hloc]
    exact h.locs d
  · rw [hother]
    exact h.locs d.other
  · rw [hother]
    exact hout
  · rw [hother, Side.other_other]
    exact hin
  · rw [hcap]
    exact h.room c

theorem DuplexInv.other_pipe (h : DuplexInv w fmt loc s) (d : Side) :
    (s.ends d.other).wrote = (s.ends d).took ++ (s.pipes d.other).bytes := by
  have hpipe := h.pipes d.other
  rw [Side.other_other] at hpipe
  exact hpipe

theorem DuplexInv.ran (h : DuplexInv w fmt loc s) (hsame : SameLog (s.ends d) e)
    (hok : EndOk w fmt e) : DuplexInv w fmt loc (s.setEnd d e) := by
  refine h.move (d := d) (by simp) (by simpa using hok) (by simpa using hsame.loc) ?_ ?_
    (fun _ => rfl)
  · rw [setEnd_ends, setEnd_pipes, hsame.wrote, h.pipes]
  · rw [setEnd_ends, setEnd_pipes, hsame.took, h.other_pipe]

/-- The bytes a side writes go to the end of its pipe. -/
theorem DuplexInv.wrote {bs : List UInt8} (h : DuplexInv w fmt loc s)
    (hsame : SameLog (s.ends d) e) (hok : EndOk w fmt { e with wrote := e.wrote ++ bs }) :
    DuplexInv w fmt loc ((s.setEnd d { e with wrote := e.wrote ++ bs }).setBytes d
      ((s.pipes d).bytes ++ bs)) := by
  refine h.move (d := d) (by simp) (by simpa using hok) (by simpa using hsame.loc) ?_ ?_ ?_
  · rw [setBytes_ends, setEnd_ends, setBytes_pipes]
    show e.wrote ++ bs = _
    rw [hsame.wrote, h.pipes, List.append_assoc]
  · rw [setBytes_ends, setEnd_ends, setBytes_pipes_other]
    show _ = e.took ++ (s.pipes d.other).bytes
    rw [hsame.took, h.other_pipe]
  · exact Side.both d (by simp) (by simp)

/-- The bytes a side takes come off the front of the other's pipe. -/
theorem DuplexInv.took {n : Nat} (h : DuplexInv w fmt loc s) (hsame : SameLog (s.ends d) e)
    (hok : EndOk w fmt { e with took := e.took ++ (s.pipes d.other).bytes.take n }) :
    DuplexInv w fmt loc ((s.setEnd d
      { e with took := e.took ++ (s.pipes d.other).bytes.take n }).setBytes d.other
        ((s.pipes d.other).bytes.drop n)) := by
  refine h.move (d := d) (by simp) (by simpa using hok) (by simpa using hsame.loc) ?_ ?_ ?_
  · rw [setBytes_ends, setEnd_ends, setBytes_other_pipes]
    show e.wrote = _ ++ (s.pipes d).bytes
    rw [hsame.wrote, h.pipes]
  · rw [setBytes_ends, setEnd_ends, setBytes_pipes]
    show _ = e.took ++ _ ++ _
    rw [List.append_assoc, List.take_append_drop, hsame.took, h.other_pipe]
  · exact Side.both d (by simp) (by simp)

end

/-! ## The verdicts -/

/-- Those eight bytes are the other side's handshake. -/
theorem DuplexInv.handshake_of_wrote {s : Duplex} (h : DuplexInv w fmt loc s) {d : Side}
    {rx : Vector UInt8 8} (hrx : rx.toList <+: (s.ends d).took) :
    rx = encodeHandshake (loc d.other) := by
  have hwrote : rx.toList <+: (s.ends d.other).wrote := by
    rw [h.other_pipe]
    exact hrx.trans (List.prefix_append _ _)
  have hpre := hwrote.trans (h.ends d.other).wrote_begins
  rw [h.locs] at hpre
  have heq : rx.toList = (encodeHandshake (loc d.other)).toList :=
    List.prefix_of_prefix_length_le hpre (List.prefix_append _ _) (by simp)
      |>.eq_of_length (by simp)
  exact Vector.toList_inj.mp heq

theorem DuplexInv.outcome {s : Duplex} (h : DuplexInv w fmt loc s) {d : Side}
    {r : Except TransportError Unit} (hr : (s.ends d).outcome = some r) :
    r = verdict loc d := by
  obtain ⟨rx, hrx, hdone⟩ := (h.ends d).decided hr
  rw [h.handshake_of_wrote hrx, h.locs, connectDone_encodeHandshake] at hdone
  exact hdone.symm

theorem verdict_other {d : Side} : verdict loc d.other = .ok () ↔ verdict loc d = .ok () := by
  have hok : ∀ c, verdict loc c = .ok () ↔ loc c.other = (loc c).expectedPeer := by
    intro c
    rw [verdict]
    split
    · next h => exact ⟨fun _ => h, fun _ => rfl⟩
    · next h => exact ⟨nofun, fun hc => absurd hc h⟩
  rw [hok, hok, Side.other_other]
  exact expectedPeer_comm

/-! ## Steps

A side that is gone has read all of the other's handshake and refused it, so
the other is through with writing, has refused too or still has eight bytes in
front of it: it meets neither a broken pipe nor the end of the stream. -/

theorem DuplexInv.gone_refused {s : Duplex} (h : DuplexInv w fmt loc s) {d : Side}
    (hgone : (s.ends d.other).gone = true) :
    (s.ends d).outcome ≠ some (.ok ()) ∧ 8 ≤ (s.ends d).wrote.length ∧
      (s.ends d.other).wrote.length = 8 := by
  have hok := h.ends d.other
  rw [EndOk] at hok
  rw [Endpoint.gone] at hgone
  split at hgone
  · next err hstate =>
      rw [hstate] at hok
      obtain ⟨hwrote, -, rx, htook, hdone⟩ := hok
      have hrefused : verdict loc d.other = .error err :=
        (h.outcome (by rw [Endpoint.outcome, hstate])).symm
      refine ⟨fun hout => ?_, ?_, ?_⟩
      · have hacc := verdict_other.mpr (h.outcome hout).symm
        rw [hrefused] at hacc
        cases hacc
      · rw [h.pipes, htook, List.length_append, length_handshake]
        omega
      · rw [hwrote, length_handshake]
  · cases hgone

theorem DuplexInv.not_broken {s : Duplex} (h : DuplexInv w fmt loc s) {d : Side}
    {r : WriteResult} (hgone : (s.ends d.other).gone = true) :
    (s.ends d).written r = none := by
  obtain ⟨hout, hlen, -⟩ := h.gone_refused hgone
  have hok := h.ends d
  rw [EndOk] at hok
  rw [Endpoint.written]
  split
  · next k hstate =>
      rw [hstate] at hok
      rw [hok.2.1, List.length_take] at hlen
      omega
  · next recv fut hstate => exact absurd (by rw [Endpoint.outcome, hstate]) hout
  · rfl

theorem DuplexInv.not_ended {s : Duplex} (h : DuplexInv w fmt loc s) {d : Side}
    {r : ReadResult} (hgone : (s.ends d.other).gone = true)
    (hempty : (s.pipes d.other).bytes = []) : (s.ends d).got w fmt r = none := by
  obtain ⟨hout, -, hlen⟩ := h.gone_refused hgone
  have hok := h.ends d
  rw [EndOk] at hok
  rw [Endpoint.got]
  split
  · next rx k hstate =>
      rw [hstate] at hok
      rw [h.other_pipe, hempty, List.append_nil, hok.2.2.1, List.length_take] at hlen
      omega
  · next recv hstate => exact absurd (by rw [Endpoint.outcome, hstate]) hout
  · rfl

/-- What a step does: a side writes, a side reads, or a side moves alone. -/
inductive DuplexMoved (w : PointerWidth) (fmt : FrameFormat) (s : Duplex) :
    DuplexAct → Duplex → Prop
  | wrote {d : Side} {n : Nat} {e : Endpoint} (hpos : 0 < n)
      (hle : n ≤ (s.ends d).offered.length) (he : (s.ends d).written (.ok n) = some e) :
      DuplexMoved w fmt s (.write d n)
        ((s.setEnd d { e with wrote := e.wrote ++ (s.ends d).offered.take n }).setBytes d
          ((s.pipes d).bytes ++ (s.ends d).offered.take n))
  | took {d : Side} {n : Nat} {e : Endpoint} (hpos : 0 < n) (hroom : n ≤ (s.ends d).room)
      (hle : n ≤ (s.pipes d.other).bytes.length)
      (he : (s.ends d).got w fmt (.ok ((s.pipes d.other).bytes.take n)) = some e) :
      DuplexMoved w fmt s (.read d n)
        ((s.setEnd d { e with took := e.took ++ (s.pipes d.other).bytes.take n }).setBytes
          d.other ((s.pipes d.other).bytes.drop n))
  | sent {d : Side} {msg : Message} {e : Endpoint} (he : (s.ends d).send fmt msg = some e) :
      DuplexMoved w fmt s (.send d msg) (s.setEnd d e)
  | called {d : Side} {a : DuplexAct} {ra : RecvAct Unit} {e : Endpoint}
      (hra : ra = .call () ∨ ra = .drop) (he : (s.ends d).recv w fmt ra = some e) :
      DuplexMoved w fmt s a (s.setEnd d e)

theorem DuplexInv.moved {s t : Duplex} {a : DuplexAct} (h : DuplexInv w fmt loc s)
    (hstep : s.step w fmt a = some t) : DuplexMoved w fmt s a t := by
  cases a with
  | write d n =>
      simp only [Duplex.step, Duplex.write] at hstep
      split at hstep
      · next hg =>
          split at hstep
          · cases hstep
          · next e he =>
              cases hstep
              exact .wrote hg.2.1 hg.2.2.1 he
      · cases hstep
  | broken d err =>
      simp only [Duplex.step] at hstep
      split at hstep
      · next hgone =>
          rw [h.not_broken hgone] at hstep
          cases hstep
      · cases hstep
  | read d n =>
      simp only [Duplex.step, Duplex.read] at hstep
      split at hstep
      · next hg =>
          split at hstep
          · cases hstep
          · next e he =>
              cases hstep
              exact .took hg.1 hg.2.1 hg.2.2 he
      · cases hstep
  | eof d =>
      simp only [Duplex.step] at hstep
      split at hstep
      · next hgone =>
          rw [h.not_ended hgone.1 hgone.2] at hstep
          cases hstep
      · cases hstep
  | send d msg =>
      obtain ⟨e, he, rfl⟩ := Option.map_eq_some_iff.mp hstep
      exact .sent he
  | call d =>
      obtain ⟨e, he, rfl⟩ := Option.map_eq_some_iff.mp hstep
      exact .called (.inl rfl) he
  | drop d =>
      obtain ⟨e, he, rfl⟩ := Option.map_eq_some_iff.mp hstep
      exact .called (.inr rfl) he

theorem take_ne_nil {l : List UInt8} {n : Nat} (hpos : 0 < n) (hle : n ≤ l.length) :
    l.take n ≠ [] ∧ (l.take n).length = n := by
  have hlen : (l.take n).length = n := by
    rw [List.length_take]
    exact Nat.min_eq_left hle
  exact ⟨List.ne_nil_of_length_pos (by omega), hlen⟩

theorem DuplexInv.step {s t : Duplex} {a : DuplexAct} (h : DuplexInv w fmt loc s)
    (hmove : DuplexMoved w fmt s a t) : DuplexInv w fmt loc t := by
  cases hmove with
  | wrote hpos hle he =>
      exact h.wrote (written_same he) (endOk_written (h.ends _) hpos hle he)
  | @took d n e hpos hroom hle he =>
      obtain ⟨hne, hlen⟩ := take_ne_nil hpos hle
      exact h.took (got_same he) (endOk_got (h.ends d) hne (hlen.trans_le hroom) he)
  | sent he => exact h.ran (send_same he) (endOk_send (h.ends _) he)
  | called hra he => exact h.ran (recv_same he) (endOk_recv (h.ends _) hra he)

theorem duplexInv_run {capacity : Side → Nat} (hcap : ∀ d, 8 ≤ capacity d)
    {acts : List DuplexAct} {s : Duplex}
    (hrun : run (Duplex.step w fmt) (.start loc capacity) acts = some s) :
    DuplexInv w fmt loc s :=
  run_invariant (duplexInv_start hcap) (fun _ _ _ hu hstep => hu.step (hu.moved hstep)) hrun

/-! ## Nobody is stuck -/

theorem totalLeft_eq (s : Duplex) (d : Side) :
    totalLeft s = bytesLeft (s.ends d) + bytesLeft (s.ends d.other) := by
  cases d with
  | left => rfl
  | right => exact Nat.add_comm _ _

theorem DuplexInv.onward {s t : Duplex} {a : DuplexAct} (h : DuplexInv w fmt loc s)
    (hmove : DuplexMoved w fmt s a t) : totalLeft t ≤ totalLeft s := by
  cases hmove with
  | @wrote d n e hpos hle he =>
      rw [totalLeft_eq s d, totalLeft_eq _ d, setBytes_ends, setEnd_ends, setEnd_ends_other]
      exact Nat.add_le_add_right (bytesLeft_written (h.ends d) hpos he).1 _
  | @took d n e hpos hroom hle he =>
      rw [totalLeft_eq s d, totalLeft_eq _ d, setBytes_ends, setEnd_ends, setEnd_ends_other]
      exact Nat.add_le_add_right (bytesLeft_got (h.ends d) (take_ne_nil hpos hle).1 he).1 _
  | @sent d msg e he =>
      rw [totalLeft_eq s d, totalLeft_eq _ d, setEnd_ends, setEnd_ends_other,
        bytesLeft_send he]
      exact Nat.add_le_add_right (Nat.zero_le _) _
  | @called d _ ra e hra he =>
      rw [totalLeft_eq s d, totalLeft_eq _ d, setEnd_ends, setEnd_ends_other,
        bytesLeft_recv he]
      exact Nat.add_le_add_right (Nat.zero_le _) _

/-- A side that is still writing has room for one byte more. -/
theorem DuplexInv.can_write {s : Duplex} (h : DuplexInv w fmt loc s) {d : Side} {k : Nat}
    (hstate : (s.ends d).state = .connecting (.writing k)) :
    ∃ t, s.step w fmt (.write d 1) = some t ∧ totalLeft t < totalLeft s := by
  have hok := h.ends d
  rw [EndOk, hstate] at hok
  obtain ⟨hk, hwrote, -, -⟩ := hok
  have hlen : (s.ends d).wrote.length = k := by
    rw [hwrote, List.length_take, length_handshake]
    omega
  have hgone : (s.ends d.other).gone = false := by
    cases hg : (s.ends d.other).gone with
    | false => rfl
    | true =>
        have := (h.gone_refused hg).2.1
        omega
  have hoff : 1 ≤ (s.ends d).offered.length := by
    rw [Endpoint.offered, hstate, List.length_drop, length_handshake]
    omega
  have hroom : (s.pipes d).bytes.length + 1 ≤ (s.pipes d).capacity := by
    have hcap := h.room d
    rw [h.pipes, List.length_append] at hlen
    omega
  obtain ⟨e, he⟩ : ∃ e, (s.ends d).written (.ok 1) = some e := by
    rw [Endpoint.written, hstate]
    exact ⟨_, rfl⟩
  have hstep : s.step w fmt (.write d 1) =
      some ((s.setEnd d { e with wrote := e.wrote ++ (s.ends d).offered.take 1 }).setBytes d
        ((s.pipes d).bytes ++ (s.ends d).offered.take 1)) := by
    simp only [Duplex.step, Duplex.write, he]
    exact if_pos ⟨hgone, Nat.one_pos, hoff, hroom⟩
  refine ⟨_, hstep, ?_⟩
  rw [totalLeft_eq s d, totalLeft_eq _ d, setBytes_ends, setEnd_ends, setEnd_ends_other]
  refine Nat.add_lt_add_right ((bytesLeft_written (h.ends d) Nat.one_pos he).2 ?_) _
  rw [Endpoint.outcome, hstate]

/-- A side that still reads has a byte in front of it, unless the other side is
still writing. -/
theorem DuplexInv.can_read {s : Duplex} (h : DuplexInv w fmt loc s) {d : Side}
    {rx : Vector UInt8 8} {k : Nat} (hstate : (s.ends d).state = .connecting (.reading rx k))
    (hother : 8 ≤ (s.ends d.other).wrote.length) :
    ∃ t, s.step w fmt (.read d 1) = some t ∧ totalLeft t < totalLeft s := by
  have hok := h.ends d
  rw [EndOk, hstate] at hok
  obtain ⟨hk, -, htook, -⟩ := hok
  have hroom : 1 ≤ (s.ends d).room := by
    rw [Endpoint.room, hstate]
    show 1 ≤ rx.toList.length - k
    rw [length_handshake]
    omega
  have hbytes : 1 ≤ (s.pipes d.other).bytes.length := by
    rw [h.other_pipe, List.length_append, htook, List.length_take] at hother
    omega
  obtain ⟨e, he⟩ : ∃ e, (s.ends d).got w fmt (.ok ((s.pipes d.other).bytes.take 1)) =
      some e := by
    rw [Endpoint.got, hstate]
    exact ⟨_, rfl⟩
  have hstep : s.step w fmt (.read d 1) =
      some ((s.setEnd d
        { e with took := e.took ++ (s.pipes d.other).bytes.take 1 }).setBytes d.other
          ((s.pipes d.other).bytes.drop 1)) := by
    simp only [Duplex.step, Duplex.read, he]
    exact if_pos ⟨Nat.one_pos, hroom, hbytes⟩
  refine ⟨_, hstep, ?_⟩
  rw [totalLeft_eq s d, totalLeft_eq _ d, setBytes_ends, setEnd_ends, setEnd_ends_other]
  refine Nat.add_lt_add_right
    ((bytesLeft_got (h.ends d) (take_ne_nil Nat.one_pos hbytes).1 he).2 ?_) _
  rw [Endpoint.outcome, hstate]

theorem DuplexInv.neverStuck {s : Duplex} (h : DuplexInv w fmt loc s) :
    NeverStuck w fmt s := by
  refine ⟨?_, fun a t hstep => h.onward (h.moved hstep)⟩
  rintro ⟨d, hrunning⟩
  rw [Endpoint.outcome] at hrunning
  split at hrunning
  · next fut hstate =>
      cases fut with
      | writing k =>
          obtain ⟨t, ht⟩ := h.can_write hstate
          exact ⟨_, t, ht⟩
      | reading rx k =>
          rcases (h.ends d.other).wrote_handshake with ⟨k', hother⟩ | hother
          · obtain ⟨t, ht⟩ := h.can_write hother
            exact ⟨_, t, ht⟩
          · obtain ⟨t, ht⟩ := h.can_read hstate hother
            exact ⟨_, t, ht⟩
  · cases hrunning
  · cases hrunning

/-! ## What was taken, and what was received -/

theorem DuplexInv.took_le_step {s t : Duplex} {a : DuplexAct} {d : Side}
    (h : DuplexInv w fmt loc s) (hrunning : (s.ends d).outcome = none)
    (hmove : DuplexMoved w fmt s a t) : (t.ends d).took.length ≤ 8 := by
  have hbefore := (h.ends d).took_le hrunning
  -- the other side moved, or it is this one
  have hside : ∀ {u : Duplex} {c : Side}, u.ends c.other = s.ends c.other →
      (c = d → (u.ends c).took.length ≤ 8) → (u.ends d).took.length ≤ 8 := by
    intro u c hsame hmoved
    by_cases hc : c = d
    · subst hc
      exact hmoved rfl
    · have hd : d = c.other := by
        cases c <;> cases d <;> first | rfl | exact absurd rfl hc
      subst hd
      rw [hsame]
      omega
  cases hmove with
  | @wrote c n e hpos hle he =>
      refine hside (c := c) (by simp) ?_
      rintro rfl
      rw [setBytes_ends, setEnd_ends]
      show e.took.length ≤ 8
      rw [(written_same he).took]
      omega
  | @took c n e hpos hroom hle he =>
      refine hside (c := c) (by simp) ?_
      rintro rfl
      rw [setBytes_ends, setEnd_ends]
      show (e.took ++ _).length ≤ 8
      rw [List.length_append, (got_same he).took, (take_ne_nil hpos hle).2]
      omega
  | @sent c msg e he =>
      refine hside (c := c) (by simp) ?_
      rintro rfl
      rw [setEnd_ends, (send_same he).took]
      omega
  | @called c _ ra e hra he =>
      refine hside (c := c) (by simp) ?_
      rintro rfl
      rw [setEnd_ends, (recv_same he).took]
      omega

theorem DuplexInv.takesHandshake {s : Duplex} (h : DuplexInv w fmt loc s) :
    TakesHandshake w fmt loc s := by
  intro d a t hrunning hstep hdone
  have hmove := h.moved hstep
  have ht := h.step hmove
  obtain ⟨rx, hrx, -⟩ := (ht.ends d).decided hdone
  have hlen : (t.ends d).took.length ≤ rx.toList.length :=
    (h.took_le_step hrunning hmove).trans_eq (length_handshake rx).symm
  rw [← ht.handshake_of_wrote hrx]
  exact (hrx.eq_of_length_le hlen).symm

/-- The first items of a stream that starts with these frames are these frames. -/
theorem first_frames {items : List (framing w fmt).Item} {p more : List UInt8}
    {ms rest : List Message} (hp : (framing w fmt).Partial p)
    (hstream : (framing w fmt).encode items ++ p ++ more =
      (ms ++ rest).flatMap (frameBytes fmt)) (hsize : ∀ m ∈ ms, m.len ≤ maxFrameBytes) :
    (items.map (answer w fmt)).take ms.length <+: ms.map (fun m => .ok m.received) ∧
      ((ms.flatMap (frameBytes fmt)).length ≤ ((framing w fmt).encode items ++ p).length →
        (items.map (answer w fmt)).take ms.length = ms.map (fun m => .ok m.received)) := by
  obtain ⟨ys, henc, hans⟩ := frames_items w fmt hsize
  have hlen : ys.length = ms.length := by
    have hmap := congrArg List.length hans
    rwa [List.length_map, List.length_map] at hmap
  rw [List.flatMap_append, ← henc] at hstream
  rw [← henc, ← hans, ← List.map_take, ← hlen]
  constructor
  · obtain ⟨zs, q, hzs, hq⟩ :=
      Framing.exists_parse (F := framing w fmt) (rest.flatMap (frameBytes fmt))
    have hpre : items <+: ys ++ zs := by
      refine Framing.prefix_of_encode_prefix hq ?_
      rw [Framing.encode_append, List.append_assoc, ← hzs, ← hstream, List.append_assoc]
      exact List.prefix_append _ _
    have htake := hpre.take ys.length
    rw [List.take_left] at htake
    exact htake.map _
  · intro hread
    have hpre : (framing w fmt).encode ys <+: (framing w fmt).encode items ++ p := by
      refine List.prefix_of_prefix_length_le ?_ (List.prefix_append _ more) hread
      rw [hstream]
      exact List.prefix_append _ _
    obtain ⟨zs, rfl⟩ := Framing.prefix_of_encode_prefix hp hpre
    rw [List.take_left]

theorem DuplexInv.deliversFirst {s : Duplex} (h : DuplexInv w fmt loc s) :
    DeliversFirst fmt s := by
  intro d recv sending hstate ms rest hsent hsize
  have hok := h.ends d
  rw [EndOk, hstate] at hok
  obtain ⟨rx, items, p, -, htook, hsound, hres⟩ := ConnectedOk.took hok
  have hrx : rx = encodeHandshake (loc d.other) :=
    h.handshake_of_wrote (htook ▸ List.prefix_append _ _)
  -- behind the handshake, the reader stands somewhere in the frames sent
  have hpre : (framing w fmt).encode items ++ p <+: (ms ++ rest).flatMap (frameBytes fmt) := by
    have hwrote := (h.ends d.other).wrote_begins
    rw [h.other_pipe, h.locs, hsent, htook, hrx, List.append_assoc,
      List.prefix_append_right_inj] at hwrote
    exact (List.prefix_append _ _).trans hwrote
  obtain ⟨more, hstream⟩ := hpre
  obtain ⟨hfirst, hall⟩ := first_frames hsound.hold.isPartial hstream hsize
  rw [hres]
  refine ⟨hfirst, fun hread => hall ?_⟩
  rw [htook, List.length_append, length_handshake] at hread
  omega

/-! ## Agreement -/

/-- Two sides that connect to each other over pipes that hold a handshake, in
every state they can reach. -/
theorem handshake_agrees (w : PointerWidth) (fmt : FrameFormat) (loc : Side → ProtocolId)
    (capacity : Side → Nat) (hcap : ∀ d, 8 ≤ capacity d) (acts : List DuplexAct) (s : Duplex)
    (hrun : run (Duplex.step w fmt) (.start loc capacity) acts = some s) :
    Agreement w fmt loc s := by
  have h := duplexInv_run hcap hrun
  refine ⟨h.neverStuck, ?_, fun d r hr => h.outcome hr, h.takesHandshake, h.deliversFirst⟩
  intro r r' hr hr'
  rw [h.outcome hr, h.outcome hr', verdict, verdict]
  by_cases hpeer : loc .right = (loc .left).expectedPeer
  · exact Or.inl ⟨hpeer, if_pos hpeer, if_pos (expectedPeer_comm.mp hpeer)⟩
  · exact Or.inr ⟨hpeer, if_neg hpeer, if_neg fun hc => hpeer (expectedPeer_comm.mp hc)⟩

/-! A REQ and a REP side. The REP side is through first and sends its frame right
behind its handshake, of which the REQ side has read three bytes. -/

def reqRep : Side → ProtocolId
  | .left => .req0
  | .right => .rep0

def pipelined : List DuplexAct :=
  [.write .right 8, .write .left 5, .write .left 3, .read .left 3, .read .right 8,
    .send .right ⟨[], [7]⟩, .write .right 8, .write .right 1, .read .left 5, .call .left,
    .read .left 8, .read .left 1]

/-- The outcomes of both calls and what the REQ side has received. -/
def pipelinedSeen (s : Duplex) : Option (Except TransportError Unit) ×
    Option (Except TransportError Unit) × EndState :=
  ((s.ends .left).outcome, (s.ends .right).outcome, (s.ends .left).state)

theorem handshake_agrees_pipelined :
    ∃ s, run (Duplex.step .w64 .tcp) (.start reqRep fun _ => 24) pipelined = some s ∧
      pipelinedSeen s = (some (.ok ()), some (.ok ()),
        .connected ⟨⟨.idle, #v[0, 0, 0, 0, 0, 0, 0, 1, 0], 8, [], 1⟩, (), none,
          [.ok ⟨[], [7]⟩], false⟩ none) ∧
      Agreement .w64 .tcp reqRep s := by
  have hseen : (run (Duplex.step .w64 .tcp) (.start reqRep fun _ => 24) pipelined).map
      pipelinedSeen = some (some (.ok ()), some (.ok ()),
        .connected ⟨⟨.idle, #v[0, 0, 0, 0, 0, 0, 0, 1, 0], 8, [], 1⟩, (), none,
          [.ok ⟨[], [7]⟩], false⟩ none) := by decide +kernel
  obtain ⟨s, hrun, hs⟩ := Option.map_eq_some_iff.mp hseen
  exact ⟨s, hrun, hs, handshake_agrees .w64 .tcp reqRep _ (fun _ => by decide)
    pipelined s hrun⟩

end NngCore.Proofs
