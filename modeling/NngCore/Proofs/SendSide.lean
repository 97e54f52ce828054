import NngCore.Proofs.SendRaw
import NngCore.Proofs.Wire
import NngCore.Ref.SendSide

/-!
# The sending side of a socket and its connections

One call of `send_raw` leaves the whole frame on one connection at most
(`SendRaw`). Here the calls follow each other, and the connections with them. A
connection on which no call was begun inside the frame of another one has the
frames of what was sent on it and part of one more; and no message is counted for
two connections, because a call that returns is counted for the one it holds.
-/

namespace NngCore.Proofs

open NngCore.Lib NngCore.Ref NngCore.Spec

/-- Part of the frame of a message that was sent, or nothing. -/
def PartOf (fmt : FrameFormat) (sent : List Message) (part : List UInt8) : Prop :=
  part = [] ∨ ∃ msg ∈ sent, part <+: frameBytes fmt msg ∧ part ≠ frameBytes fmt msg

theorem PartOf.mono {fmt : FrameFormat} {sent sent' : List Message} {part : List UInt8}
    (h : PartOf fmt sent part) (hsub : sent ⊆ sent') : PartOf fmt sent' part := by
  rcases h with rfl | ⟨msg, hmem, hpart⟩
  · exact .inl rfl
  · exact .inr ⟨msg, hsub hmem, hpart⟩

theorem PartOf.unfinished {fmt : FrameFormat} {sent : List Message} {part : List UInt8}
    (h : PartOf fmt sent part) (hfit : ∀ m ∈ sent, m.len ≤ maxFrameBytes) :
    Unfinished fmt part := by
  rcases h with rfl | ⟨msg, hmem, hpart⟩
  · exact .inl rfl
  · exact .inr ⟨msg, hfit msg hmem, hpart⟩

/-- The connection has the frames of what was sent on it, and `tail` behind them. -/
def LineAt (line : SendLine) (tail : List UInt8) : Prop :=
  line.conn.wire = line.done.flatMap (frameBytes line.conn.fmt) ++ tail

def LineOk (sent : List Message) (line : SendLine) : Prop :=
  ∃ part, PartOf line.conn.fmt sent part ∧ LineAt line part

def PastOk (sent : List Message) (past : List SendLine) : Prop :=
  ∀ line ∈ past, line.torn = false → LineOk sent line

/-- What is held, while a call is under way and when none is. -/
def HeldOk (s : SendSide) : Prop :=
  match s.live with
  | none => ∃ part, PartOf s.held.conn.fmt s.sent part ∧ LineAt s.held part ∧
      (s.inside = false → part = [])
  | some c => c.returned = none ∧ LineAt s.held s.held.conn.since

/-- The call under way is on the connection held. -/
structure CallOk (s : SendSide) (c : SendRaw) : Prop where
  conn : c.conn = s.held.conn
  inv : RawInv c.msg c
  sent : c.msg ∈ s.sent

structure SendSideInv (s : SendSide) : Prop where
  call : ∀ c, s.live = some c → CallOk s c
  past : PastOk s.sent s.past
  held : s.held.torn = false → HeldOk s
  counted : (s.lines.flatMap SendLine.done ++ (s.live.map SendRaw.msg).toList).Sublist s.sent

theorem PastOk.concat {sent : List Message} {past : List SendLine} {line : SendLine}
    (h : PastOk sent past) (hline : line.torn = false → LineOk sent line) :
    PastOk sent (past ++ [line]) :=
  forall_mem_concat h hline

/-! ## A call -/

/-- The part a call that has not succeeded leaves. -/
theorem partOf_since {s : SendSide} {c : SendRaw} (h : CallOk s c)
    (hret : c.returned ≠ some (.ok ())) :
    PartOf s.held.conn.fmt s.sent s.held.conn.since := by
  have hnow := h.inv.now
  rw [h.conn] at hnow
  have hpart : ∃ rest, rest ≠ [] ∧
      s.held.conn.since ++ rest = frameBytes s.held.conn.fmt c.msg := by
    cases hp : c.phase with
    | send fut retry =>
        rw [hp] at hnow
        exact ⟨fut.left, left_ne_nil hnow.2, hnow.1⟩
    | redial cause r =>
        rw [hp] at hnow
        exact hnow
    | panicked =>
        rw [hp] at hnow
        exact hnow
    | done r =>
        rw [hp] at hnow
        cases r with
        | ok u =>
            rw [SendRaw.returned, hp] at hret
            exact absurd rfl hret
        | error e => exact hnow
  obtain ⟨rest, hne, hframe⟩ := hpart
  refine .inr ⟨c.msg, h.sent, ⟨rest, hframe⟩, fun heq => hne ?_⟩
  rw [← heq] at hframe
  exact List.self_eq_append_right.mp hframe.symm

/-- A connection held, whether a call is under way on it or not. -/
theorem SendSideInv.heldLine {s : SendSide} (h : SendSideInv s) (htorn : s.held.torn = false) :
    LineOk s.sent s.held := by
  have hheld := h.held htorn
  rw [HeldOk] at hheld
  split at hheld
  · obtain ⟨part, hpart, hline, -⟩ := hheld
    exact ⟨part, hpart, hline⟩
  · next c hlive =>
      have hret : c.returned ≠ some (.ok ()) := by
        rw [hheld.1]
        exact (Option.some_ne_none _).symm
      exact ⟨_, partOf_since (h.call c hlive) hret, hheld.2⟩

/-- A piece of a call that is not yet settled. -/
structure Following (s : SendSide) (c : SendRaw) : Prop where
  call : CallOk s c
  past : PastOk s.sent s.past
  held : s.held.torn = false → LineAt s.held s.held.conn.since
  counted : (s.lines.flatMap SendLine.done ++ [c.msg]).Sublist s.sent

theorem flatMap_lines (s : SendSide) :
    s.lines.flatMap SendLine.done = s.past.flatMap SendLine.done ++ s.held.done := by
  rw [SendSide.lines, List.flatMap_append, List.flatMap_singleton]

theorem inside_part {l : List UInt8} (h : (!l.isEmpty) = false) : l = [] := by
  cases l with
  | nil => rfl
  | cons b l => cases h

theorem sublist_without {α : Type} {xs ys zs : List α} (h : (xs ++ ys).Sublist zs) :
    (xs ++ []).Sublist zs :=
  (List.append_sublist_append_left xs |>.mpr (List.nil_sublist ys)).trans h

theorem Following.settle {s : SendSide} {c : SendRaw} (h : Following s c) :
    SendSideInv (s.settle c) := by
  unfold SendSide.settle
  split
  · next hret =>
      refine ⟨fun d hd => ?_, h.past, fun ht => ⟨hret, h.held ht⟩, h.counted⟩
      cases hd
      exact ⟨h.call.conn, h.call.inv, h.call.sent⟩
  · next hret =>
      refine ⟨fun d hd => (by cases hd), h.past,
        fun ht => ⟨[], .inl rfl, ?_, fun _ => rfl⟩, ?_⟩
      · -- the frame is all there
        have hline := h.held ht
        have hnow := h.call.inv.now
        have hdone : c.phase = .done (.ok ()) := by
          cases hp : c.phase with
          | done r =>
              rw [SendRaw.returned, hp] at hret
              cases hret
              rfl
          | _ => rw [SendRaw.returned, hp] at hret; cases hret
        rw [hdone, h.call.conn] at hnow
        have hwhole : s.held.conn.since = frameBytes s.held.conn.fmt c.msg := hnow
        show s.held.conn.wire =
          (s.held.done ++ [c.msg]).flatMap (frameBytes s.held.conn.fmt) ++ []
        rw [LineAt, hwhole] at hline
        rw [List.flatMap_append, List.flatMap_singleton, List.append_nil]
        exact hline
      · have hcounted := h.counted
        rw [flatMap_lines, List.append_assoc] at hcounted
        rw [flatMap_lines]
        simpa using hcounted
  · next e hret =>
      have hpart := partOf_since h.call (by rw [hret]; simp)
      refine ⟨fun d hd => (by cases hd), h.past,
        fun ht => ⟨s.held.conn.since, hpart, h.held ht, fun hin => ?_⟩,
        sublist_without h.counted⟩
      rw [← h.call.conn]
      exact inside_part hin

/-- A call goes on, on the connection it holds or on a new one. -/
theorem SendSideInv.follow {s : SendSide} {c c' : SendRaw} {a : RawAct} (h : SendSideInv s)
    (hlive : s.live = some c) (hstep : c.step a = some c') : Following (s.follow c c') c' := by
  have hcall := h.call c hlive
  have hmsg : c'.msg = c.msg := (step_inv hcall.inv hstep).sends
  have hinv : RawInv c'.msg c' := by
    rw [hmsg]
    exact step_inv hcall.inv hstep
  have hcounted := h.counted
  rw [hlive] at hcounted
  unfold SendSide.follow
  rcases step_conns hstep with ⟨hpast, bs, hconn⟩ | ⟨hpast, fmt, hconn⟩
  · rw [if_pos (congrArg List.length hpast)]
    refine ⟨⟨rfl, hinv, hmsg ▸ hcall.sent⟩, h.past, fun ht => ?_, ?_⟩
    · have hheld := h.held ht
      rw [HeldOk, hlive] at hheld
      rw [hconn, hcall.conn]
      exact write_added hheld.2 bs
    · rw [flatMap_lines] at hcounted
      rw [hmsg, flatMap_lines]
      exact hcounted
  · have hlen : c'.past.length ≠ c.past.length := by
      rw [hpast, List.length_append, List.length_singleton]
      omega
    rw [if_neg hlen]
    refine ⟨⟨rfl, hinv, hmsg ▸ hcall.sent⟩, h.past.concat h.heldLine, fun _ => ?_, ?_⟩
    · show c'.conn.wire = [] ++ c'.conn.since
      rw [hconn]
      rfl
    · rw [hmsg, flatMap_lines, List.append_nil, List.flatMap_append, List.flatMap_singleton,
        ← flatMap_lines]
      exact hcounted

theorem SendSideInv.send {s : SendSide} (h : SendSideInv s) (hlive : s.live = none)
    (msg : Message) : SendSideInv (s.send msg) := by
  have hsub : s.sent ⊆ s.sent ++ [msg] := List.subset_append_left _ _
  have hconn :
    (SendRaw.call msg s.dialAddr s.reconnect s.held.conn.fmt s.held.conn.wire).conn =
      ⟨s.held.conn.fmt, s.held.conn.wire, []⟩ := (settle_conns _ _ _).1
  have hinv := call_inv msg s.dialAddr s.reconnect s.held.conn.fmt s.held.conn.wire
  have hmsg := hinv.sends
  refine Following.settle ⟨⟨rfl, hmsg.symm ▸ hinv, ?_⟩, fun line hl ht => ?_, fun ht => ?_, ?_⟩
  · rw [hmsg]
    exact List.mem_append_right _ (List.mem_singleton_self msg)
  · obtain ⟨part, hpart, hline⟩ := h.past line hl ht
    exact ⟨part, hpart.mono hsub, hline⟩
  · -- a send that is begun inside a frame tears the connection
    obtain ⟨htorn, hinside⟩ := Bool.or_eq_false_iff.mp ht
    have hheld := h.held htorn
    rw [HeldOk, hlive] at hheld
    obtain ⟨part, -, hline, hnil⟩ := hheld
    rw [hnil hinside] at hline
    rw [hconn]
    exact hline
  · have hcounted := h.counted
    rw [hlive, Option.map_none, Option.toList_none, List.append_nil, flatMap_lines] at hcounted
    rw [hmsg, flatMap_lines]
    exact hcounted.append (List.Sublist.refl [msg])

theorem SendSideInv.drop {s : SendSide} {c : SendRaw} (h : SendSideInv s)
    (hlive : s.live = some c) :
    SendSideInv { s with live := none, inside := !c.conn.since.isEmpty } := by
  have hcall := h.call c hlive
  have hcounted := h.counted
  rw [hlive] at hcounted
  refine ⟨fun d hd => (by cases hd), h.past, fun ht => ?_, sublist_without hcounted⟩
  have hheld := h.held ht
  rw [HeldOk, hlive] at hheld
  have hpart := partOf_since hcall (by rw [hheld.1]; exact (Option.some_ne_none _).symm)
  refine ⟨s.held.conn.since, hpart, hheld.2, fun hin => ?_⟩
  rw [← hcall.conn]
  exact inside_part hin

theorem SendSideInv.replace {s : SendSide} (h : SendSideInv s) (hlive : s.live = none)
    (fmt : FrameFormat) : SendSideInv (s.replace fmt) where
  call c hc := by cases hlive.symm.trans hc
  past := h.past.concat h.heldLine
  held _ := by
    rw [HeldOk, show (s.replace fmt).live = none from hlive]
    exact ⟨[], .inl rfl, rfl, fun _ => rfl⟩
  counted := by
    have hcounted := h.counted
    rw [flatMap_lines] at hcounted ⊢
    show ((s.past ++ [s.held]).flatMap SendLine.done ++ [] ++ _).Sublist s.sent
    rw [List.flatMap_append, List.flatMap_singleton, List.append_nil]
    exact hcounted

theorem SendSideInv.step {s t : SendSide} {a : SendSideAct} (h : SendSideInv s)
    (hstep : s.step a = some t) : SendSideInv t := by
  unfold SendSide.step at hstep
  split at hstep
  · next msg hlive =>
      cases hstep
      exact h.send hlive msg
  · next a c hlive =>
      split at hstep
      · cases hstep
      · next c' hc =>
          cases hstep
          exact (h.follow hlive hc).settle
  · next c hlive =>
      cases hstep
      exact h.drop hlive
  · cases hstep

/-! ## Connections stay -/

/-- What is on a connection stays there. -/
def LineGrows (line line' : SendLine) : Prop :=
  line'.conn.fmt = line.conn.fmt ∧ line.conn.wire <+: line'.conn.wire

theorem lineGrows_refl (line : SendLine) : LineGrows line line := ⟨rfl, List.prefix_rfl⟩

/-- The connections of `t` are those of `s`, the last of them perhaps with more on
it; or there is a new one, and then that has nothing but what the call wrote. -/
def LinesGrow (s t : SendSide) : Prop :=
  (t.past = s.past ∧ LineGrows s.held t.held) ∨ t.past = s.past ++ [s.held]

theorem LinesGrow.get {s t : SendSide} (h : LinesGrow s t) {k : Nat} {line : SendLine}
    (hk : s.lines[k]? = some line) : ∃ line', t.lines[k]? = some line' ∧
    LineGrows line line' := by
  rw [SendSide.lines] at hk ⊢
  rcases Nat.lt_trichotomy k s.past.length with hlt | heq | hgt
  · have hold := hk
    rw [List.getElem?_append_left hlt] at hold
    rcases h with ⟨hpast, -⟩ | hpast
    · exact ⟨line, by rw [hpast, List.getElem?_append_left hlt]; exact hold,
        lineGrows_refl line⟩
    · refine ⟨line, ?_, lineGrows_refl line⟩
      rw [hpast, List.append_assoc, List.getElem?_append_left hlt]
      exact hold
  · subst heq
    rw [List.getElem?_concat_length] at hk
    cases hk
    rcases h with ⟨hpast, hgrows⟩ | hpast
    · exact ⟨t.held, by rw [hpast, List.getElem?_concat_length], hgrows⟩
    · refine ⟨s.held, ?_, lineGrows_refl _⟩
      rw [hpast,
        List.getElem?_append_left (by rw [List.length_append, List.length_singleton]; omega),
        List.getElem?_concat_length]
  · rw [List.getElem?_eq_none (by rw [List.length_append, List.length_singleton]; omega)] at hk
    cases hk

theorem settle_lines (s : SendSide) (c : SendRaw) :
    (s.settle c).past = s.past ∧ (s.settle c).held.conn = s.held.conn := by
  unfold SendSide.settle
  split <;> exact ⟨rfl, rfl⟩

theorem SendSideInv.grows {s t : SendSide} {a : SendSideAct} (h : SendSideInv s)
    (hstep : s.step a = some t) : LinesGrow s t := by
  unfold SendSide.step at hstep
  split at hstep
  · next msg hlive =>
      cases hstep
      obtain ⟨hpast, hconn⟩ := settle_lines
        { s with
          held := { s.held with
            conn := (SendRaw.call msg s.dialAddr s.reconnect s.held.conn.fmt
              s.held.conn.wire).conn
            torn := s.held.torn || s.inside }
          sent := s.sent ++ [msg] }
        (SendRaw.call msg s.dialAddr s.reconnect s.held.conn.fmt s.held.conn.wire)
      have hcall : (s.send msg).held.conn = ⟨s.held.conn.fmt, s.held.conn.wire, []⟩ :=
        hconn.trans (settle_conns _ _ _).1
      refine .inl ⟨hpast, ?_⟩
      rw [LineGrows, hcall]
      exact ⟨rfl, List.prefix_rfl⟩
  · next a c hlive =>
      split at hstep
      · cases hstep
      · next c' hc =>
          cases hstep
          obtain ⟨hkept, hconn⟩ := settle_lines (s.follow c c') c'
          have hcall := (h.call c hlive).conn
          unfold SendSide.follow at hkept hconn
          unfold SendSide.follow
          rcases step_conns hc with ⟨hpast, bs, hnew⟩ | ⟨hpast, fmt, hnew⟩
          · rw [if_pos (congrArg List.length hpast)] at hkept hconn ⊢
            refine .inl ⟨hkept, ?_⟩
            rw [LineGrows, hconn, ← hcall]
            rw [hnew]
            exact ⟨rfl, List.prefix_append _ _⟩
          · have hlen : c'.past.length ≠ c.past.length := by
              rw [hpast, List.length_append, List.length_singleton]
              omega
            rw [if_neg hlen] at hkept ⊢
            exact .inr hkept
  · next c hlive =>
      cases hstep
      exact .inl ⟨rfl, lineGrows_refl _⟩
  · cases hstep

/-- A connection on which no send was begun inside another one. -/
theorem SendSideInv.line {s : SendSide} (h : SendSideInv s) {line : SendLine}
    (hl : line ∈ s.lines) (htorn : line.torn = false) : LineOk s.sent line := by
  rw [SendSide.lines, List.mem_append, List.mem_singleton] at hl
  rcases hl with hl | rfl
  · exact h.past line hl htorn
  · exact h.heldLine htorn

theorem SendSideInv.done_sublist {s : SendSide} (h : SendSideInv s) :
    (s.lines.flatMap SendLine.done).Sublist s.sent :=
  (List.sublist_append_left _ _).trans h.counted

/-- What went through a connection to its other end. -/
theorem SendSideInv.messages {s : SendSide} (h : SendSideInv s) {line : SendLine}
    (hl : line ∈ s.lines) (htorn : line.torn = false)
    (hfit : ∀ m ∈ s.sent, m.len ≤ maxFrameBytes) {w : PointerWidth} {c : FramedConn}
    (hown : OwnFrames w line.conn.fmt c) (htook : c.took <+: line.conn.wire) :
    c.recv.results.filterMap Except.toOption <+: line.done.map Message.received ∧
      (c.took = line.conn.wire →
        c.recv.results.filterMap Except.toOption = line.done.map Message.received) := by
  obtain ⟨part, hpart, hwire⟩ := h.line hl htorn
  have hdone : ∀ m ∈ line.done, m.len ≤ maxFrameBytes := fun m hm =>
    hfit m (h.done_sublist.subset (List.mem_flatMap.mpr ⟨line, hl, hm⟩))
  rw [LineAt] at hwire
  rw [hwire] at htook
  obtain ⟨hbegin, hall⟩ := messages_of_wire hown hdone (hpart.unfinished hfit) htook
  exact ⟨hbegin, fun heq => hall (heq.trans hwire)⟩

end NngCore.Proofs
