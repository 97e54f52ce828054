import Mathlib.Data.List.Forall2
import NngCore.Proofs.SendSide
import NngCore.Spec.PointToPoint

/-!
# A socket that sends and receives

The sending side is `SendSide`; here is the other one, and the two together. A
receive gives its caller every message its connection gives it, in the same step,
so dropping or redialing loses none that was received. A redial puts new halves in
the place of both old ones, whichever call it is made for: the connections of the
two sides stay in step.
-/

namespace NngCore.Proofs

open NngCore.Lib NngCore.Ref NngCore.Spec

variable {w : PointerWidth}

/-- The receiving half of a connection is where its reads have brought it. -/
def ReadsOk (w : PointerWidth) (line : SendLine) (c : FramedConn) : Prop :=
  ∃ items p, FramedAt w line.conn.fmt c items p

structure RawSocketInv (w : PointerWidth) (s : RawSocket) : Prop where
  out : SendSideInv s.out
  -- a receive is under way only while no send is
  alone : s.live ≠ none → s.out.live = none
  past : List.Forall₂ (ReadsOk w) s.out.past s.past
  held : ReadsOk w s.out.held s.conn
  returned : s.returned.filterMap Except.toOption = s.conns.flatMap FramedConn.messages

theorem readsOk_fresh (line : SendLine) : ReadsOk w line .fresh := ⟨[], [], framedAt_fresh⟩

theorem flatMap_conns (s : RawSocket) :
    s.conns.flatMap FramedConn.messages =
      s.past.flatMap FramedConn.messages ++ FramedConn.messages s.conn := by
  rw [RawSocket.conns, List.flatMap_append, List.flatMap_singleton]

theorem messages_settled {c c' : FramedConn} {r : Except TransportError Message}
    (h : c'.recv.results = c.recv.results ++ [r]) :
    FramedConn.messages c' = FramedConn.messages c ++ r.toOption.toList := by
  rw [FramedConn.messages, h, List.filterMap_append, FramedConn.messages]
  cases r <;> rfl

/-- The receiving half held, between two steps of the socket. -/
theorem RawSocketInv.waits {s : RawSocket} (h : RawSocketInv w s) {conn : FramedConn}
    {live : Option RecvRaw} (hlive : live ≠ none → s.out.live = none)
    (hheld : ReadsOk w s.out.held conn)
    (hsame : FramedConn.messages conn = FramedConn.messages s.conn) :
    RawSocketInv w { s with conn := conn, live := live } where
  out := h.out
  alone := hlive
  past := h.past
  held := hheld
  returned := by
    rw [flatMap_conns]
    show s.returned.filterMap _ = s.past.flatMap _ ++ FramedConn.messages conn
    rw [hsame, ← flatMap_conns]
    exact h.returned

/-- A call ends, with a message its connection gave or with an error. -/
theorem RawSocketInv.finish {s : RawSocket} (h : RawSocketInv w s) {conn : FramedConn}
    {r : Except NngError Message} (hheld : ReadsOk w s.out.held conn)
    (hgave : FramedConn.messages conn = FramedConn.messages s.conn ++ r.toOption.toList) :
    RawSocketInv w ({ s with conn := conn }.finish r) where
  out := h.out
  alone hlive := absurd rfl hlive
  past := h.past
  held := hheld
  returned := by
    rw [flatMap_conns]
    show (s.returned ++ [r]).filterMap _ = s.past.flatMap _ ++ FramedConn.messages conn
    rw [List.filterMap_append, h.returned, hgave, flatMap_conns, List.append_assoc]
    cases r <;> rfl

theorem RawSocketInv.received {s : RawSocket} (h : RawSocketInv w s) {conn : FramedConn}
    (hout : s.out.live = none) (hheld : ReadsOk w s.out.held conn) (retry : Bool)
    {r : Except NngError Message}
    (hgave : FramedConn.messages conn = FramedConn.messages s.conn ++ r.toOption.toList) :
    RawSocketInv w ({ s with conn := conn }.received retry r) := by
  cases r with
  | ok msg => exact h.finish hheld hgave
  | error e =>
      unfold RawSocket.received
      dsimp only
      split
      · exact h.waits (fun _ => hout) hheld (hgave.trans (List.append_nil _))
      · exact h.finish hheld hgave

/-- `recv` is called, or the read it awaits has come back. -/
theorem RawSocketInv.settle {s : RawSocket} (h : RawSocketInv w s) (hout : s.out.live = none)
    {a : RecvAct Unit} (ha : a ≠ .drop) {conn : FramedConn}
    (hstep : s.conn.step w s.fmt a = some conn) (retry : Bool) :
    RawSocketInv w (s.settle retry conn) := by
  obtain ⟨items, p, hat⟩ := h.held
  obtain ⟨items', p', hat'⟩ := hat.step hstep
  have hheld : ReadsOk w s.out.held conn := ⟨items', p', hat'⟩
  have halive : conn.recv.panicked = false := hat'.sound.alive
  unfold RawSocket.settle
  dsimp only
  rw [if_neg (by rw [halive]; exact Bool.false_ne_true)]
  rcases receiver_settled ha (framedConn_step hstep).1 with hdead | ⟨hlive, hres⟩ |
    ⟨hlive, r, hres⟩
  · rw [halive] at hdead
    cases hdead
  · have hsame : FramedConn.messages conn = FramedConn.messages s.conn := by
      rw [FramedConn.messages, hres, FramedConn.messages]
    split
    · next hnone _ => exact absurd hnone hlive
    · exact h.waits (fun _ => hout) hheld hsame
  · rw [hlive, hres, List.getLast?_concat]
    refine h.received hout hheld retry ?_
    rw [messages_settled hres]
    cases r <;> rfl

theorem RawSocketInv.startRecv {s t : RawSocket} (h : RawSocketInv w s)
    (hout : s.out.live = none) {retry : Bool} (hstep : s.startRecv w retry = some t) :
    RawSocketInv w t := by
  obtain ⟨conn, hconn, rfl⟩ := Option.map_eq_some_iff.mp hstep
  exact h.settle hout (a := .call ()) nofun hconn retry

/-! ## New connections -/

/-- A new connection takes the place of the one held, on both sides. -/
theorem RawSocketInv.fresh {s : RawSocket} (h : RawSocketInv w s) {out : SendSide}
    (hout : SendSideInv out) (hpast : out.past = s.out.past ++ [s.out.held])
    (halone : s.live ≠ none → out.live = none) :
    RawSocketInv w { s with out := out, past := s.past ++ [s.conn], conn := .fresh } where
  out := hout
  alone := halone
  past := by
    show List.Forall₂ (ReadsOk w) out.past (s.past ++ [s.conn])
    rw [hpast]
    exact List.rel_append h.past (.cons h.held .nil)
  held := readsOk_fresh _
  returned := by
    rw [flatMap_conns]
    show s.returned.filterMap _ = s.conns.flatMap _ ++ []
    rw [List.append_nil]
    exact h.returned

theorem RawSocketInv.replace {s : RawSocket} (h : RawSocketInv w s) (hout : s.out.live = none)
    (fmt : FrameFormat) : RawSocketInv w (s.replace fmt) :=
  h.fresh (h.out.replace hout fmt) rfl fun _ => hout

theorem RawSocketInv.sent {s : RawSocket} (h : RawSocketInv w s) (hlive : s.live = none)
    {a : SendSideAct} {out : SendSide} (hstep : s.out.step a = some out) :
    RawSocketInv w (s.sent out) := by
  have hout := h.out.step hstep
  have halone : s.live ≠ none → out.live = none := fun hne => absurd hlive hne
  unfold RawSocket.sent
  rcases h.out.grows hstep with ⟨hpast, hfmt, -⟩ | hpast
  · rw [if_pos (congrArg List.length hpast)]
    refine ⟨hout, halone, ?_, ?_, h.returned⟩
    · show List.Forall₂ (ReadsOk w) out.past s.past
      rw [hpast]
      exact h.past
    · show ReadsOk w out.held s.conn
      rw [ReadsOk, hfmt]
      exact h.held
  · have hlen : out.past.length ≠ s.out.past.length := by
      rw [hpast, List.length_append, List.length_singleton]
      omega
    rw [if_neg hlen]
    exact h.fresh hout hpast halone

theorem RawSocketInv.gaveUp {s : RawSocket} (h : RawSocketInv w s) (e : NngError) :
    RawSocketInv w (s.finish (.error e)) :=
  h.finish (r := .error e) h.held (List.append_nil _).symm

theorem RawSocketInv.die {s : RawSocket} (h : RawSocketInv w s) : RawSocketInv w s.die where
  out := h.out
  alone hlive := absurd rfl hlive
  past := h.past
  held := h.held
  returned := h.returned

theorem RawSocketInv.dialDone {s t : RawSocket} (h : RawSocketInv w s)
    (hout : s.out.live = none) {cause : NngError} {r : Redial} {fmt : Option FrameFormat}
    (hstep : s.dialDone w cause r fmt = some t) : RawSocketInv w t := by
  cases fmt with
  | some fmt => exact (h.replace hout fmt).startRecv hout hstep
  | none =>
      simp only [RawSocket.dialDone] at hstep
      split at hstep
      · cases hstep
      · split at hstep
        · cases hstep
          exact h.waits (fun _ => hout) h.held rfl
        · cases hstep
          exact h.gaveUp cause
        · cases hstep
          exact h.die

theorem dropped_messages {c c' : FramedConn} {fmt : FrameFormat}
    (h : c.step w fmt .drop = some c') : FramedConn.messages c' = FramedConn.messages c := by
  rcases receiver_moved (framedConn_step h).1 with ⟨k, ha, -⟩ | ⟨res, fut, ha, -⟩ |
    ⟨fut, -, -, heq⟩
  · cases ha
  · cases ha
  · rw [FramedConn.messages, heq]
    rfl

theorem RawSocketInv.step {s t : RawSocket} {a : RawSocketAct} (h : RawSocketInv w s)
    (hstep : s.step w a = some t) : RawSocketInv w t := by
  unfold RawSocket.step at hstep
  split at hstep
  · next a hlive =>
      split at hstep
      · cases hstep
      · obtain ⟨out, hsend, rfl⟩ := Option.map_eq_some_iff.mp hstep
        exact h.sent hlive hsend
  · next hlive =>
      split at hstep
      · cases hstep
      · next hfree =>
          have hout : s.out.live = none := by
            rw [Bool.or_eq_true, not_or] at hfree
            exact Option.not_isSome_iff_eq_none.mp hfree.2
          exact h.startRecv hout hstep
  · next r retry hlive =>
      obtain ⟨conn, hread, rfl⟩ := Option.map_eq_some_iff.mp hstep
      have hout := h.alone (by rw [hlive]; exact Option.some_ne_none _)
      exact h.settle hout (a := .read r) nofun hread retry
  · next cause r hlive =>
      split at hstep
      · cases hstep
      · cases hstep
        have hout := h.alone (by rw [hlive]; exact Option.some_ne_none _)
        exact h.waits (fun _ => hout) h.held rfl
  · next fmt cause r hlive =>
      split at hstep
      · exact h.dialDone (h.alone (by rw [hlive]; exact Option.some_ne_none _)) hstep
      · cases hstep
  · next retry hlive =>
      obtain ⟨conn, hdrop, rfl⟩ := Option.map_eq_some_iff.mp hstep
      obtain ⟨items, p, hat⟩ := h.held
      exact h.waits (fun hne => absurd rfl hne) (hat.step hdrop) (dropped_messages hdrop)
  · cases hstep
    exact h.waits (fun hne => absurd rfl hne) h.held rfl
  · cases hstep

/-! ## Connections stay -/

/-- The connections of `t` are those of `s`, with perhaps a new one in the place of
the one held. -/
structure SocketMoves (s t : RawSocket) : Prop where
  out : LinesGrow s.out t.out
  past : t.past = s.past ∨ t.past = s.past ++ [s.conn]

theorem LinesGrow.refl (s : SendSide) : LinesGrow s s := .inl ⟨rfl, lineGrows_refl _⟩

theorem settle_moves {s r : RawSocket} (h : SocketMoves s r) (retry : Bool)
    (conn : FramedConn) :
    SocketMoves s (r.settle retry conn) := by
  have hkept : (r.settle retry conn).out = r.out ∧ (r.settle retry conn).past = r.past := by
    unfold RawSocket.settle
    dsimp only
    split
    · exact ⟨rfl, rfl⟩
    · split
      · next res _ _ =>
          cases res.mapError NngError.ofTransport with
          | ok msg => exact ⟨rfl, rfl⟩
          | error e =>
              unfold RawSocket.received
              dsimp only
              split <;> exact ⟨rfl, rfl⟩
      · exact ⟨rfl, rfl⟩
  refine ⟨?_, ?_⟩
  · rw [hkept.1]
    exact h.out
  · rw [hkept.2]
    exact h.past

theorem startRecv_moves {s r t : RawSocket} (h : SocketMoves s r) {retry : Bool}
    (hstep : r.startRecv w retry = some t) : SocketMoves s t := by
  obtain ⟨conn, -, rfl⟩ := Option.map_eq_some_iff.mp hstep
  exact settle_moves h retry conn

theorem RawSocketInv.moves {s t : RawSocket} {a : RawSocketAct} (h : RawSocketInv w s)
    (hstep : s.step w a = some t) : SocketMoves s t := by
  have hstays : SocketMoves s s := ⟨.refl s.out, .inl rfl⟩
  unfold RawSocket.step at hstep
  split at hstep
  · next a hlive =>
      split at hstep
      · cases hstep
      · obtain ⟨out, hsend, rfl⟩ := Option.map_eq_some_iff.mp hstep
        have hgrows := h.out.grows hsend
        unfold RawSocket.sent
        split
        · exact ⟨hgrows, .inl rfl⟩
        · exact ⟨hgrows, .inr rfl⟩
  · split at hstep
    · cases hstep
    · exact startRecv_moves hstays hstep
  · next r retry hlive =>
      obtain ⟨conn, -, rfl⟩ := Option.map_eq_some_iff.mp hstep
      exact settle_moves hstays retry conn
  · split at hstep
    · cases hstep
    · cases hstep
      exact ⟨.refl s.out, .inl rfl⟩
  · next fmt cause r hlive =>
      split at hstep
      · cases fmt with
        | some fmt => exact startRecv_moves ⟨.inr rfl, .inr rfl⟩ hstep
        | none =>
            simp only [RawSocket.dialDone] at hstep
            split at hstep
            · cases hstep
            · split at hstep <;> cases hstep <;> exact ⟨.refl s.out, .inl rfl⟩
      · cases hstep
  · obtain ⟨conn, -, rfl⟩ := Option.map_eq_some_iff.mp hstep
    exact ⟨.refl s.out, .inl rfl⟩
  · cases hstep
    exact ⟨.refl s.out, .inl rfl⟩
  · cases hstep

end NngCore.Proofs
