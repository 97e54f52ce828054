import NngCore.Proofs.Push0Fan
import NngCore.Proofs.Sub0
import NngCore.Spec.Answering

/-!
# An answer to each

A handle borrows the socket, so between the message it came with and its answer
there is no other message and no redial. What a connection has been asked, less
the last question while a handle for it is out, is therefore all that can have
been answered on it, and this is what the steps keep.
-/

namespace NngCore.Proofs

open NngCore.Lib NngCore.Ref NngCore.Spec

variable {w : PointerWidth} {fmt : FrameFormat}

/-! ## The two protocols -/

theorem respondent_processIncoming_message (msg : Message) :
    Respondent0State.processIncoming msg =
      if h : msg.body.length < 4 then some (.error .messageTooShort, msg)
      else some
        (.ok ⟨⟨(msg.body.take 4).toArray, Respondent0State.size_idBytes (M := Message) h⟩⟩,
        { msg with body := msg.body.drop 4 }) := by
  simp only [Respondent0State.processIncoming, MessageBuf.body, MessageBuf.trimFront]
  split
  · rfl
  · next hlong => rw [Message.trimFront_of_le (Nat.le_of_not_lt hlong)]

theorem routingOf_short {msg : Message} (h : msg.body.length < 4) : routingOf msg = none :=
  dif_pos h

theorem handedOut_short {msg : Message} (h : msg.body.length < 4) (p : AnswerProtocol) :
    handedOut p msg = .error (AnswerProtocol.tooShort p) := if_pos h

theorem processIncoming_short (p : AnswerProtocol) {msg : Message} (h : msg.body.length < 4) :
    p.processIncoming msg = some (.error (AnswerProtocol.tooShort p), msg) := by
  cases p with
  | rep0 =>
      rw [AnswerProtocol.processIncoming, rep_processIncoming_message, dif_pos h]
      rfl
  | respondent0 =>
      rw [AnswerProtocol.processIncoming, respondent_processIncoming_message, dif_pos h]
      rfl

theorem processIncoming_long (p : AnswerProtocol) {msg : Message} (h : ¬ msg.body.length < 4) :
    ∃ routing, routingOf msg = some routing ∧
      handedOut p msg = .ok ⟨msg.header, msg.body.drop 4⟩ ∧
      p.processIncoming msg = some (.ok routing, ⟨msg.header, msg.body.drop 4⟩) := by
  refine ⟨_, dif_neg h, if_neg h, ?_⟩
  cases p with
  | rep0 =>
      rw [AnswerProtocol.processIncoming, rep_processIncoming_message, dif_neg h]
      rfl
  | respondent0 =>
      rw [AnswerProtocol.processIncoming, respondent_processIncoming_message, dif_neg h]
      rfl

theorem prepareAnswer_eq (p : AnswerProtocol) (msg : Message) (routing : Vector UInt8 4) :
    p.prepareAnswer msg routing = some (stamped (routing, msg)) := by
  cases p with
  | rep0 => rfl
  | respondent0 => rfl

/-! ## The errors of a transport -/

/-- No transport reports a violation of the protocol. -/
def NoViolation (c : SubConn) : Prop := ∀ r ∈ c.results, ofMessage r = r.isOk

theorem noViolation_fresh (kind : SubConnKind) : NoViolation (.fresh kind) := by
  cases kind with
  | framed => exact fun _ hr => absurd hr List.not_mem_nil
  | ws => exact fun _ hr => absurd hr List.not_mem_nil

theorem ofMessage_ofTransport (r : Except TransportError Message) :
    ofMessage (r.mapError .ofTransport) = (r.mapError NngError.ofTransport).isOk := by
  match r with
  | .ok _ => rfl
  | .error e => cases e <;> rfl

theorem noViolation_framed (c : FramedConn) : NoViolation (.framed c) := by
  intro r hr
  obtain ⟨r', -, rfl⟩ := List.mem_map.mp hr
  exact ofMessage_ofTransport r'

theorem ofMessage_received {i : WsItem} {r : Except NngError Message}
    (h : i.received = some r) : ofMessage r = r.isOk := by
  cases i <;> cases h <;> rfl

theorem noViolation_read {c : WsConn} (h : NoViolation (.ws c)) (i : WsItem) :
    NoViolation (.ws (c.read i)) := by
  intro r hr
  unfold WsConn.read at hr
  dsimp only at hr
  split at hr
  · exact h r hr
  · next r' hr' =>
      rcases List.mem_append.mp hr with hr | hr
      · exact h r hr
      · rw [List.mem_singleton.mp hr]
        exact ofMessage_received hr'

theorem NoViolation.step {c c' : SubConn} {a : SubConnAct} (h : NoViolation c)
    (hstep : c.step w fmt a = some c') : NoViolation c' := by
  rcases conn_moved hstep with ⟨f, f', b, rfl, -, -, rfl⟩ | ⟨s, rfl, -, rfl⟩ |
    ⟨s, i, rfl, -, -, rfl⟩ | ⟨s, rfl, -, rfl⟩
  · exact noViolation_framed f'
  · exact h
  · exact noViolation_read h i
  · exact h

/-! ## One connection -/

/-- A connection with the answer that is on its way and the handle that is out. -/
structure AnswerConnOk (w : PointerWidth) (fmt : FrameFormat) (d : AnswerConn)
    (send : Option (Message × PushFut)) (handle : Option (Vector UInt8 4)) : Prop where
  conn : ConnAt w fmt d.inbound
  plain : NoViolation d.inbound
  asked : d.asked = (SubConn.messages d.inbound).filterMap routingOf
  given : d.out.given = d.answers.map stamped
  out : WorkerOk d.out send
  turn : ∃ earlier, d.asked = earlier ++ handle.toList ∧
    (d.answers.map Prod.fst).Sublist earlier

theorem answerConnOk_fresh (kind : PushKind) :
    AnswerConnOk w kind.fmt (.fresh kind) none none where
  conn := connAt_fresh _
  plain := noViolation_fresh _
  asked := by
    show [] = (SubConn.messages (.fresh kind.sub)).filterMap routingOf
    rw [messages_fresh]
    rfl
  given := by cases kind <;> rfl
  out := workerOk_fresh kind
  turn := ⟨[], rfl, .slnil⟩

variable {d : AnswerConn} {send : Option (Message × PushFut)}
    {handle : Option (Vector UInt8 4)}

theorem AnswerConnOk.inTurn (h : AnswerConnOk w fmt d send handle) :
    (d.answers.map Prod.fst).Sublist d.asked := by
  obtain ⟨earlier, hasked, hsub⟩ := h.turn
  rw [hasked]
  exact hsub.trans (List.sublist_append_left _ _)

theorem AnswerConnOk.answersOwn (h : AnswerConnOk w fmt d send handle) : AnswersOwn w fmt d :=
  ⟨h.conn.ownMessages, h.asked, h.inTurn, h.given, h.out.delivered⟩

/-- The handle is gone, without an answer. -/
theorem AnswerConnOk.letGo (h : AnswerConnOk w fmt d send handle) :
    AnswerConnOk w fmt d send none :=
  ⟨h.conn, h.plain, h.asked, h.given, h.out,
    ⟨d.asked, (List.append_nil _).symm, h.inTurn⟩⟩

/-- The receiving half has moved on, without a message. -/
theorem AnswerConnOk.quiet (h : AnswerConnOk w fmt d send handle) {c : SubConn}
    (hc : ConnAt w fmt c)
    (hplain : NoViolation c) (hsame : SubConn.messages c = SubConn.messages d.inbound) :
    AnswerConnOk w fmt { d with inbound := c } send handle :=
  ⟨hc, hplain, h.asked.trans (by rw [hsame]), h.given, h.out, h.turn⟩

/-- A message with a handle. -/
theorem AnswerConnOk.question (h : AnswerConnOk w fmt d send none) {c : SubConn}
    (hc : ConnAt w fmt c)
    (hplain : NoViolation c) {msg : Message} {routing : Vector UInt8 4}
    (hnew : SubConn.messages c = SubConn.messages d.inbound ++ [msg])
    (hrouting : routingOf msg = some routing) :
    AnswerConnOk w fmt { d with inbound := c, asked := d.asked ++ [routing] }
      send (some routing) := by
  refine ⟨hc, hplain, ?_, h.given, h.out, ⟨d.asked, rfl, h.inTurn⟩⟩
  rw [hnew, List.filterMap_append, ← h.asked, List.filterMap_cons_some hrouting]
  rfl

/-- A message that is too short. -/
theorem AnswerConnOk.refused (h : AnswerConnOk w fmt d send handle) {c : SubConn}
    (hc : ConnAt w fmt c)
    (hplain : NoViolation c) {msg : Message}
    (hnew : SubConn.messages c = SubConn.messages d.inbound ++ [msg])
    (hrouting : routingOf msg = none) :
    AnswerConnOk w fmt { d with inbound := c } send handle := by
  refine ⟨hc, hplain, ?_, h.given, h.out, h.turn⟩
  rw [hnew, List.filterMap_append, ← h.asked, List.filterMap_cons_none hrouting]
  exact (List.append_nil _).symm

/-- The sending half has moved on, with nothing new to send. -/
theorem AnswerConnOk.sends (h : AnswerConnOk w fmt d send handle) {v : Worker}
    {send' : Option (Message × PushFut)} (hv : WorkerOk v send')
    (hgiven : v.given = d.out.given) :
    AnswerConnOk w fmt { d with out := v } send' handle :=
  ⟨h.conn, h.plain, h.asked, hgiven.trans h.given, hv, h.turn⟩

/-- The handle is used: its answer is begun. -/
theorem AnswerConnOk.answers {routing : Vector UInt8 4}
    (h : AnswerConnOk w fmt d none (some routing))
    (msg : Message) {v : Worker} (hv : WorkerOk v send)
    (hgiven : v.given = d.out.given ++ [stamped (routing, msg)]) :
    AnswerConnOk w fmt { d with out := v, answers := d.answers ++ [(routing, msg)] }
      send none := by
  refine ⟨h.conn, h.plain, h.asked, ?_, hv, ⟨d.asked, (List.append_nil _).symm, ?_⟩⟩
  · rw [hgiven, h.given, List.map_append]
    rfl
  · obtain ⟨earlier, hasked, hsub⟩ := h.turn
    show ((d.answers ++ [(routing, msg)]).map Prod.fst).Sublist d.asked
    rw [hasked, List.map_append]
    exact hsub.append_right _

/-! ## The socket -/

def sendOf : Option AnswerPhase → Option (Message × PushFut)
  | some (.answering outgoing fut) => some (outgoing, fut)
  | _ => none

def handleOf : Option AnswerPhase → Option (Vector UInt8 4)
  | some (.holding routing) => some routing
  | _ => none

/-- The messages of `conns`, as `receive` has returned them. -/
def returns (p : AnswerProtocol) (conns : List AnswerConn) : List (Except NngError Message) :=
  (conns.flatMap fun d => SubConn.messages d.inbound).map (handedOut p)

theorem returns_concat (p : AnswerProtocol) (conns : List AnswerConn) (d : AnswerConn) :
    returns p (conns ++ [d]) =
      returns p conns ++ (SubConn.messages d.inbound).map (handedOut p) := by
  rw [returns, List.flatMap_append, List.map_append, List.flatMap_singleton]
  rfl

structure AnsInv (w : PointerWidth) (s : Answerer) : Prop where
  conn : AnswerConnOk w s.kind.fmt s.conn (sendOf s.live) (handleOf s.live)
  past : ∀ d ∈ s.past, AnswersOwn w s.kind.fmt d
  returned : s.returned.filter ofMessage = returns s.proto s.connections
  redials : ∀ loop, s.live = some (.redialing loop) → s.reconnect ≠ none
  alive : s.reconnect = none → s.panicked = false ∧ s.past = []

theorem AnsInv.answersAll {s : Answerer} (h : AnsInv w s) : AnswersAll w s := by
  refine ⟨forall_mem_concat h.past h.conn.answersOwn, h.returned, ?_, h.alive⟩
  intro routing hlive
  have hturn := h.conn.turn
  rw [hlive] at hturn
  exact hturn

theorem ansInv_listen (kind : PushKind) : AnsInv w (Rep0.listen kind) := by
  refine ⟨answerConnOk_fresh kind, fun _ hd => absurd hd List.not_mem_nil, ?_,
    (fun _ hl => by cases hl),
    fun _ => ⟨rfl, rfl⟩⟩
  show [] = returns _ ([] ++ [.fresh kind])
  rw [returns_concat, AnswerConn.fresh, messages_fresh]
  rfl

theorem ansInv_dial (kind : PushKind) (dialAddr : Option String)
    (reconnect : Option ReconnectOptions) :
    AnsInv w (Respondent0.dial kind dialAddr reconnect) := by
  refine ⟨answerConnOk_fresh kind, fun _ hd => absurd hd List.not_mem_nil, ?_,
    (fun _ hl => by cases hl),
    fun _ => ⟨rfl, rfl⟩⟩
  show [] = returns _ ([] ++ [.fresh kind])
  rw [returns_concat, AnswerConn.fresh, messages_fresh]
  rfl

section Steps

variable {s : Answerer}

/-- The connection has moved on without a message, and its borrower with it. -/
theorem AnsInv.move (h : AnsInv w s) (live : Option AnswerPhase) {d : AnswerConn}
    (hd : AnswerConnOk w s.kind.fmt d (sendOf live) (handleOf live))
    (hsame : SubConn.messages d.inbound = SubConn.messages s.conn.inbound)
    (hredials : ∀ loop, live = some (.redialing loop) → s.reconnect ≠ none)
    (results : List (Except NngError Unit)) :
    AnsInv w { s with conn := d, live := live, results := results } := by
  refine ⟨hd, h.past, ?_, hredials, h.alive⟩
  rw [h.returned, Answerer.connections, Answerer.connections, returns_concat,
    returns_concat, hsame]

/-- A message has come, and `receive` has returned. -/
theorem AnsInv.message (h : AnsInv w s) (live : Option AnswerPhase) {d : AnswerConn}
    {msg : Message} (hd : AnswerConnOk w s.kind.fmt d (sendOf live) (handleOf live))
    (hnew : SubConn.messages d.inbound = SubConn.messages s.conn.inbound ++ [msg])
    (hredials : ∀ loop, live ≠ some (.redialing loop)) {r : Except NngError Message}
    (hr : r = handedOut s.proto msg) :
    AnsInv w { s with conn := d, live := live, returned := s.returned ++ [r] } := by
  refine ⟨hd, h.past, ?_, fun loop hl => absurd hl (hredials loop), h.alive⟩
  have hof : ofMessage r = true := by
    rw [hr, handedOut]
    cases s.proto <;> split <;> rfl
  show (s.returned ++ [r]).filter ofMessage = returns s.proto (s.past ++ [d])
  rw [List.filter_append, h.returned, Answerer.connections, returns_concat,
    returns_concat, hnew,
    List.map_append, List.append_assoc, List.filter_singleton, hof, hr]
  rfl

/-- `receive` has returned an error that no message led to. -/
theorem AnsInv.failed (h : AnsInv w s) {d : AnswerConn}
    (hd : AnswerConnOk w s.kind.fmt d none none)
    (hsame : SubConn.messages d.inbound = SubConn.messages s.conn.inbound) {e : NngError}
    (he : ofMessage (.error e) = false) :
    AnsInv w ({ s with conn := d }.finish (.error e)) := by
  refine ⟨hd, h.past, ?_, (fun _ hl => by cases hl), h.alive⟩
  show (s.returned ++ [Except.error e]).filter ofMessage = returns s.proto (s.past ++ [d])
  rw [List.filter_append, h.returned, Answerer.connections, returns_concat,
    returns_concat, hsame,
    List.filter_singleton, he]
  exact List.append_nil _

/-! ### Receiving -/

theorem messages_concat {c c' : SubConn} {r : Except NngError Message}
    (h : c'.results = c.results ++ [r]) :
    SubConn.messages c' = SubConn.messages c ++ r.toOption.toList := by
  rw [SubConn.messages, h, List.filterMap_append]
  cases r <;> rfl

/-- `recv` has returned `r`. -/
theorem AnsInv.received (h : AnsInv w s) (hsend : sendOf s.live = none)
    (hhandle : handleOf s.live = none) {c : SubConn} (hat : ConnAt w s.kind.fmt c)
    (hplain : NoViolation c) {r : Except NngError Message}
    (hres : c.results = s.conn.inbound.results ++ [r]) :
    AnsInv w ({ s with conn := { s.conn with inbound := c } }.received r) := by
  have hconn := h.conn
  rw [hsend, hhandle] at hconn
  have hmsgs := messages_concat hres
  match r with
  | .ok msg =>
      unfold Answerer.received
      dsimp only
      by_cases hshort : msg.body.length < 4
      · rw [processIncoming_short s.proto hshort]
        refine h.message none
          (hconn.refused hat hplain hmsgs (routingOf_short hshort)) hmsgs
          (fun _ hl => by cases hl) (handedOut_short hshort _).symm
      · obtain ⟨routing, hrouting, hout, hproc⟩ := processIncoming_long s.proto hshort
        rw [hproc]
        refine h.message (some (.holding routing))
          (hconn.question hat hplain hmsgs hrouting) hmsgs (fun _ hl => by cases hl) hout.symm
  | .error e =>
      have hsame : SubConn.messages c = SubConn.messages s.conn.inbound :=
        hmsgs.trans (List.append_nil _)
      have he : ofMessage (.error e) = false :=
        hplain (.error e) (hres ▸ List.mem_append_right _ (List.mem_singleton_self _))
      have hquiet := hconn.quiet hat hplain hsame
      unfold Answerer.received
      dsimp only
      split
      · next opts _ hopts =>
          exact h.move (some (.redialing _)) hquiet hsame
            (fun _ _ => Option.ne_none_iff_exists'.mpr ⟨opts, hopts⟩) _
      · exact h.failed hquiet hsame he

/-- A piece of `recv` has run, and the call with it. -/
theorem AnsInv.settle (h : AnsInv w s) (hsend : sendOf s.live = none)
    (hhandle : handleOf s.live = none) {c : SubConn} {a : SubConnAct} (ha : a ≠ .drop)
    (hstep : s.conn.inbound.step w s.kind.fmt a = some c) : AnsInv w (s.settle c) := by
  have hat := h.conn.conn.step hstep
  have hplain := h.conn.plain.step hstep
  have halive := hat.alive
  rcases conn_settled hat ha hstep with ⟨hwait, hres⟩ | ⟨hdone, r, hres⟩
  · have hsame : SubConn.messages c = SubConn.messages s.conn.inbound := by
      rw [SubConn.messages, hres]
      rfl
    have hconn := h.conn
    rw [hsend, hhandle] at hconn
    simp only [Answerer.settle, halive, hwait]
    exact h.move (some .receiving) (hconn.quiet hat hplain hsame) hsame
      (fun _ hl => by cases hl) _
  · have hlast : c.results.getLast? = some r := by rw [hres, List.getLast?_concat]
    simp only [Answerer.settle, halive, hdone, hlast]
    exact h.received hsend hhandle hat hplain hres

/-- The redial loop has got to `loop'`. -/
theorem AnsInv.redialed (h : AnsInv w s) {loop loop' : Reconnect AnswerConn}
    (hlive : s.live = some (.redialing loop))
    (hnew : loop'.phase = .done (.ok ()) → loop'.transport = .fresh s.kind)
    (herr : ∀ e, loop'.phase = .done (.error e) → ofMessage (.error e) = false) :
    AnsInv w (s.redialed loop') := by
  have hrec := h.redials loop hlive
  have hconn := h.conn
  rw [hlive] at hconn
  unfold Answerer.redialed
  split
  · exact h.move (some (.redialing loop')) hconn rfl (fun _ _ => hrec) _
  · next hdone =>
      rw [hnew hdone]
      refine ⟨answerConnOk_fresh s.kind, forall_mem_concat h.past hconn.answersOwn, ?_,
        (fun _ hl => by cases hl), fun hno => absurd hno hrec⟩
      show s.returned.filter ofMessage =
        returns s.proto (s.past ++ [s.conn] ++ [.fresh s.kind])
      rw [returns_concat, AnswerConn.fresh, messages_fresh, h.returned, List.map_nil,
        List.append_nil]
      rfl
  · next e hdone => exact h.failed hconn rfl (herr e hdone)
  · exact ⟨hconn, h.past, h.returned, (fun _ hl => by cases hl), fun hno => absurd hno hrec⟩

theorem error_of_done {T : Type} {loop loop' : Reconnect T} {a : ReconnectAct T} {e : NngError}
    (h : loop.step a = some loop') (hdone : loop'.phase = .done (.error e)) :
    e = .reconnectExhausted := by
  obtain ⟨r, -, ⟨-, -, rfl⟩ | ⟨-, t, -, rfl⟩ | ⟨-, -, rfl⟩⟩ := reconnect_moved h
  · cases hdone
  · cases hdone
  · simp only [Reconnect.failed] at hdone
    split at hdone
    · cases hdone
    · cases hdone
      rfl
    · cases hdone

/-! ### Answering -/

/-- A piece of a framed send has run. -/
theorem AnsInv.sending (h : AnsInv w s) {v : Worker} {outgoing : Message} {poll : SendPoll}
    (hv : SendingOk v outgoing poll) {d : AnswerConn}
    (hd : ∀ v' send, WorkerOk v' send → v'.given = v.given →
      AnswerConnOk w s.kind.fmt { d with out := v' } send none)
    (hsame : SubConn.messages d.inbound = SubConn.messages s.conn.inbound) :
    AnsInv w ({ s with conn := d }.sending v outgoing poll) := by
  match poll with
  | .pending fut =>
      exact h.move (some (.answering outgoing (.framed fut))) (hd v _ hv.pending rfl) hsame
        (fun _ hl => by cases hl) _
  | .ready (.ok ()) =>
      exact h.move none (hd _ none hv.ok rfl) hsame (fun _ hl => by cases hl) _
  | .ready (.error e) =>
      exact h.move none (hd v none hv.error rfl) hsame (fun _ hl => by cases hl) _

theorem AnsInv.answer (h : AnsInv w s) {routing : Vector UInt8 4}
    (hlive : s.live = some (.holding routing)) (msg : Message) :
    AnsInv w (s.answer routing msg) := by
  have hconn := h.conn
  rw [hlive] at hconn
  unfold Answerer.answer
  rw [prepareAnswer_eq]
  dsimp only
  split
  · next fmt wire hout =>
      exact h.sending (hconn.out.chosen hout _)
        (fun v' send hv' hgiven => hconn.answers msg hv' hgiven) rfl
  · next items hout =>
      exact h.move (some (.answering _ .ws))
        (hconn.answers msg (hconn.out.chosenWs hout _) rfl) rfl (fun _ hl => by cases hl) _

theorem AnsInv.written (h : AnsInv w s) {outgoing : Message} {fut : SendFut} {s' : Answerer}
    (hlive : s.live = some (.answering outgoing (.framed fut))) {r : WriteResult}
    (hstep : s.written outgoing fut r = some s') : AnsInv w s' := by
  have hconn := h.conn
  rw [hlive] at hconn
  have hsending := hconn.out.sending
  match r with
  | .ok n =>
      unfold Answerer.written at hstep
      dsimp only at hstep
      split at hstep
      · next hle =>
          cases hstep
          exact h.sending (hsending.written hle) (fun v' send hv' hgiven =>
            hconn.sends hv' (hgiven.trans (write_given _ _))) rfl
      · cases hstep
  | .err e =>
      cases hstep
      exact h.sending (hsending.cut e) (fun v' send hv' hgiven => hconn.sends hv' hgiven) rfl

theorem wsEnded_given (v : Worker) (outgoing : Message) (passed : Bool) :
    (if passed then v.take outgoing else v).given = v.given := by
  cases passed with
  | false => rfl
  | true => exact take_given v outgoing

theorem AnsInv.wsSent (h : AnsInv w s) {outgoing : Message} {passed : Bool} {s' : Answerer}
    (hlive : s.live = some (.answering outgoing .ws)) {r : Except String Unit}
    (hstep : s.wsSent outgoing passed r = some s') : AnsInv w s' := by
  have hconn := h.conn
  rw [hlive] at hconn
  match r with
  | .ok () =>
      unfold Answerer.wsSent at hstep
      dsimp only at hstep
      split at hstep
      · cases hstep
        exact h.move none (hconn.sends hconn.out.wsDone (take_given _ _)) rfl
          (fun _ hl => by cases hl) _
      · cases hstep
  | .error e =>
      cases hstep
      exact h.move none (hconn.sends (hconn.out.wsEnded passed) (wsEnded_given _ _ _)) rfl
        (fun _ hl => by cases hl) _

theorem AnsInv.dropped (h : AnsInv w s) {outgoing : Message} {fut : PushFut}
    (hlive : s.live = some (.answering outgoing fut)) (passed : Bool) :
    AnsInv w (s.dropped outgoing passed fut) := by
  have hconn := h.conn
  rw [hlive] at hconn
  match fut with
  | .framed fut =>
      exact h.move none (hconn.sends (SendingOk.error (hconn.out.sending.cut "")) rfl) rfl
        (fun _ hl => by cases hl) _
  | .ws =>
      exact h.move none (hconn.sends (hconn.out.wsEnded passed) (wsEnded_given _ _ _)) rfl
        (fun _ hl => by cases hl) _

/-! ### Whole runs -/

theorem AnsInv.step (h : AnsInv w s) {a : AnswerAct} {s' : Answerer}
    (hstep : s.step w a = some s') : AnsInv w s' := by
  unfold Answerer.step at hstep
  split at hstep
  · next hlive =>
      split at hstep
      · cases hstep
      · cases hstep
        have hconn := h.conn
        rw [hlive] at hconn
        exact h.move (some .looping) hconn rfl (fun _ hl => by cases hl) _
  · next hlive =>
      obtain ⟨c, hc, rfl⟩ := Option.map_eq_some_iff.mp hstep
      exact h.settle (by rw [hlive]; rfl) (by rw [hlive]; rfl)
        (fun ha => by cases ha) hc
  · next hlive =>
      obtain ⟨c, hc, rfl⟩ := Option.map_eq_some_iff.mp hstep
      exact h.settle (by rw [hlive]; rfl) (by rw [hlive]; rfl)
        (fun ha => by cases ha) hc
  · next hlive =>
      obtain ⟨c, hc, rfl⟩ := Option.map_eq_some_iff.mp hstep
      exact h.settle (by rw [hlive]; rfl) (by rw [hlive]; rfl)
        (fun ha => by cases ha) hc
  · next hlive =>
      obtain ⟨loop', hloop, rfl⟩ := Option.map_eq_some_iff.mp hstep
      refine h.redialed hlive (fun hdone => by cases dialed_of_done hloop hdone) ?_
      intro e hdone
      rw [error_of_done hloop hdone]
      rfl
  · next ok loop hlive =>
      obtain ⟨loop', hloop, rfl⟩ := Option.map_eq_some_iff.mp hstep
      refine h.redialed hlive (fun hdone => ?_) fun e hdone => ?_
      · have hdial := dialed_of_done hloop hdone
        cases ok with
        | true => exact (Option.some.inj (ReconnectAct.dialed.inj hdial)).symm
        | false => cases hdial
      · rw [error_of_done hloop hdone]
        rfl
  · next hlive =>
      cases hstep
      exact h.answer hlive _
  · next hlive => exact h.written hlive hstep
  · next hlive => exact h.wsSent hlive hstep
  · next hlive =>
      obtain ⟨c, hc, rfl⟩ := Option.map_eq_some_iff.mp hstep
      have hsame : SubConn.messages c = SubConn.messages s.conn.inbound := by
        rw [SubConn.messages, conn_dropped hc]
        rfl
      have hconn := h.conn
      rw [hlive] at hconn
      exact h.move none (hconn.quiet (hconn.conn.step hc) (hconn.plain.step hc) hsame) hsame
        (fun _ hl => by cases hl) _
  · next hlive =>
      cases hstep
      have hconn := h.conn
      rw [hlive] at hconn
      exact h.move none hconn rfl (fun _ hl => by cases hl) _
  · next hlive =>
      cases hstep
      have hconn := h.conn
      rw [hlive] at hconn
      exact h.move none hconn.letGo rfl (fun _ hl => by cases hl) _
  · next hlive =>
      cases hstep
      exact h.dropped hlive _
  · cases hstep

end Steps

theorem ansInv_started {s : Answerer} (h : AnswererStarted s) : AnsInv w s := by
  rcases h with ⟨kind, rfl⟩ | ⟨kind, dialAddr, reconnect, rfl⟩
  · exact ansInv_listen kind
  · exact ansInv_dial kind dialAddr reconnect

/-- Whatever is sent to it, dropped, left unanswered and redialled. -/
theorem answers_to_each (w : PointerWidth) {start s : Answerer}
    (hstart : AnswererStarted start)
    {acts : List AnswerAct} (hrun : run (Answerer.step w) start acts = some s) :
    AnswersAll w s :=
  (run_invariant (ansInv_started hstart) (fun _ _ _ h hstep => h.step hstep) hrun).answersAll

/-- A survey is answered, a message is too short, the connection is lost and redialled,
the next survey's handle is dropped, and the one after is answered on the new
connection. -/
theorem answers_to_each_redialed :
    ∃ s, run (Answerer.step .w64)
        (Respondent0.dial (.framed .tcp) (some "tcp://p:1") (some ⟨1, 4, none⟩))
        [.receive, .recv, .read (.ok [0, 0, 0, 0, 0, 0, 0, 5]), .read (.ok [0, 0, 0, 1, 9]),
          .answer ⟨[], [7]⟩, .write (.ok 8), .write (.ok 4), .write (.ok 1),
          .receive, .recv, .read (.ok [0, 0, 0, 0, 0, 0, 0, 1]), .read (.ok [3]),
          .receive, .recv, .read (.ok []), .slept, .dialed true, .recv,
          .read (.ok [0, 0, 0, 0, 0, 0, 0, 4]), .read (.ok [0, 0, 0, 2]), .drop false,
          .receive, .recv, .read (.ok [0, 0, 0, 0, 0, 0, 0, 4]), .read (.ok [0, 0, 0, 3]),
          .answer ⟨[], []⟩, .write (.ok 8), .write (.ok 4)] = some s ∧
      (s.returned = [.ok ⟨[], [9]⟩,
          .error (.protocolViolation "message too short to contain survey ID"),
          .ok ⟨[], []⟩, .ok ⟨[], []⟩] ∧
        s.conn.out.conn = .framed .tcp [0, 0, 0, 0, 0, 0, 0, 4, 0, 0, 0, 3]) ∧
      AnswersAll .w64 s :=
  Exists.imp (fun s (hs : _ = some s ∧ _) =>
      ⟨hs.1, hs.2, answers_to_each .w64 (Or.inr ⟨_, _, _, rfl⟩) hs.1⟩)
    ⟨_, rfl, rfl, rfl⟩

end NngCore.Proofs
