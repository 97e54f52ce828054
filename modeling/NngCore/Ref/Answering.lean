import NngCore.Ref.Push0Fan
import NngCore.Ref.Redialing
import NngCore.Ref.Sub0

/-!
# Sockets that answer (`src/socket/reqrep0.rs`, `src/socket/survey0.rs`)

`Rep0` and `Respondent0` receive a message, take four bytes of routing off its
front and hand out the rest with a handle, a `Responder` or a `SurveyHandle`.
The handle borrows the socket until it is dropped or used, and using it sends
one answer with the four bytes in its header.

The two differ in the texts of their errors, and in that `Rep0` only listens
and has no address to dial again: its `recv_raw` is one `recv`. `Respondent0`
redials until a message comes.

For the statements a connection keeps the routing bytes of the handles that
came on it and the answers made with them, and the socket keeps its former
connections and what its calls returned.
-/

namespace NngCore.Ref

open NngCore.Lib

inductive AnswerProtocol where
  | rep0
  | respondent0
  deriving DecidableEq

namespace AnswerProtocol

/-- `process_incoming` with its error as the sockets return it; a message that is
too short is the only one. -/
def processIncoming (p : AnswerProtocol) (msg : Message) :
    Option (Except NngError (Vector UInt8 4) × Message) :=
  match p with
  | rep0 =>
      (Rep0State.processIncoming msg).map fun (r, msg) =>
        match r with
        | .ok routing => (.ok routing.bytes, msg)
        | .error _ => (.error (.protocolViolation Req0.tooShortText), msg)
  | respondent0 =>
      (Respondent0State.processIncoming msg).map fun (r, msg) =>
        match r with
        | .ok routing => (.ok routing.bytes, msg)
        | .error _ => (.error (.protocolViolation RedialingOp.surveyTooShortText), msg)

/-- `prepare_reply` and `prepare_response`. -/
def prepareAnswer (p : AnswerProtocol) (msg : Message) (routing : Vector UInt8 4) :
    Option Message :=
  match p with
  | rep0 => Rep0State.prepareReply msg ⟨routing⟩
  | respondent0 => Respondent0State.prepareResponse msg ⟨routing⟩

end AnswerProtocol

/-! ## Connections -/

/-- Both directions of a connection. -/
structure AnswerConn where
  inbound : SubConn
  out : Worker
  asked : List (Vector UInt8 4)
  answers : List (Vector UInt8 4 × Message)

def PushKind.sub : PushKind → SubConnKind
  | .framed _ => .framed
  | .ws => .ws

def PushKind.fmt : PushKind → FrameFormat
  | .framed fmt => fmt
  | .ws => .tcp

def AnswerConn.fresh (kind : PushKind) : AnswerConn := ⟨.fresh kind.sub, .fresh kind, [], []⟩

/-! ## The socket -/

/-- Where the socket's borrower stands: a `receive` future at the head of its
loop, in `recv` or in the redial loop, a handle, or the future of an answer. -/
inductive AnswerPhase where
  | looping
  | receiving
  | redialing (loop : Reconnect AnswerConn)
  | holding (routing : Vector UInt8 4)
  | answering (outgoing : Message) (fut : PushFut)

structure Answerer where
  proto : AnswerProtocol
  kind : PushKind
  conn : AnswerConn
  past : List AnswerConn
  dialAddr : Option String
  reconnect : Option ReconnectOptions
  live : Option AnswerPhase
  returned : List (Except NngError Message)
  results : List (Except NngError Unit)
  panicked : Bool

/-- `passed` says whether a WebSocket had taken the answer. -/
inductive AnswerAct where
  | receive
  | recv
  | read (r : ReadResult)
  | item (i : WsItem)
  | slept
  | dialed (ok : Bool)
  | answer (msg : Message)
  | write (r : WriteResult)
  | sent (r : Except String Unit) (passed : Bool)
  | drop (passed : Bool)

/-- `Rep0` as `listen` and its TLS, QUIC and KCP kin return it. -/
def Rep0.listen (kind : PushKind) : Answerer :=
  ⟨.rep0, kind, .fresh kind, [], none, none, none, [], [], false⟩

/-- `Respondent0` as the three `dial` functions return it; two of them leave the
address and the options out. -/
def Respondent0.dial (kind : PushKind) (dialAddr : Option String)
    (reconnect : Option ReconnectOptions) : Answerer :=
  ⟨.respondent0, kind, .fresh kind, [], dialAddr, reconnect, none, [], [], false⟩

namespace Answerer

def die (s : Answerer) : Answerer := { s with live := none, panicked := true }

/-! ### Receiving -/

def finish (s : Answerer) (r : Except NngError Message) : Answerer :=
  { s with live := none, returned := s.returned ++ [r] }

/-- `recv` has returned. -/
def received (s : Answerer) : Except NngError Message → Answerer
  | .ok msg =>
      match s.proto.processIncoming msg with
      | none => s.die
      | some (.error e, _) => s.finish (.error e)
      | some (.ok routing, msg) =>
          { s with
            conn := { s.conn with asked := s.conn.asked ++ [routing] }
            live := some (.holding routing)
            returned := s.returned ++ [.ok msg] }
  | .error e =>
      match s.dialAddr, s.reconnect with
      | some _, some opts => { s with live := some (.redialing (.start opts s.conn)) }
      | _, _ => s.finish (.error e)

/-- `recv` ran to its await, or to its end with one more result. -/
def settle (s : Answerer) (inbound : SubConn) : Answerer :=
  let s := { s with conn := { s.conn with inbound := inbound } }
  if inbound.panicked then s.die
  else
    match inbound.waiting, inbound.results.getLast? with
    | false, some r => s.received r
    | _, _ => { s with live := some .receiving }

/-- The redial loop got to `loop`. -/
def redialed (s : Answerer) (loop : Reconnect AnswerConn) : Answerer :=
  match loop.phase with
  | .redial _ => { s with live := some (.redialing loop) }
  | .done (.ok ()) =>
      { s with conn := loop.transport, past := s.past ++ [s.conn], live := some .looping }
  | .done (.error e) => s.finish (.error e)
  | .panicked => s.die

/-! ### Answering -/

def setOut (s : Answerer) (w : Worker) : Answerer :=
  { s with conn := { s.conn with out := w } }

/-- The future of an answer has returned. -/
def answered (s : Answerer) (r : Except NngError Unit) : Answerer :=
  { s with live := none, results := s.results ++ [r] }

/-- Where an answer stands after a piece of a framed send. -/
def sending (s : Answerer) (w : Worker) (outgoing : Message) : SendPoll → Answerer
  | .pending fut => { s.setOut w with live := some (.answering outgoing (.framed fut)) }
  | .ready (.ok ()) => (s.setOut { w with done := w.done ++ [outgoing] }).answered (.ok ())
  | .ready (.error e) => (s.setOut w).answered (.error (.ofTransport e))

/-- `reply` and `respond`, up to their first await. -/
def answer (s : Answerer) (routing : Vector UInt8 4) (msg : Message) : Answerer :=
  match s.proto.prepareAnswer msg routing with
  | none => s.die
  | some outgoing =>
      let s := { s with conn := { s.conn with answers := s.conn.answers ++ [(routing, msg)] } }
      let w := { s.conn.out with given := s.conn.out.given ++ [outgoing] }
      match w.conn with
      | .framed fmt _ => s.sending w outgoing (sendStart fmt outgoing)
      | .ws _ => { s.setOut w with live := some (.answering outgoing .ws) }

/-- A write came back. It never accepts more than it was offered. -/
def written (s : Answerer) (outgoing : Message) (fut : SendFut) : WriteResult → Option Answerer
  | .ok n =>
      if n ≤ fut.offered.length then
        let w := { s.conn.out.write (fut.offered.take n) with
          torn := s.conn.out.torn || (n = 0 && s.conn.out.midFrame outgoing fut) }
        some (s.sending w outgoing (fut.resume (.ok n)))
      else none
  | .err e =>
      let w := { s.conn.out with
        torn := s.conn.out.torn || s.conn.out.midFrame outgoing fut }
      some (s.sending w outgoing (fut.resume (.err e)))

/-- A WebSocket send came back. -/
def wsSent (s : Answerer) (outgoing : Message) (passed : Bool) :
    Except String Unit → Option Answerer
  | .ok () =>
      let w := s.conn.out
      if passed then
        some ((s.setOut { w.take outgoing with done := w.done ++ [outgoing] }).answered
          (.ok ()))
      else none
  | .error e =>
      let w := s.conn.out
      some ((s.setOut (if passed then w.take outgoing else w)).answered (.error (.io e)))

/-- The future of an answer is dropped. -/
def dropped (s : Answerer) (outgoing : Message) (passed : Bool) : PushFut → Answerer
  | .framed fut =>
      let w := s.conn.out
      { s.setOut { w with torn := w.torn || w.midFrame outgoing fut } with live := none }
  | .ws =>
      let w := s.conn.out
      { s.setOut (if passed then w.take outgoing else w) with live := none }

section

variable (w : PointerWidth)

def step (s : Answerer) (a : AnswerAct) : Option Answerer :=
  match a, s.live with
  | .receive, none => if s.panicked then none else some { s with live := some .looping }
  | .recv, some .looping => (s.conn.inbound.step w s.kind.fmt .call).map s.settle
  | .read r, some .receiving => (s.conn.inbound.step w s.kind.fmt (.read r)).map s.settle
  | .item i, some .receiving => (s.conn.inbound.step w s.kind.fmt (.item i)).map s.settle
  | .slept, some (.redialing loop) => (loop.step .slept).map s.redialed
  | .dialed ok, some (.redialing loop) =>
      (loop.step (.dialed (if ok then some (.fresh s.kind) else none))).map s.redialed
  | .answer msg, some (.holding routing) => some (s.answer routing msg)
  | .write r, some (.answering outgoing (.framed fut)) => s.written outgoing fut r
  | .sent r passed, some (.answering outgoing .ws) => s.wsSent outgoing passed r
  | .drop _, some .receiving =>
      (s.conn.inbound.step w s.kind.fmt .drop).map fun inbound =>
        { s with conn := { s.conn with inbound := inbound }, live := none }
  | .drop _, some (.redialing _) => some { s with live := none }
  | .drop _, some (.holding _) => some { s with live := none }
  | .drop passed, some (.answering outgoing fut) => some (s.dropped outgoing passed fut)
  | _, _ => none

end

/-- Every connection the socket has held, in order. -/
def connections (s : Answerer) : List AnswerConn := s.past ++ [s.conn]

end Answerer

end NngCore.Ref
