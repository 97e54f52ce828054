import NngCore.Ref.Answering
import NngCore.Spec.Push0Fan
import NngCore.Spec.Sub0

/-!
# Whom an answer is for

Whatever the other end sends, every message gets one handle or one error, and
every handle at most one answer. The answers go out on the connection the
messages came on, in the order of the messages, and each carries the four bytes
its own message came with.
-/

namespace NngCore.Spec

open NngCore.Lib NngCore.Ref

/-- On a framed connection or a WebSocket. A datagram transport is not among them. -/
def AnswererStarted (s : Answerer) : Prop :=
  (∃ kind, s = Rep0.listen kind) ∨
    ∃ kind dialAddr reconnect, s = Respondent0.dial kind dialAddr reconnect

/-- The four bytes in front of a message. -/
def routingOf (msg : Message) : Option (Vector UInt8 4) :=
  if h : msg.body.length < 4 then none
  else some ⟨(msg.body.take 4).toArray, Respondent0State.size_idBytes (M := Message) h⟩

def AnswerProtocol.tooShort : AnswerProtocol → NngError
  | .rep0 => .protocolViolation "message too short to contain request ID"
  | .respondent0 => .protocolViolation "message too short to contain survey ID"

/-- What `receive` returns for a message. -/
def handedOut (p : AnswerProtocol) (msg : Message) : Except NngError Message :=
  if msg.body.length < 4 then .error (AnswerProtocol.tooShort p)
  else .ok ⟨msg.header, msg.body.drop 4⟩

/-- The return of a `receive` that a message led to. -/
def ofMessage : Except NngError Message → Bool
  | .ok _ => true
  | .error (.protocolViolation _) => true
  | .error _ => false

/-- An answer as it is sent. -/
def stamped (a : Vector UInt8 4 × Message) : Message :=
  ⟨a.2.header ++ a.1.toList, a.2.body⟩

structure AnswersOwn (w : PointerWidth) (fmt : FrameFormat) (d : AnswerConn) : Prop where
  own : OwnMessages w fmt d.inbound
  asked : d.asked = (SubConn.messages d.inbound).filterMap routingOf
  inTurn : (d.answers.map Prod.fst).Sublist d.asked
  given : d.out.given = d.answers.map stamped
  delivered : Delivered d.out

structure AnswersAll (w : PointerWidth) (s : Answerer) : Prop where
  connections : ∀ d ∈ s.connections, AnswersOwn w s.kind.fmt d
  returned : s.returned.filter ofMessage =
    (s.connections.flatMap fun d => SubConn.messages d.inbound).map (handedOut s.proto)
  -- a handle is for the last message that had one, and that has no answer yet
  handle : ∀ routing, s.live = some (.holding routing) →
    ∃ earlier, s.conn.asked = earlier ++ [routing] ∧
      (s.conn.answers.map Prod.fst).Sublist earlier
  alive : s.reconnect = none → s.panicked = false ∧ s.past = []

end NngCore.Spec
