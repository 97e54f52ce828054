import NngCore.Ref.PubSub
import NngCore.Ref.Reconnect
import NngCore.Ref.Survey

/-!
# The operations that redial

`Socket::send_raw` and `Socket::recv_raw` (`src/socket.rs`), `Sub0::next`
(`src/socket/pubsub0.rs`) and `Respondent0::receive` (`src/socket/survey0.rs`)
are four ways to wrap the same loop around a transport operation. Each awaits
the operation, hands what it gives to the protocol, and when it fails redials
and tries again. They differ in three things: what a result is worth, whether
a failure behind a redial is redialled again, and which error is returned when
the redialling failed.

The transport is whatever `connect_transport` makes; here an operation on it
comes back with any result or any error.
-/

namespace NngCore.Ref

open NngCore.Lib

/-- What becomes of a result of the transport. -/
inductive Verdict (A : Type) where
  | again
  | returns (r : Except NngError A)
  | panics

/-- One of the operations, on a socket with protocol state `S`: `R` is what the
transport gives and `A` what the caller gets. -/
structure RedialingOp (S R A : Type) where
  accept : S → R → Verdict A
  /-- A failure behind a redial is returned. -/
  once : Bool
  /-- The error returned for a failure `e` whose redial failed with `e'`. -/
  giveUp : (e e' : NngError) → NngError

namespace RedialingOp

/-- `send_raw`: one retry, and the first failure if the redial fails. -/
def sendRaw (S : Type) : RedialingOp S Unit Unit where
  accept _ _ := .returns (.ok ())
  once := true
  giveUp e _ := e

/-- `recv_raw`. -/
def recvRaw (S : Type) : RedialingOp S Message Message where
  accept _ msg := .returns (.ok msg)
  once := true
  giveUp e _ := e

/-- `Sub0::next`: the loop goes on past a message that does not match, and the
`?` behind the redial returns its error. -/
def next : RedialingOp Sub0State Message Message where
  accept state msg := if state.isMatch msg then .returns (.ok msg) else .again
  once := false
  giveUp _ e' := e'

/-- The text of `SurveyError::MessageTooShort`. -/
def surveyTooShortText : String := "message too short to contain survey ID"

/-- `Respondent0::receive`. -/
def receive : RedialingOp Unit Message (Message × SurveyRoutingInfo) where
  accept _ msg :=
    match Respondent0State.processIncoming msg with
    | none => .panics
    | some (.ok routing, msg) => .returns (.ok (msg, routing))
    | some (.error _, _) => .returns (.error (.protocolViolation surveyTooShortText))
  once := false
  giveUp _ e' := e'

end RedialingOp

/-- Where a call stands. `retried` says that it has redialled. -/
inductive RedialingPhase (T A : Type) where
  | operating (retried : Bool)
  | redialing (cause : NngError) (loop : Reconnect T)
  | done (r : Except NngError A)
  | panicked

/-- A socket and its live call; `dials` counts the calls of `connect_transport`. -/
structure Redialing (T S A : Type) where
  transport : T
  state : S
  dialAddr : Option String
  reconnect : Option ReconnectOptions
  phase : RedialingPhase T A
  dials : Nat

inductive RedialingAct (T R : Type) where
  | result (r : Except NngError R)
  | redial (a : ReconnectAct T)

namespace Redialing

variable {T S R A : Type}

/-- The transport operation came back. -/
def settle (op : RedialingOp S R A) (s : Redialing T S A) (retried : Bool) :
    Except NngError R → Redialing T S A
  | .ok r =>
      match op.accept s.state r with
      | .again => { s with phase := .operating retried }
      | .returns res => { s with phase := .done res }
      | .panics => { s with phase := .panicked }
  | .error e =>
      match op.once && retried, s.dialAddr, s.reconnect with
      | false, some _, some opts =>
          { s with phase := .redialing e (.start opts s.transport) }
      | _, _, _ => { s with phase := .done (.error e) }

/-- The redial loop, borrowing the transport, got to `loop`. -/
def redialed (op : RedialingOp S R A) (s : Redialing T S A) (cause : NngError)
    (loop : Reconnect T) : Redialing T S A :=
  let s := { s with transport := loop.transport }
  match loop.phase with
  | .redial _ => { s with phase := .redialing cause loop }
  | .done (.ok ()) => { s with phase := .operating true }
  | .done (.error e) => { s with phase := .done (.error (op.giveUp cause e)) }
  | .panicked => { s with phase := .panicked }

def step (op : RedialingOp S R A) (s : Redialing T S A) (a : RedialingAct T R) :
    Option (Redialing T S A) :=
  match s.phase, a with
  | .operating retried, .result r => some (s.settle op retried r)
  | .redialing cause loop, .redial a =>
      match loop.step a with
      | none => none
      | some loop' =>
          some ({ s with dials := s.dials + (loop'.dials - loop.dials) }.redialed op
            cause loop')
  | _, _ => none

end Redialing

end NngCore.Ref
