import NngCore.Lib.Run
import NngCore.Ref.Pair
import NngCore.Ref.PubSub
import NngCore.Ref.Survey
import NngCore.Ref.ZeroCopy

/-!
# A message in the hands of the protocols

Everything that is done to a message through `MessageBuf`: what the sockets and
applications do to it directly, and what the protocol state machines do. Each
machine is generic in the message, so the list is written once and runs on the
heap message and on the stack message.

The replier and the respondent have no state of their own.
-/

namespace NngCore.Ref

structure Protocols where
  req : Req0State
  surveyor : Surveyor0State
  pair1 : Pair1State
  sub : Sub0State

inductive MessageOp where
  | pushBack (data : List UInt8)
  | headerPushBack (data : List UInt8)
  | trimFront (n : Nat)
  | reqPrepareOutgoing
  | reqProcessIncoming (sentId : UInt32)
  | repProcessIncoming
  | repPrepareReply (routing : RoutingInfo)
  | prepareSurvey
  | processResponse
  | respondentProcessIncoming
  | prepareResponse (routing : SurveyRoutingInfo)
  | attachTtl
  | pairProcessIncoming
  | isMatch
  deriving DecidableEq

/-- What an operation returns. -/
inductive OpResult where
  | unit
  | id (id : UInt32)
  | reqRep (r : Except ReqRepError Unit)
  | routing (r : Except ReqRepError RoutingInfo)
  | survey (r : Except SurveyError Unit)
  | surveyRouting (r : Except SurveyError SurveyRoutingInfo)
  | ttl (r : Except PairError UInt8)
  | matched (b : Bool)

namespace Protocols

variable {M : Type} [MessageBuf M]

def apply (p : Protocols) (msg : M) : MessageOp → Option (OpResult × Protocols × M)
  | .pushBack data => (MessageBuf.pushBack msg data).map fun msg => (.unit, p, msg)
  | .headerPushBack data =>
      (MessageBuf.headerPushBack msg data).map fun msg => (.unit, p, msg)
  | .trimFront n => (MessageBuf.trimFront msg n).map fun msg => (.unit, p, msg)
  | .reqPrepareOutgoing =>
      (p.req.prepareOutgoing msg).map fun (id, msg, req) =>
        (.id id, { p with req := req }, msg)
  | .reqProcessIncoming sentId =>
      (p.req.processIncoming msg sentId).map fun (r, msg) => (.reqRep r, p, msg)
  | .repProcessIncoming =>
      (Rep0State.processIncoming msg).map fun (r, msg) => (.routing r, p, msg)
  | .repPrepareReply routing =>
      (Rep0State.prepareReply msg routing).map fun msg => (.unit, p, msg)
  | .prepareSurvey =>
      (p.surveyor.prepareSurvey msg).map fun (id, msg, surveyor) =>
        (.id id, { p with surveyor := surveyor }, msg)
  | .processResponse =>
      (p.surveyor.processResponse msg).map fun (r, msg) => (.survey r, p, msg)
  | .respondentProcessIncoming =>
      (Respondent0State.processIncoming msg).map fun (r, msg) => (.surveyRouting r, p, msg)
  | .prepareResponse routing =>
      (Respondent0State.prepareResponse msg routing).map fun msg => (.unit, p, msg)
  | .attachTtl => (p.pair1.attachTtl msg).map fun msg => (.unit, p, msg)
  | .pairProcessIncoming =>
      (p.pair1.processIncoming msg).map fun (r, msg) => (.ttl r, p, msg)
  | .isMatch => some (.matched (p.sub.isMatch msg), p, msg)

end Protocols

/-- A message, the protocols that work on it, and what they returned so far. -/
structure Handled (M : Type) where
  protocols : Protocols
  msg : M
  results : List OpResult

def Handled.step {M : Type} [MessageBuf M] (s : Handled M) (op : MessageOp) :
    Option (Handled M) :=
  match s.protocols.apply s.msg op with
  | none => none
  | some (result, protocols, msg) => some ⟨protocols, msg, s.results ++ [result]⟩

end NngCore.Ref
