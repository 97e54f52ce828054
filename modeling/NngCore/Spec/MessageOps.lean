import NngCore.Ref.MessageOps

/-!
# Two messages that are the same to the protocols

Heap and stack message look alike when they show the same header and the same
body. An operation is owed the same answer on both as long as the stack
message has the room it asks for.

To the protocols a message is what `MessageBuf` lets them do with it. A relation
between two kinds of message that these three operations keep is therefore kept
by everything else (`MessageSim`); the room is that of the second message.
-/

namespace NngCore.Spec

open NngCore.Ref NngCore.Ref.ZeroCopyMessage

variable {N : UInt64}

structure Equivalent (m : Message) (z : ZeroCopyMessage N) : Prop where
  header : m.header = z.header
  body : m.body = z.body

def HeaderRoom (z : ZeroCopyMessage N) (n : Nat) : Prop :=
  z.header.length + n ≤ headerCap N

/-- The arguments are within the message's room and body, and what stamps a
header finds room for its four bytes. -/
def Fits (s : Handled (ZeroCopyMessage N)) : MessageOp → Prop
  | .pushBack data => data.length ≤ s.msg.bodyRemaining
  | .headerPushBack data => HeaderRoom s.msg data.length
  | .trimFront n => n ≤ s.msg.body.length
  | .reqPrepareOutgoing => HeaderRoom s.msg 4
  | .repPrepareReply _ => HeaderRoom s.msg 4
  | .prepareSurvey => HeaderRoom s.msg 4
  | .prepareResponse _ => HeaderRoom s.msg 4
  | .attachTtl => HeaderRoom s.msg 4
  | _ => True

/-! ## Any two messages -/

structure MessageSim (M Z : Type) [MessageBuf M] [MessageBuf Z] where
  rel : M → Z → Prop
  bodyRoom : Z → Nat → Prop
  headerRoom : Z → Nat → Prop
  body {m : M} {z : Z} (h : rel m z) : MessageBuf.body z = MessageBuf.body m
  pushBack {m : M} {z : Z} {data : List UInt8} (h : rel m z) (hroom : bodyRoom z data.length) :
    ∃ m' z', MessageBuf.pushBack m data = some m' ∧ MessageBuf.pushBack z data = some z' ∧
      rel m' z'
  headerPushBack {m : M} {z : Z} {data : List UInt8} (h : rel m z)
    (hroom : headerRoom z data.length) :
    ∃ m' z', MessageBuf.headerPushBack m data = some m' ∧
      MessageBuf.headerPushBack z data = some z' ∧ rel m' z'
  trimFront {m : M} {z : Z} {n : Nat} (h : rel m z) (hn : n ≤ (MessageBuf.body z).length) :
    ∃ m' z', MessageBuf.trimFront m n = some m' ∧ MessageBuf.trimFront z n = some z' ∧
      rel m' z'

/-- The arguments are within the room and the body of the second message. -/
def MessageSim.Fits {M Z : Type} [MessageBuf M] [MessageBuf Z] (S : MessageSim M Z)
    (s : Handled Z) : MessageOp → Prop
  | .pushBack data => S.bodyRoom s.msg data.length
  | .headerPushBack data => S.headerRoom s.msg data.length
  | .trimFront n => n ≤ (MessageBuf.body s.msg).length
  | .reqPrepareOutgoing => S.headerRoom s.msg 4
  | .repPrepareReply _ => S.headerRoom s.msg 4
  | .prepareSurvey => S.headerRoom s.msg 4
  | .prepareResponse _ => S.headerRoom s.msg 4
  | .attachTtl => S.headerRoom s.msg 4
  | _ => True

end NngCore.Spec
