import NngCore.Ref.Sub0
import NngCore.Spec.FrameStream
import NngCore.Spec.PubSub

/-!
# The subscribed part of a stream

Every connection gives the messages of what was read on it, one connection
after the other, and of these messages the subscriber's caller gets the ones
that match what was subscribed to when they came.
-/

namespace NngCore.Spec

open NngCore.Lib NngCore.Ref

instance (calls : List SubCall) (topic : List UInt8) : Decidable (Subscribed calls topic) :=
  inferInstanceAs (Decidable (_ = _))

/-- The body starts with a topic subscribed to after `calls`. -/
def inForce (calls : List SubCall) (msg : Message) : Bool :=
  (calls.map SubCall.topic).any fun topic =>
    decide (Subscribed calls topic) && topic.isPrefixOf msg.body

def errorOf {ε α : Type} : Except ε α → Option ε
  | .ok _ => none
  | .error e => some e

/-- What was received on a connection. -/
def SubConn.messages (c : SubConn) : List Message := c.results.filterMap Except.toOption

/-- A framed connection gave the messages of the frames in the bytes read on it,
up to one that is not all there. -/
def OwnFrames (w : PointerWidth) (fmt : FrameFormat) (c : FramedConn) : Prop :=
  ∃ (items : List (framing w fmt).Item) (p : List UInt8),
    c.took = (framing w fmt).encode items ++ p ∧ (framing w fmt).Partial p ∧
      c.recv.results.filterMap Except.toOption =
        items.filterMap fun it => (answer w fmt it).toOption

def WsItem.message : WsItem → Option Message
  | .binary data => some (Message.fromParts [] data)
  | _ => none

/-- A WebSocket gave one message for every binary message it yielded. -/
def OwnItems (c : WsConn) : Prop :=
  c.results.filterMap Except.toOption = c.took.filterMap WsItem.message

def OwnMessages (w : PointerWidth) (fmt : FrameFormat) : SubConn → Prop
  | .framed c => OwnFrames w fmt c
  | .ws c => OwnItems c

structure SubscribedStream (w : PointerWidth) (fmt : FrameFormat) (s : Sub0) : Prop where
  returned : s.returned.filterMap Except.toOption =
    (s.consumed.filter fun x => inForce x.2 x.1).map Prod.fst
  consumed : s.consumed.map Prod.fst = s.connections.flatMap SubConn.messages
  frames : ∀ c ∈ s.connections, OwnMessages w fmt c
  -- without reconnect there is one connection, and its errors are returned as they are
  errors : s.dialAddr = none ∨ s.reconnect = none → s.past = [] ∧
    s.returned.filterMap errorOf = s.conn.results.filterMap errorOf

end NngCore.Spec
