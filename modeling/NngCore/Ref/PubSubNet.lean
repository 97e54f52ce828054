import NngCore.Ref.Hub
import NngCore.Ref.Sub0

/-!
# A publisher and a subscriber (`src/socket/pubsub0.rs`)

`Pub0` with any number of subscribers, and a `Sub0` that is one of them: many,
one after the other, if it redials. The publisher knows nothing of this; a
subscriber that comes back is a new peer.

Between the two are connections. One is begun by the subscriber's dial, and at
some time later, if at all, the publisher admits a peer for it; which one, the
step `connect` says, and it may only be one that was admitted after the dial
was begun. What is read on a connection is a beginning of what was written to
that peer, and nothing before there is one. All of them are framed streams.

A call on the publisher runs to its end and is one step of the net. The calls
that are dropped are those of the subscriber; a `publish` that is dropped inside
a frame leaves that peer's stream torn, and is in none of these runs.

Kept for the network's part: how many peers the publisher had admitted when the
dial of the present connection was begun, and when the last dial was.
-/

namespace NngCore.Ref

open NngCore.Lib

structure PubSubNet where
  pub : Pub0
  sub : Sub0
  link : Option Nat
  born : Nat
  dialing : Nat

inductive PubSubAct where
  | pub (a : Pub0Act)
  | sub (a : Sub0Act)
  | connect (id : Nat)

/-- Every peer a hub has admitted. -/
def Hub.everyone (h : Hub) : List Peer := h.peers ++ h.dropped

namespace PubSubNet

/-- The publisher has just been made, and the subscriber has dialled it. -/
def dialed (dialAddr : Option String) (reconnect : Option ReconnectOptions) : PubSubNet :=
  ⟨.listen, .dial .framed dialAddr reconnect, none, 0, 0⟩

def peer? (s : PubSubNet) (id : Nat) : Option Peer :=
  s.pub.subscribers.everyone.find? fun p => p.id == id

/-- What was written on the present connection. -/
def wire (s : PubSubNet) : List UInt8 :=
  match s.link.bind s.peer? with
  | none => []
  | some p => p.wire

/-- What was read on the present connection is a beginning of what was written. -/
def carries (s : PubSubNet) : Bool :=
  match s.sub.conn with
  | .framed c => c.took.isPrefixOf s.wire
  | .ws _ => false

def connect (fmt : FrameFormat) (s : PubSubNet) (id : Nat) : Option PubSubNet :=
  match s.link, s.peer? id with
  | none, some p =>
      if s.born ≤ id ∧ p.behaviour.fmt = fmt then some { s with link := some id } else none
  | _, _ => none

/-- The subscriber has made step `a`. -/
def moved (s : PubSubNet) (a : Sub0Act) (sub : Sub0) : PubSubNet :=
  match a with
  -- the sleep is over, and the dial begins
  | .slept => { s with sub := sub, dialing := s.pub.subscribers.admitted }
  | .dialed true => { s with sub := sub, link := none, born := s.dialing }
  | _ => { s with sub := sub }

def step (w : PointerWidth) (fmt : FrameFormat) (s : PubSubNet) : PubSubAct → Option PubSubNet
  | .pub a => (s.pub.step a).map fun pub => { s with pub := pub }
  | .connect id => s.connect fmt id
  | .sub a =>
      match s.sub.step w fmt a with
      | none => none
      | some sub => if (s.moved a sub).carries then some (s.moved a sub) else none

end PubSubNet

end NngCore.Ref
