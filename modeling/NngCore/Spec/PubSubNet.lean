import NngCore.Ref.PubSubNet
import NngCore.Spec.Sub0

/-!
# What a subscriber sees of what was published

Never a message twice, and never two of them the wrong way round, also across
redials: a subscriber that comes back has missed messages, but the publisher
does not send it an old one. On one connection nothing is missed from the time
the publisher admitted it.
-/

namespace NngCore.Spec

open NngCore.Lib NngCore.Ref

structure SeenInOrder (s : PubSubNet) : Prop where
  consumed : (s.sub.consumed.map Prod.fst).Sublist
    (s.pub.subscribers.sent.map Message.received)
  returned : (s.sub.returned.filterMap Except.toOption).Sublist
    (s.pub.subscribers.sent.map Message.received)
  -- without gaps, on the present connection
  present : ∀ id p, s.link = some id → s.peer? id = some p →
    SubConn.messages s.sub.conn <+:
      (s.pub.subscribers.sent.drop p.since).map Message.received
  -- and to the end, if the peer is still there and all that was written was read
  caughtUp : ∀ id p c, s.link = some id → s.peer? id = some p → p ∈ s.pub.subscribers.peers →
    s.sub.conn = .framed c → c.took = p.wire →
    SubConn.messages s.sub.conn =
      (s.pub.subscribers.sent.drop p.since).map Message.received

end NngCore.Spec
