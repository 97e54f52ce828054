import NngCore.Lib.Run
import NngCore.Ref.Udp

/-!
# Whose reply a request returns

A client that gets a reply is owed the one that the server made for it: for a
datagram of this client that is a copy of this very request.
-/

namespace NngCore.Spec

open NngCore.Ref

/-- The application messages of a step have nothing in their header, which is
where the protocols put what is theirs. -/
def Plain : UdpAct → Prop
  | .call _ msg => msg.header = []
  | .reply msg _ => msg.header = []
  | _ => True

/-- The server made `reply` in a responder obtained from a copy of the request
number `k` of client `c`, and the copy had come in whole. -/
def RepliedTo (s : UdpSystem) (c k : Nat) (reply : Message) : Prop :=
  ∃ outgoing request made, (s.clients c).issued[k]? = some outgoing ∧
    (request, made) ∈ s.server.log ∧ request.src = .client c ∧
    request.payload = outgoing.payload ∧
    UdpTransport.recvDatagram request.payload = outgoing.received ∧
    reply = Message.fromParts [] made.body

/-- Every datagram that was sent fits the buffer of a receive. -/
def FitsBuffer (s : UdpSystem) : Prop := ∀ d ∈ s.net, d.payload.length ≤ maxUdpPayload

/-- Every reply a client was given is the reply to the request it was given for. -/
def NotCrossed (s : UdpSystem) : Prop :=
  ∀ c k reply, (k, .ok reply) ∈ (s.clients c).returned → RepliedTo s c k reply

end NngCore.Spec
