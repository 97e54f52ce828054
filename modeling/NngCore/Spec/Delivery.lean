import NngCore.Ref.AnyTransport
import NngCore.Ref.Link
import NngCore.Spec.Codec
import NngCore.Spec.Hub

/-!
# What is sent can be received

A message whose `send` returned `Ok`, carried to the other end unaltered,
should come out of `recv` there: all of it, and all of it in the body.
-/

namespace NngCore.Spec

open NngCore.Lib NngCore.Ref

/-- A receiver on a stream that starts with `wire` returns `m` first, and can
always be run on to where it has. -/
def FramedReceives (fmt : FrameFormat) (wire : List UInt8) (m : Message) : Prop :=
  ∀ rest acts (i : Inbound Unit Unit),
    run (Inbound.step vecZeroed .w64 fmt) (.fresh () (wire ++ rest)) acts = some i →
      (∀ r, i.recv.results.head? = some r → r = .ok m) ∧
      ∃ acts' i', run (Inbound.step vecZeroed .w64 fmt) i acts' = some i' ∧
        i'.recv.results.head? = some (.ok m)

/-- The other end of the transport, handed what was written. -/
def Receives (t : AnyTransport) (wire : List UInt8) (m : Message) : Prop :=
  match t with
  | .framed stream => FramedReceives stream.behaviour.fmt wire m
  | .udp _ _ => UdpTransport.recvDatagram wire = m

/-- The transports of a kind. -/
inductive TransportKind where
  | framed (fmt : FrameFormat)
  | udp (family : IpFamily)
  deriving DecidableEq

def TransportKind.has : TransportKind → AnyTransport → Prop
  | .framed fmt, .framed stream => stream.behaviour.fmt = fmt
  | .udp family, .udp _ family' => family' = family
  | _, _ => False

/-- Whatever `send` accepts of `m`, the other end receives as `m`. -/
def DeliversAccepted (kind : TransportKind) (m : Message) : Prop :=
  ∀ (t : AnyTransport) (r : Except String Unit) (wire : List UInt8), kind.has t →
    t.send m r = some (.ok (), wire) → Receives t wire m.received

/-- The lengths the two ends agree on. -/
def BothEndsTake (kind : TransportKind) (m : Message) : Prop :=
  match kind with
  | .framed _ => m.len ≤ maxFrameBytes
  | .udp .v4 => True
  | .udp .v6 => m.len ≤ maxUdpPayload ∨ IpFamily.v6.maxPayload < m.len

instance BothEndsTake.decidable :
    ∀ (kind : TransportKind) (m : Message), Decidable (BothEndsTake kind m)
  | .framed _, _ => inferInstanceAs (Decidable (_ ≤ _))
  | .udp .v4, _ => inferInstanceAs (Decidable True)
  | .udp .v6, _ => inferInstanceAs (Decidable (_ ∨ _))

end NngCore.Spec
