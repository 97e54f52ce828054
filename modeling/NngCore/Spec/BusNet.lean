import NngCore.Ref.BusNet
import NngCore.Spec.Hub

/-!
# What buses hear of each other

On every link the reader has returned, of what was broadcast at the other end
since the writer was admitted there, a beginning: nothing else, nothing twice,
nothing out of order. And all of it, if the writer is still there, all that was
written was read, and all that was read was polled for.
-/

namespace NngCore.Spec

open NngCore.Lib NngCore.Ref

structure LinkHeard (src dst : Bus0) (p q : Peer) (l : BusLink) : Prop where
  begins : source q.id dst.returned <+: (src.hub.sent.drop p.since).map Message.received
  all : p ∈ src.hub.peers → l.conn.took = p.wire → q.handed = l.results →
    source q.id dst.returned = (src.hub.sent.drop p.since).map Message.received

def MeshHeard (s : BusNet) : Prop :=
  ∀ l ∈ s.links, ∃ src dst p q, s.buses[l.src]? = some src ∧ s.buses[l.dst]? = some dst ∧
    p ∈ src.everyone ∧ p.id = l.srcId ∧ q ∈ dst.everyone ∧ q.id = l.dstId ∧
    LinkHeard src dst p q l

end NngCore.Spec
