import NngCore.Ref.PipelineNet
import NngCore.Spec.Push0Fan
import NngCore.Spec.Sub0

/-!
# To each its share

Every pull socket gets what its worker was dealt, and nothing else: in order,
each message at most once, and all of it that was sent if it reads all there is.
-/

namespace NngCore.Spec

open NngCore.Lib NngCore.Ref

/-- Everything written at one end was read at the other. -/
def AllRead : PushConn → SubConn → Prop
  | .framed _ wire, .framed c => c.took = wire
  | .ws items, .ws c => c.took.filterMap WsItem.data? = items
  | _, _ => False

/-- The workers on whose stream no send ended inside its frame. -/
def EachItsShare (n : Nat) (s : PipelineNet) : Prop :=
  s.pullers.length = n ∧
    ∀ i w c, s.fan.workers[i]? = some w → s.pullers[i]? = some c → w.torn = false →
      (SubConn.messages c).Sublist ((deal n i s.fan.pushed).map Message.received) ∧
        (AllRead w.conn c → (w.done.map Message.received).Sublist (SubConn.messages c))

end NngCore.Spec
