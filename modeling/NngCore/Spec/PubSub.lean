import NngCore.Ref.PubSub

/-!
# What a subscriber is subscribed to

The history of calls says it without any set: a topic is subscribed to when
the last call about it was a `subscribe`.
-/

namespace NngCore.Spec

open NngCore.Ref

/-- The most recent of `calls` about `topic` is a `subscribe`. -/
def Subscribed (calls : List SubCall) (topic : List UInt8) : Prop :=
  calls.reverse.find? (fun call => call.topic = topic) = some (.subscribe topic)

end NngCore.Spec
