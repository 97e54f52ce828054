import NngCore.Lib.OrderedSet
import NngCore.Ref.Message

/-!
# Subscriptions (`src/protocols/pubsub.rs`)

A subscriber keeps a set of byte strings and lets a message through when one
of them is a prefix of its body. The set is ordered as `Vec<u8>` is, byte by
byte and the shorter first, and the test reads it up to the body only.
-/

namespace NngCore.Ref

open NngCore.Lib

/-- `Sub0State`, with its `BTreeSet<Vec<u8>>`. -/
structure Sub0State where
  subscriptions : OrderedSet (List UInt8)

namespace Sub0State

def new : Sub0State := ⟨.empty⟩

def subscribe (s : Sub0State) (topic : List UInt8) : Sub0State :=
  ⟨s.subscriptions.insert topic⟩

def unsubscribe (s : Sub0State) (topic : List UInt8) : Sub0State :=
  ⟨s.subscriptions.remove topic⟩

/-- `matches`: the range query, and `starts_with` on what it gives. -/
def isMatch {M : Type} [MessageBuf M] (s : Sub0State) (msg : M) : Bool :=
  let body := MessageBuf.body msg
  (s.subscriptions.rangeTo body).any fun topic => topic.isPrefixOf body

def isEmpty (s : Sub0State) : Bool := s.subscriptions.isEmpty

end Sub0State

/-- The calls that change the subscriptions. -/
inductive SubCall where
  | subscribe (topic : List UInt8)
  | unsubscribe (topic : List UInt8)
  deriving DecidableEq

def SubCall.topic : SubCall → List UInt8
  | .subscribe topic => topic
  | .unsubscribe topic => topic

def Sub0State.apply (s : Sub0State) : SubCall → Sub0State
  | .subscribe topic => s.subscribe topic
  | .unsubscribe topic => s.unsubscribe topic

end NngCore.Ref
