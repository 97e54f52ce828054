import NngCore.Lib.Deal
import NngCore.Ref.Push0Fan

/-!
# Work dealt out in turn

The calls of a fan-out push socket are dealt to its workers in the order they
were made. Nothing changes whose turn it is but the calls themselves: not what
becomes of a send, and not a worker that is gone, which keeps its place and its
turns.
-/

namespace NngCore.Spec

open NngCore.Lib NngCore.Ref

/-- The payload of a message, as a WebSocket carries it. -/
def payloads (msgs : List Message) : List (List UInt8) := msgs.map fun m => m.header ++ m.body

/-- What each message of a share put on the wire, in order: a beginning of its frame, and
the whole of it just when its send returned `Ok`. -/
structure SentInPieces (fmt : FrameFormat) (given done : List Message)
    (pieces : List (Message × List UInt8)) : Prop where
  messages : pieces.map Prod.fst = given
  beginnings : ∀ x ∈ pieces, x.2 <+: frameBytes fmt x.1
  whole : (pieces.filter fun x => x.2 = frameBytes fmt x.1).map Prod.fst = done

/-- What is on a worker's transport, whatever became of the sends on it. A stream on
which no send ended inside its frame has the frames of those that returned `Ok`, and
part of one more. -/
def Delivered (w : Worker) : Prop :=
  w.done.Sublist w.given ∧
    match w.conn with
    | .framed fmt wire =>
        (∃ pieces, SentInPieces fmt w.given w.done pieces ∧ wire = pieces.flatMap Prod.snd) ∧
        (w.torn = false → ∃ part, wire = w.done.flatMap (frameBytes fmt) ++ part ∧
          (part = [] ∨ ∃ msg ∈ w.given, part <+: frameBytes fmt msg ∧
            part ≠ frameBytes fmt msg))
    | .ws items => (payloads w.done).Sublist items ∧ items.Sublist (payloads w.given)

/-- The message of a call. -/
def PushAct.message : PushAct → Option Message
  | .push msg => some msg
  | _ => none

end NngCore.Spec
