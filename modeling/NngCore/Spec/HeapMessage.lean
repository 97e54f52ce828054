import NngCore.Lib.Deque
import NngCore.Ref.HeapMessage
import NngCore.Spec.Codec
import NngCore.Spec.MessageOps

/-!
# Two byte strings that are changed at their ends

What a message is to its owner: a header and a body, each a plain byte string,
and every call an operation at one end of one of them. To the protocols it is the
pair of byte strings that the rest of the model computes with.
-/

namespace NngCore.Spec

open NngCore.Lib NngCore.Ref

section

variable {w : PointerWidth}

/-- What a call does to the header. -/
def headerOp : MessageCall w → Option (DequeOp UInt8)
  | .headerPushBack data => some (.append data.data)
  | .headerPushFront data => some (.prepend data.data)
  | .headerTrimFront n => some (.dropFront n)
  | .headerTrimBack n => some (.dropBack n)
  | _ => none

/-- What a call does to the body. -/
def bodyOp : MessageCall w → Option (DequeOp UInt8)
  | .pushBack data => some (.append data.data)
  | .pushFront data => some (.prepend data.data)
  | .trimFront n => some (.dropFront n)
  | .trimBack n => some (.dropBack n)
  | .write buf => some (.append buf.data)
  | .writeStr s => some (.append s.asBytes.data)
  | _ => none

/-- After `calls` on `m`: two byte strings, each gone through the operations that
were addressed to it. -/
structure TwoDeques (m : HeapMessage w) (calls : List (MessageCall w)) : Prop where
  -- no more is trimmed off a front than is there, and no part outgrows a `Vec`
  completes : (∃ m', run HeapMessage.step m calls = some m') ↔
    DequeOp.Admissible w.isizeMax m.header.data (calls.filterMap headerOp) ∧
      DequeOp.Admissible w.isizeMax m.body.data (calls.filterMap bodyOp)
  header : ∀ m', run HeapMessage.step m calls = some m' →
    m'.header.data = (calls.filterMap headerOp).foldl DequeOp.apply m.header.data
  body : ∀ m', run HeapMessage.step m calls = some m' →
    m'.body.data = (calls.filterMap bodyOp).foldl DequeOp.apply m.body.data
  headerApart : ∀ m', run HeapMessage.step m calls = some m' →
    (∀ call ∈ calls, headerOp call = none) → m'.header = m.header
  bodyApart : ∀ m', run HeapMessage.step m calls = some m' →
    (∀ call ∈ calls, bodyOp call = none) → m'.body = m.body
  len : ∀ m', run HeapMessage.step m calls = some m' →
    m'.len = m'.header.data.length + m'.body.data.length

end

/-- No `Vec` is asked to hold more than it can, and no more is trimmed off the body
than is there. -/
def VecsFit {w : PointerWidth} (s : Handled (HeapMessage w)) : MessageOp → Prop
  | .pushBack data => s.msg.body.len + data.length ≤ w.isizeMax
  | .headerPushBack data => s.msg.header.len + data.length ≤ w.isizeMax
  | .trimFront n => n ≤ s.msg.body.len
  | .reqPrepareOutgoing => s.msg.header.len + 4 ≤ w.isizeMax
  | .repPrepareReply _ => s.msg.header.len + 4 ≤ w.isizeMax
  | .prepareSurvey => s.msg.header.len + 4 ≤ w.isizeMax
  | .prepareResponse _ => s.msg.header.len + 4 ≤ w.isizeMax
  | .attachTtl => s.msg.header.len + 4 ≤ w.isizeMax
  | _ => True

/-- What the protocols do to a heap message, they do to the two byte strings in it. -/
structure HandledAsMessage (w : PointerWidth) (p : Protocols) (m : HeapMessage w)
    (ops : List MessageOp) (a : Handled Message) (b : Handled (HeapMessage w)) : Prop where
  onMessage : run Handled.step ⟨p, m.toMessage, []⟩ ops = some a
  onHeap : run Handled.step ⟨p, m, []⟩ ops = some b
  results : a.results = b.results
  protocols : a.protocols = b.protocols
  message : b.msg.toMessage = a.msg
  -- and the codec can spell it
  representable : w = .w64 → Representable a.msg

/-- A message is its two parts. -/
structure PartsInverse (w : PointerWidth) : Prop where
  intoParts : ∀ header body : VecU8 w,
    (HeapMessage.fromParts header body).intoParts = (header, body)
  fromParts : ∀ m : HeapMessage w, .fromParts m.intoParts.1 m.intoParts.2 = m

end NngCore.Spec
