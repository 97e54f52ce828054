import NngCore.Lib.Bytes

/-!
# The two-part message (`src/message.rs`)

A message is a protocol header in front of an application body, each its own
`Vec<u8>`. The protocol state machines never see more of it than the five
operations of `MessageBuf`, so they are written against the class and run on
the heap message and the stack message alike.

An operation that can panic answers an `Option`, `none` being the panic. On
the heap message only `trim_front` can: it drains a range that has to exist.
-/

namespace NngCore.Ref

open NngCore.Lib

/-- `MessageBuf`: what the protocol state machines ask of a message. -/
class MessageBuf (M : Type) where
  body : M → List UInt8
  header : M → List UInt8
  pushBack : M → List UInt8 → Option M
  headerPushBack : M → List UInt8 → Option M
  trimFront : M → Nat → Option M

/-- `Message`: the heap-backed message. -/
structure Message where
  header : List UInt8
  body : List UInt8
  deriving DecidableEq, Repr

namespace Message

def new : Message := ⟨[], []⟩

def fromParts (header body : List UInt8) : Message := ⟨header, body⟩

def pushBack (m : Message) (data : List UInt8) : Message :=
  { m with body := m.body ++ data }

def headerPushBack (m : Message) (data : List UInt8) : Message :=
  { m with header := m.header ++ data }

/-- `Vec::drain(..n)` panics when the range runs past the end. -/
def trimFront (m : Message) (n : Nat) : Option Message :=
  if n ≤ m.body.length then some { m with body := m.body.drop n } else none

/-- Total bytes in header and body. -/
def len (m : Message) : Nat := m.header.length + m.body.length

/-- What a transport puts on the wire for a message, framing aside: the header
bytes directly in front of the body bytes. -/
def payload (m : Message) : List UInt8 := m.header ++ m.body

/-- What the receiving transport makes of a payload: everything lands in the
body, and the protocol strips its own header fields later. -/
def received (m : Message) : Message := fromParts [] m.payload

@[simp] theorem length_payload (m : Message) : m.payload.length = m.len := by
  rw [payload, List.length_append, len]

theorem trimFront_of_le {m : Message} {n : Nat} (h : n ≤ m.body.length) :
    m.trimFront n = some { m with body := m.body.drop n } := if_pos h

end Message

instance : MessageBuf Message where
  body := Message.body
  header := Message.header
  pushBack m data := some (m.pushBack data)
  headerPushBack m data := some (m.headerPushBack data)
  trimFront := Message.trimFront

end NngCore.Ref
