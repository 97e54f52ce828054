import NngCore.Lib.ByteVec
import NngCore.Lib.Run
import NngCore.Ref.Codec

/-!
# The heap message, down to its `Vec`s (`src/message.rs`)

The rest of the model takes a `Message` for two byte strings. Here it is two
`Vec<u8>` with everything that can be done to them: the ends are pushed to and
trimmed, and a message can be written to, which appends to the body. A `Vec`
has no operation that puts something in front, so `push_front` is made of
three: the `Vec` is grown, its old contents are moved back, and the data is
copied to where they were.

A `Vec` is never longer than `isize::MAX`, and no more is a slice; an operation
that would make one longer panics, as does a range past the end. `none` is the
panic. Lengths are `usize`, and sums of them are taken in it.
-/

namespace NngCore.Ref

open NngCore.Lib

/-- `isize::MAX`. -/
def PointerWidth.isizeMax (w : PointerWidth) : Nat := 2 ^ (w.bits - 1) - 1

/-- `Vec<u8>`, and `&[u8]`. -/
abbrev VecU8 (w : PointerWidth) := ByteVec w.isizeMax

/-- `&str`. -/
structure Str (w : PointerWidth) where
  text : String
  fits : text.utf8ByteSize ≤ w.isizeMax

def Str.asBytes {w : PointerWidth} (s : Str w) : VecU8 w :=
  ⟨s.text.toUTF8.data.toList, s.fits⟩

structure HeapMessage (w : PointerWidth) where
  header : VecU8 w
  body : VecU8 w
  deriving DecidableEq

/-- What is done to a message from outside. -/
inductive MessageCall (w : PointerWidth) where
  | headerPushBack (data : VecU8 w)
  | headerPushFront (data : VecU8 w)
  | headerTrimFront (n : Nat)
  | headerTrimBack (n : Nat)
  | pushBack (data : VecU8 w)
  | pushFront (data : VecU8 w)
  | trimFront (n : Nat)
  | trimBack (n : Nat)
  | write (buf : VecU8 w)
  | writeStr (s : Str w)

namespace HeapMessage

variable {w : PointerWidth}

def new : HeapMessage w := ⟨.empty, .empty⟩

def fromParts (header body : VecU8 w) : HeapMessage w := ⟨header, body⟩

def intoParts (m : HeapMessage w) : VecU8 w × VecU8 w := (m.header, m.body)

/-- `push_front`, on either part. -/
def pushFrontOn (part data : VecU8 w) : Option (VecU8 w) :=
  let oldLen := part.len
  match part.resize (w.asUsize (oldLen + data.len)) 0 with
  | none => none
  | some part =>
      match part.copyWithin 0 oldLen data.len with
      | none => none
      | some part => part.copyFromSlice 0 data.len data.data

/-- `trim_back`, on either part. -/
def trimBackOn (part : VecU8 w) (n : Nat) : VecU8 w :=
  let newLen := part.len - n
  part.truncate newLen

def setHeader (m : HeapMessage w) (header : VecU8 w) : HeapMessage w :=
  { m with header := header }

def setBody (m : HeapMessage w) (body : VecU8 w) : HeapMessage w := { m with body := body }

def headerPushBack (m : HeapMessage w) (data : VecU8 w) : Option (HeapMessage w) :=
  (m.header.extendFromSlice data.data).map m.setHeader

def headerPushFront (m : HeapMessage w) (data : VecU8 w) : Option (HeapMessage w) :=
  (pushFrontOn m.header data).map m.setHeader

def headerTrimFront (m : HeapMessage w) (n : Nat) : Option (HeapMessage w) :=
  (m.header.drainTo n).map m.setHeader

def headerTrimBack (m : HeapMessage w) (n : Nat) : HeapMessage w :=
  m.setHeader (trimBackOn m.header n)

def pushBack (m : HeapMessage w) (data : VecU8 w) : Option (HeapMessage w) :=
  (m.body.extendFromSlice data.data).map m.setBody

def pushFront (m : HeapMessage w) (data : VecU8 w) : Option (HeapMessage w) :=
  (pushFrontOn m.body data).map m.setBody

def trimFront (m : HeapMessage w) (n : Nat) : Option (HeapMessage w) :=
  (m.body.drainTo n).map m.setBody

def trimBack (m : HeapMessage w) (n : Nat) : HeapMessage w :=
  m.setBody (trimBackOn m.body n)

def len (m : HeapMessage w) : Nat := w.asUsize (m.header.len + m.body.len)

/-- `fmt::Write`; the error has no value of its own. -/
def writeStr (m : HeapMessage w) (s : Str w) : Option (Except Unit Unit × HeapMessage w) :=
  (m.pushBack s.asBytes).map fun m => (.ok (), m)

/-- `embedded_io_async::Write`, whose error is `Infallible`. -/
def write (m : HeapMessage w) (buf : VecU8 w) : Option (Except Empty Nat × HeapMessage w) :=
  (m.pushBack buf).map fun m => (.ok buf.len, m)

def step (m : HeapMessage w) : MessageCall w → Option (HeapMessage w)
  | .headerPushBack data => m.headerPushBack data
  | .headerPushFront data => m.headerPushFront data
  | .headerTrimFront n => m.headerTrimFront n
  | .headerTrimBack n => some (m.headerTrimBack n)
  | .pushBack data => m.pushBack data
  | .pushFront data => m.pushFront data
  | .trimFront n => m.trimFront n
  | .trimBack n => some (m.trimBack n)
  | .write buf => (m.write buf).map Prod.snd
  | .writeStr s => (m.writeStr s).map Prod.snd

/-- The message as the protocols and transports take it. -/
def toMessage (m : HeapMessage w) : Message := .fromParts m.header.data m.body.data

end HeapMessage

/-- `MessageBuf for Message`. -/
instance (w : PointerWidth) : MessageBuf (HeapMessage w) where
  body m := m.body.data
  header m := m.header.data
  pushBack m data := (m.body.extendFromSlice data).map m.setBody
  headerPushBack m data := (m.header.extendFromSlice data).map m.setHeader
  trimFront := HeapMessage.trimFront

end NngCore.Ref
