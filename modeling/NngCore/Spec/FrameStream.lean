import NngCore.Lib.Delimited
import NngCore.Ref.Link

/-!
# What a byte stream says, cut into frames

The receiver is a machine with three phases and a buffer; what it is for needs
none of that. A stream is a sequence of delimited items, each a frame header
with the payload it announces, and every item has one answer: the message, or
the reason why the header is refused. A refused header announces no payload at
all, which is how the receiver treats it: it reads on right behind the header.

The second half is the decoder a buffered caller would write, `decode_frame`
in a loop, cutting messages off the front as long as it may.
-/

namespace NngCore.Spec

open NngCore.Lib NngCore.Ref

section

variable (w : PointerWidth) (fmt : FrameFormat)

/-- The framing of a transport: `needed` header bytes, then what they say. -/
def framing : Framing UInt8 where
  headerLen := fmt.needed
  headerLen_pos := by cases fmt <;> decide
  payloadLen hdr :=
    match payloadLen w fmt hdr with
    | .ok len => len
    | .error _ => 0

/-- What `recv` returns for an item. -/
def answer (it : (framing w fmt).Item) : Except TransportError Message :=
  match payloadLen w fmt it.header with
  | .ok _ => .ok (Message.fromParts [] it.payload)
  | .error e => .error e

/-- The header is refused. -/
def Rejected (hdr : List UInt8) : Prop :=
  hdr.length = fmt.needed ∧ ∃ e, payloadLen w fmt hdr = .error e

/-- One whole frame the receiver accepts. -/
def Accepted (frame : List UInt8) : Prop :=
  ∃ hdr payload, frame = hdr ++ payload ∧ hdr.length = fmt.needed ∧
    payloadLen w fmt hdr = .ok payload.length

/-! ## One frame

What a caller is owed for a frame that declares `len`, whatever the machine. -/

/-- A frame header that declares `len`. -/
def wireHeader (len : Nat) : List UInt8 :=
  (if fmt = .ipc then [0x01] else []) ++ beBytes 8 len

/-- What the first `recv` returns for a frame that declares `len` with `rest`
behind its header. -/
def owed (len : Nat) (rest : List UInt8) : Except TransportError Message :=
  if maxFrameBytes < len then .error (.frameTooLarge len)
  else if rest.length < len then .error .closed
  else .ok (Message.fromParts [] (rest.take len))

/-- The declared length is honoured: by `decode_frame` on every input that
starts with it, and by `recv` in every run on every stream that starts with a
header declaring it, where the caller can always go on to the answer owed. -/
structure HonoursLength (len : Nat) : Prop where
  decode : ∀ rest, decodeFrame w (beBytes 8 len ++ rest) =
    if rest.length < len then .error .incomplete
    else .ok (Message.fromParts [] (rest.take len), 8 + len)
  recv : ∀ (fmt : FrameFormat) rest acts (i : Inbound Unit Unit),
    run (Inbound.step vecZeroed w fmt) (.fresh () (wireHeader fmt len ++ rest)) acts =
        some i →
      (∀ r, i.recv.results.head? = some r → r = owed len rest) ∧
      ∃ acts' i', run (Inbound.step vecZeroed w fmt) i acts' = some i' ∧
        i'.recv.results.head? = some (owed len rest)

/-! ## After a refused header -/

/-- `recv` refused a header: `BadFrameType` or `FrameTooLarge`. -/
def framingError : Except TransportError Message → Bool
  | .error (.badFrameType _) => true
  | .error (.frameTooLarge _) => true
  | _ => false

def returnsOk : Except TransportError Message → Bool
  | .ok _ => true
  | .error _ => false

/-- Once a header was refused, nothing is received any more. -/
def SilentAfterError (results : List (Except TransportError Message)) : Prop :=
  results.Pairwise fun r r' => framingError r = true → returnsOk r' = false

instance (results : List (Except TransportError Message)) :
    Decidable (SilentAfterError results) :=
  inferInstanceAs (Decidable (results.Pairwise _))

/-- A whole frame sits right behind the first refused header of the stream, or
right behind the refused headers that follow it. -/
def Resyncs (src : List UInt8) : Prop :=
  ∃ (frames skipped : List (List UInt8)) (bad frame post : List UInt8),
    src = frames.flatten ++ bad ++ skipped.flatten ++ frame ++ post ∧
      (∀ f ∈ frames, Accepted w fmt f) ∧ Rejected w fmt bad ∧
      (∀ hdr ∈ skipped, Rejected w fmt hdr) ∧ Accepted w fmt frame

/-! ## `decode_frame` in a loop -/

/-- The length the first eight bytes declare, as the decoder reads it. -/
def declared (src : List UInt8) : Nat := w.asUsize (beNat (src.take 8))

/-- The next frame header is all there. -/
def HeaderPresent (src : List UInt8) : Prop := fmt.needed ≤ src.length

/-- The bytes `decode_frame` is handed: all of them, or for IPC those behind
the type byte. -/
def behindType (src : List UInt8) : List UInt8 :=
  match fmt with
  | .tcp => src
  | .ipc => src.drop 1

/-- The type byte is the one required; TCP has none. -/
def typeOk (src : List UInt8) : Bool :=
  match fmt with
  | .tcp => true
  | .ipc => src.head? = some 0x01

/-- One turn of the loop: the message and what is left behind its frame. -/
def nextFrame (src : List UInt8) : Option (Message × List UInt8) :=
  let src' := behindType fmt src
  if typeOk fmt src && decide (declared w src' ≤ maxFrameBytes) then
    match decodeFrame w src' with
    | .ok (m, n) => some (m, src'.drop n)
    | .error _ => none
  else none

def decodeLoop : Nat → List UInt8 → List Message × List UInt8
  | 0, src => ([], src)
  | fuel + 1, src =>
      match nextFrame w fmt src with
      | none => ([], src)
      | some (m, rest) =>
          let (ms, last) := decodeLoop fuel rest
          (m :: ms, last)

/-- Iterate `decode_frame` from offset zero. Every frame is longer than its
payload, so the length of the source is more turns than there can be. -/
def decodeAll (src : List UInt8) : List Message × List UInt8 :=
  decodeLoop w fmt src.length src

/-- The error `recv` owes a caller where the loop has stopped at `rest`: the
length or the type byte when the header is there and refused, and the end of
the stream, inside a frame that is incomplete, otherwise. -/
structure FirstError (rest : List UInt8) (e : TransportError) : Prop where
  tooLarge : ∀ len, e = .frameTooLarge len ↔ HeaderPresent fmt rest ∧
    typeOk fmt rest = true ∧ declared w (behindType fmt rest) = len ∧ maxFrameBytes < len
  badType : ∀ b, e = .badFrameType b ↔ fmt = .ipc ∧ HeaderPresent fmt rest ∧
    rest.head? = some b ∧ b ≠ 0x01
  closed : e = .closed ↔
    (∀ len, e ≠ .frameTooLarge len) ∧ ∀ b, e ≠ .badFrameType b
  incomplete : e = .closed → decodeFrame w (behindType fmt rest) = .error .incomplete

end

/-- The results of successive `recv` calls up to the first error. -/
def upToError :
    List (Except TransportError Message) → List Message × Option TransportError
  | [] => ([], none)
  | .error e :: _ => ([], some e)
  | .ok m :: rs => (m :: (upToError rs).1, (upToError rs).2)

end NngCore.Spec
