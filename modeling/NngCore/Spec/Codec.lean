import NngCore.Ref.Codec

/-!
# A self-delimiting frame codec

What the two codec functions are to each other, on whole buffers and with no
transport in sight: frames written back to back come apart again one by one,
what is decoded is the spelling of what it is decoded to, and a frame that is
not all there is known for that.
-/

namespace NngCore.Spec

open NngCore.Lib NngCore.Ref

/-- Header and body are a `Vec` each, and no `Vec` is longer than `isize::MAX`. -/
def Representable (m : Message) : Prop :=
  m.header.length < 2 ^ 63 ∧ m.body.length < 2 ^ 63

instance (m : Message) : Decidable (Representable m) :=
  inferInstanceAs (Decidable (_ ∧ _))

section

variable (w : PointerWidth)

/-- `decode_frame` called `k` times, each call on what the counts returned so
far leave of `src`: the messages with their counts, and the rest. -/
def decodeFrames : Nat → List UInt8 →
    Except CodecError (List (Message × Nat) × List UInt8)
  | 0, src => .ok ([], src)
  | k + 1, src =>
      match decodeFrame w src with
      | .error e => .error e
      | .ok (m, n) =>
          match decodeFrames k (src.drop n) with
          | .error e => .error e
          | .ok (ms, rest) => .ok ((m, n) :: ms, rest)

structure SelfDelimiting : Prop where
  decode_encode : ∀ (ms : List Message) (trailing : List UInt8),
    (∀ m ∈ ms, Representable m) →
      decodeFrames w ms.length (ms.flatMap encodeFrame ++ trailing) =
        .ok (ms.map fun m => (m.received, (encodeFrame m).length), trailing)
  encode_decode : ∀ (src : List UInt8) (m : Message) (n : Nat),
    decodeFrame w src = .ok (m, n) →
      n ≤ src.length ∧ encodeFrame m = src.take n ∧
        ∀ more, decodeFrame w (src ++ more) = .ok (m, n)
  truncated : ∀ (m : Message) (part : List UInt8), Representable m →
    part <+: encodeFrame m → part ≠ encodeFrame m →
      decodeFrame w part = .error .incomplete

end

end NngCore.Spec
