import NngCore.Ref.Stranger
import NngCore.Spec.Sub0

/-!
# What a stranger is told

A call of `connect` looks at eight bytes and no more. It accepts one string of
eight bytes and refuses every other one, naming the first thing that is wrong
with it; nothing but its own handshake goes out before it has accepted, and what
comes behind the eight bytes is read as frames and as nothing else.
-/

namespace NngCore.Spec

open NngCore.Lib NngCore.Ref

section

variable (loc : ProtocolId) (wrote took : List UInt8)

/-- Why a call has failed. -/
inductive Refused : TransportError → Prop
  | unwritten {e : TransportError} (he : e = .closed ∨ ∃ text, e = .io text)
      (hwrote : wrote <+: (encodeHandshake loc).toList)
      (hne : wrote ≠ (encodeHandshake loc).toList) (htook : took = []) : Refused e
  | cutShort {e : TransportError} (he : e = .closed ∨ ∃ text, e = .io text)
      (hwrote : wrote = (encodeHandshake loc).toList) (htook : took.length < 8) : Refused e
  | noMagic (hwrote : wrote = (encodeHandshake loc).toList) (hlen : took.length = 8)
      (h : took.take 4 ≠ magic.toList) : Refused (.handshake .invalidMagic)
  | reserved (hwrote : wrote = (encodeHandshake loc).toList) (hlen : took.length = 8)
      (hmagic : took.take 4 = magic.toList) (h : took.drop 6 ≠ [0, 0]) :
      Refused (.handshake .reservedNotZero)
  | incompatible {remote : ProtocolId} (hwrote : wrote = (encodeHandshake loc).toList)
      (htook : took = (encodeHandshake remote).toList) (h : remote ≠ loc.expectedPeer) :
      Refused (.handshake (.incompatibleProtocol loc remote))

end

/-- A side that was started as `loc`, wherever it stands. -/
def StandsAt (w : PointerWidth) (fmt : FrameFormat) (e : Endpoint) : Prop :=
  match e.state with
  | .connecting _ => e.wrote <+: (encodeHandshake e.loc).toList ∧ e.took.length < 8
  | .failed err => Refused e.loc e.wrote e.took err
  | .connected recv _ =>
      (encodeHandshake e.loc).toList <+: e.wrote ∧
        e.took.take 8 = (encodeHandshake e.loc.expectedPeer).toList ∧
        OwnFrames w fmt ⟨recv, e.took.drop 8⟩

structure Judges (w : PointerWidth) (fmt : FrameFormat) (loc : ProtocolId) (e : Endpoint) :
    Prop where
  same : e.loc = loc
  stands : StandsAt w fmt e
  -- the eight bytes decide
  decided : 8 ≤ e.took.length →
    (e.outcome = some (.ok ()) ↔ e.took.take 8 = (encodeHandshake loc.expectedPeer).toList)

end NngCore.Spec
