import NngCore.Ref.Message

/-!
# The SP wire codec (`src/codec.rs`)

The handshake, and frame encoding and decoding on whole buffers. The declared
length of a frame is a `u64` on the wire and a `usize` in the program, and the
cast between the two is the one place where the pointer width of the target
shows, so the decoder takes the width as an argument.
-/

namespace NngCore.Ref

open NngCore.Lib

/-- The pointer widths the crate is built for. -/
inductive PointerWidth where
  | w32
  | w64
  deriving DecidableEq, Repr

def PointerWidth.bits : PointerWidth → Nat
  | .w32 => 32
  | .w64 => 64

/-- `n as usize`: the bits above the pointer width are dropped. -/
def PointerWidth.asUsize (w : PointerWidth) (n : Nat) : Nat := n % 2 ^ w.bits

/-- `ProtocolId(u16)`. -/
structure ProtocolId where
  id : UInt16
  deriving DecidableEq, Repr

/-- `CodecError`. -/
inductive CodecError where
  | invalidMagic
  | reservedNotZero
  | incompatibleProtocol (loc remote : ProtocolId)
  | incomplete
  deriving DecidableEq, Repr

/-! ## The handshake -/

namespace ProtocolId

@[match_pattern] def pair0 : ProtocolId := ⟨0x10⟩
@[match_pattern] def pair1 : ProtocolId := ⟨0x11⟩
@[match_pattern] def pub0 : ProtocolId := ⟨0x20⟩
@[match_pattern] def sub0 : ProtocolId := ⟨0x21⟩
@[match_pattern] def req0 : ProtocolId := ⟨0x30⟩
@[match_pattern] def rep0 : ProtocolId := ⟨0x31⟩
@[match_pattern] def push0 : ProtocolId := ⟨0x50⟩
@[match_pattern] def pull0 : ProtocolId := ⟨0x51⟩
@[match_pattern] def surveyor0 : ProtocolId := ⟨0x62⟩
@[match_pattern] def respondent0 : ProtocolId := ⟨0x63⟩
@[match_pattern] def bus0 : ProtocolId := ⟨0x70⟩

/-- The ID the remote peer must present; an unknown protocol is its own peer. -/
def expectedPeer : ProtocolId → ProtocolId
  | req0 => rep0
  | rep0 => req0
  | pub0 => sub0
  | sub0 => pub0
  | push0 => pull0
  | pull0 => push0
  | pair0 => pair0
  | pair1 => pair1
  | surveyor0 => respondent0
  | respondent0 => surveyor0
  | bus0 => bus0
  | p => p

end ProtocolId

def magic : Vector UInt8 4 := #v[0x00, 0x53, 0x50, 0x00]

def encodeHandshake (loc : ProtocolId) : Vector UInt8 8 :=
  ⟨(magic.toList ++ beBytes 2 loc.id.toNat ++ [0, 0]).toArray, by simp [magic]⟩

def decodeHandshake (buf : Vector UInt8 8) : Except CodecError ProtocolId :=
  if buf[0] ≠ magic[0] ∨ buf[1] ≠ magic[1] ∨ buf[2] ≠ magic[2] ∨ buf[3] ≠ magic[3] then
    .error .invalidMagic
  else if buf[6] ≠ 0 ∨ buf[7] ≠ 0 then .error .reservedNotZero
  else .ok ⟨UInt16.ofNat (beNat [buf[4], buf[5]])⟩

def checkPeer (loc remote : ProtocolId) : Except CodecError Unit :=
  if remote ≠ loc.expectedPeer then .error (.incompatibleProtocol loc remote) else .ok ()

theorem ProtocolId.expectedPeer_expectedPeer (p : ProtocolId) :
    p.expectedPeer.expectedPeer = p := by
  by_cases h : p.expectedPeer = p
  · rw [h, h]
  · unfold expectedPeer at h
    split at h
    all_goals first | rfl | exact absurd rfl h

theorem decodeHandshake_encodeHandshake (p : ProtocolId) :
    decodeHandshake (encodeHandshake p) = .ok p := by
  have hword : beNat (beBytes 2 p.id.toNat) = p.id.toNat :=
    beNat_beBytes_of_lt p.id.toNat_lt
  show Except.ok (ProtocolId.mk (UInt16.ofNat (beNat (beBytes 2 p.id.toNat)))) = _
  rw [hword, UInt16.ofNat_toNat]

/-! ## Frames -/

/-- `encode_frame`: an eight-byte big-endian length, then header, then body. -/
def encodeFrame (msg : Message) : List UInt8 :=
  beBytes 8 (msg.header.length + msg.body.length) ++ msg.header ++ msg.body

/-- `decode_frame`: one frame off the front of `src`, and the bytes it took. -/
def decodeFrame (w : PointerWidth) (src : List UInt8) :
    Except CodecError (Message × Nat) :=
  if src.length < 8 then .error .incomplete
  else
    let len := w.asUsize (beNat (src.take 8))
    if src.length - 8 < len then .error .incomplete
    else .ok (Message.new.pushBack ((src.drop 8).take len), 8 + len)

theorem encodeFrame_eq (msg : Message) :
    encodeFrame msg = beBytes 8 msg.len ++ msg.payload := by
  rw [encodeFrame, List.append_assoc]
  rfl

theorem PointerWidth.asUsize_w64 {n : Nat} (h : n < 256 ^ 8) :
    PointerWidth.w64.asUsize n = n :=
  Nat.mod_eq_of_lt (Nat.lt_of_lt_of_eq h (by decide))

theorem decodeFrame_of_lt {w : PointerWidth} {src : List UInt8}
    (h : src.length < 8) : decodeFrame w src = .error .incomplete := if_pos h

/-- A source of eight bytes or more, cut at its length word. -/
theorem decodeFrame_append {w : PointerWidth} {hdr rest : List UInt8}
    (hh : hdr.length = 8) :
    decodeFrame w (hdr ++ rest) =
      if rest.length < w.asUsize (beNat hdr) then .error .incomplete
      else .ok (Message.fromParts [] (rest.take (w.asUsize (beNat hdr))),
        8 + w.asUsize (beNat hdr)) := by
  have htake : (hdr ++ rest).take 8 = hdr := by rw [← hh, List.take_left]
  have hdrop : (hdr ++ rest).drop 8 = rest := by rw [← hh, List.drop_left]
  have hlen : (hdr ++ rest).length - 8 = rest.length := by
    rw [List.length_append, hh]
    omega
  have hge : ¬ (hdr ++ rest).length < 8 := by
    rw [List.length_append, hh]
    omega
  rw [decodeFrame, if_neg hge]
  simp only [htake, hdrop, hlen]
  rfl

end NngCore.Ref
