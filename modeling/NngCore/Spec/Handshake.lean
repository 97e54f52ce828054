import NngCore.Lib.Run
import NngCore.Ref.Handshake

/-!
# Agreement of a handshake

What two sides that connect to each other are to arrive at. Neither waits for
the other for ever; both accept or both refuse, by the protocols alone; and the
side that accepts has taken its peer's handshake out of the pipe and not a byte
of what came behind it, so that its first receives return the first frames
sent.
-/

namespace NngCore.Spec

open NngCore.Lib NngCore.Ref

/-- The bytes a call has still to write and to read. -/
def bytesLeft (e : Endpoint) : Nat :=
  match e.state with
  | .connecting (.writing k) => (8 - k) + 8
  | .connecting (.reading _ k) => 8 - k
  | _ => 0

def totalLeft (s : Duplex) : Nat := bytesLeft (s.ends .left) + bytesLeft (s.ends .right)

/-- What the call of side `d` is to return. -/
def verdict (loc : Side → ProtocolId) (d : Side) : Except TransportError Unit :=
  if loc d.other = (loc d).expectedPeer then .ok ()
  else .error (.handshake (.incompatibleProtocol (loc d) (loc d.other)))

section

variable (w : PointerWidth) (fmt : FrameFormat) (loc : Side → ProtocolId)

/-- While a call runs, some call gets further, and none ever falls back. -/
structure NeverStuck (s : Duplex) : Prop where
  moves : (∃ d, (s.ends d).outcome = none) →
    ∃ a t, Duplex.step w fmt s a = some t ∧ totalLeft t < totalLeft s
  onward : ∀ a t, Duplex.step w fmt s a = some t → totalLeft t ≤ totalLeft s

/-- Both accept, being each other's expected peer, or both refuse. -/
def SameVerdict (s : Duplex) : Prop :=
  ∀ r r', (s.ends .left).outcome = some r → (s.ends .right).outcome = some r' →
    (loc .right = (loc .left).expectedPeer ∧ r = .ok () ∧ r' = .ok ()) ∨
    (loc .right ≠ (loc .left).expectedPeer ∧
      r = .error (.handshake (.incompatibleProtocol (loc .left) (loc .right))) ∧
      r' = .error (.handshake (.incompatibleProtocol (loc .right) (loc .left))))

/-- A step that completes a call has taken the peer's handshake and no more. -/
def TakesHandshake (s : Duplex) : Prop :=
  ∀ d a t, (s.ends d).outcome = none → Duplex.step w fmt s a = some t →
    (t.ends d).outcome = some (.ok ()) →
      (t.ends d).took = (encodeHandshake (loc d.other)).toList

/-- The first frames the peer sent, each within the limit, are what the first
receives return: in order, and all of them once their bytes were read. -/
def DeliversFirst (s : Duplex) : Prop :=
  ∀ d recv sending, (s.ends d).state = .connected recv sending →
    ∀ ms rest, (s.ends d.other).sent = ms ++ rest → (∀ m ∈ ms, m.len ≤ maxFrameBytes) →
      recv.results.take ms.length <+: ms.map (fun m => .ok m.received) ∧
      (8 + (ms.flatMap (frameBytes fmt)).length ≤ (s.ends d).took.length →
        recv.results.take ms.length = ms.map (fun m => .ok m.received))

structure Agreement (s : Duplex) : Prop where
  stuck : NeverStuck w fmt s
  same : SameVerdict loc s
  own : ∀ d r, (s.ends d).outcome = some r → r = verdict loc d
  taken : TakesHandshake w fmt loc s
  delivered : DeliversFirst fmt s

end

end NngCore.Spec
