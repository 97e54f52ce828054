import NngCore.Lib.Run
import NngCore.Ref.Transport

/-!
# A transport on a byte stream

The stream the receiving transport reads from, and the two ends of one
connection. The stream is what `embedded-io-async` promises of one and no
more: bytes arrive in order and unaltered, a read takes a non-empty piece off
the front of what has arrived, a read that is dropped has taken nothing, and
once everything is read and the writer is gone a read reports zero bytes.
-/

namespace NngCore.Ref

open NngCore.Lib

/-- A receiving transport and the bytes that arrived for it and are unread. -/
structure Inbound (K S : Type) where
  recv : Receiver K S
  input : List UInt8
  deriving DecidableEq

/-- What can happen at the receiving end. `read n` is a read that came back
with the next `n` bytes, `eof` one that reported the end of the stream. -/
inductive InAct (K : Type) where
  | call (k : K)
  | read (n : Nat)
  | eof
  | drop
  deriving DecidableEq

section Inbound

variable {K S : Type} (alloc : K → S → Nat → List UInt8 × S)
variable (w : PointerWidth) (fmt : FrameFormat)

def Inbound.fresh (s : S) (input : List UInt8) : Inbound K S := ⟨.fresh s, input⟩

/-- What the receiving transport is asked to do, and what stays unread. -/
def Inbound.request (i : Inbound K S) : InAct K → Option (RecvAct K × List UInt8)
  | .call k => some (.call k, i.input)
  | .read n =>
      if 0 < n ∧ n ≤ i.input.length then
        some (.read (.ok (i.input.take n)), i.input.drop n)
      else none
  | .eof => if i.input = [] then some (.read (.ok []), []) else none
  | .drop => some (.drop, i.input)

def Inbound.step (i : Inbound K S) (a : InAct K) : Option (Inbound K S) :=
  match i.request a with
  | none => none
  | some (act, input) =>
      match i.recv.step alloc w fmt act with
      | none => none
      | some recv => some ⟨recv, input⟩

end Inbound

/-! ## Both ends of a connection

One side sends a list of messages, each `send` running to completion before
the next starts; the other side receives. -/

structure Session where
  toSend : List Message
  sending : Option SendFut
  inbound : Inbound Unit Unit
  deriving DecidableEq

/-- `write n` is a write of the sender accepting `n` of the offered bytes. -/
inductive SessionAct where
  | send
  | write (n : Nat)
  | inbound (a : InAct Unit)
  deriving DecidableEq

namespace Session

variable (fmt : FrameFormat)

def start (msgs : List Message) : Session := ⟨msgs, none, .fresh () []⟩

/-- Book where a piece of `send` stopped; a failed `send` ends the session's
sending, and no write fails here. -/
def settle (s : Session) : SendPoll → Session
  | .pending fut => { s with sending := some fut }
  | .ready _ => { s with sending := none }

def arrive (s : Session) (bs : List UInt8) : Session :=
  { s with inbound := { s.inbound with input := s.inbound.input ++ bs } }

def step (s : Session) : SessionAct → Option Session
  | .send =>
      match s.sending, s.toSend with
      | none, m :: rest => some ({ s with toSend := rest }.settle (sendStart fmt m))
      | _, _ => none
  | .write n =>
      match s.sending with
      | none => none
      | some fut =>
          if 0 < n ∧ n ≤ fut.offered.length then
            some ((s.arrive (fut.offered.take n)).settle (fut.resume (.ok n)))
          else none
  | .inbound a =>
      -- the stream ends only once the sender is through
      if a = .eof ∧ (s.toSend ≠ [] ∨ s.sending ≠ none) then none
      else
        match s.inbound.step vecZeroed .w64 fmt a with
        | none => none
        | some i => some { s with inbound := i }

/-- The messages the `recv` calls have returned so far. -/
def delivered (s : Session) : List Message :=
  s.inbound.recv.results.filterMap Except.toOption

/-- Every byte of every message was written, and was read. -/
def AllRead (s : Session) : Prop :=
  s.toSend = [] ∧ s.sending = none ∧ s.inbound.input = []

end Session

end NngCore.Ref
