import NngCore.Lib.Run
import NngCore.Ref.SendRaw

/-!
# Sent at most once

What a raw send leaves on the connections the socket held during the call.
Each of them has the whole frame of the message from this call, or a part of
it that lacks at least the last byte. A call that succeeded left the whole
frame on the connection the socket now holds and parts on the others; a call
that failed left parts alone.
-/

namespace NngCore.Spec

open NngCore.Lib NngCore.Ref

/-- This call wrote the frame of `msg`, and nothing else. -/
def Whole (msg : Message) (c : RawConn) : Prop := c.since = frameBytes c.fmt msg

/-- This call wrote less than the frame of `msg`. -/
def Part (msg : Message) (c : RawConn) : Prop :=
  ∃ rest, rest ≠ [] ∧ c.since ++ rest = frameBytes c.fmt msg

/-- The connections the socket held during the call. -/
def conns (s : SendRaw) : List RawConn := s.past ++ [s.conn]

structure SentOnce (msg : Message) (s : SendRaw) : Prop where
  held : Whole msg s.conn
  others : ∀ c ∈ s.past, Part msg c
  total : (conns s).countP (fun c => c.since = frameBytes c.fmt msg) = 1

structure DeliveredAtMostOnce (msg : Message) (s : SendRaw) : Prop where
  ok : s.returned = some (.ok ()) → SentOnce msg s
  err : ∀ e, s.returned = some (.error e) → ∀ c ∈ conns s, Part msg c
  /-- A connection that was given up stays as it was then. -/
  left : ∀ acts t, run SendRaw.step s acts = some t → s.past <+: t.past

/-- `since` is all that the call added to what was on a connection: `wire` on
the first, nothing on one that was dialled during the call. -/
def Added (wire : List UInt8) (s : SendRaw) : Prop :=
  ∃ c cs, conns s = c :: cs ∧ c.wire = wire ++ c.since ∧ ∀ d ∈ cs, d.wire = d.since

end NngCore.Spec
