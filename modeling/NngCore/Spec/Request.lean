import NngCore.Ref.Socket
import NngCore.Spec.FrameStream

/-!
# What a request future owes its connection

Two things. A call that waits for its reply waits on a connection that carried
its request; and what the calls leave on a connection is whole frames of
requests that were issued, with at most the last of them incomplete, so that a
server reading it sees nothing that nobody sent. Beside each of them stands
the step that can break it.
-/

namespace NngCore.Spec

open NngCore.Lib NngCore.Ref

/-- A call waiting in `recv` has its whole frame on the connection it waits on. -/
def WaitsOnCarrier (s : Req0) : Prop :=
  ∀ c retry, s.live = some c → c.phase = .recv retry →
    frameBytes s.fmt c.outgoing <:+: s.conn.since

/-- The step is a redial that succeeds inside `recv_raw`. -/
def RedialsInRecv (s : Req0) (a : Req0Act) : Prop :=
  a = .dialed true ∧ ∃ c cause r, s.live = some c ∧ c.phase = .redial .recv cause r ∧
    r.dialing = true

/-- Some of a frame, and not all of it. -/
def Incomplete (fmt : FrameFormat) (issued : List Message) (part : List UInt8) : Prop :=
  ∃ m ∈ issued, part <+: frameBytes fmt m ∧ part ≠ frameBytes fmt m

/-- The connection holds whole frames of issued requests, then at most one
incomplete one. -/
def WellFramed (s : Req0) : Prop :=
  ∃ (msgs : List Message) (part : List UInt8),
    s.conn.wire = msgs.flatMap (frameBytes s.fmt) ++ part ∧
    (∀ m ∈ msgs, m ∈ s.issued) ∧ (part = [] ∨ Incomplete s.fmt s.issued part)

/-- Whatever part of the connection's bytes has reached the server, in whatever
pieces, the messages it receives before any error are requests issued. -/
def ServerSeesRequests (s : Req0) : Prop :=
  ∀ (seen : List UInt8) (acts : List (InAct Unit)) (i : Inbound Unit Unit),
    seen <+: s.conn.wire →
    run (Inbound.step vecZeroed .w64 s.fmt) (.fresh () seen) acts = some i →
      ∀ m ∈ (upToError i.recv.results).1, ∃ r ∈ s.issued, m = r.received

/-- The step puts bytes on the connection. -/
def writesBytes : Req0Act → Bool
  | .write (.ok (_ + 1)) => true
  | _ => false

/-- The step puts bytes behind a frame that was left incomplete. -/
def WritesBehindTear (s : Req0) (a : Req0Act) : Prop :=
  s.conn.torn = true ∧ writesBytes a = true

instance (s : Req0) (a : Req0Act) : Decidable (WritesBehindTear s a) :=
  inferInstanceAs (Decidable (_ ∧ _))

end NngCore.Spec
