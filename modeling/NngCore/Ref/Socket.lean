import NngCore.Lib.Run
import NngCore.Ref.ReqRep
import NngCore.Ref.Transport

/-!
# The request socket (`src/socket.rs`, `src/socket/reqrep0.rs`)

`Req0::request` sends its request and waits for the reply that carries its ID,
sending again when the resend timer fires. Underneath, `send_raw` and
`recv_raw` each redial once when the transport fails and then try their own
operation again on the new connection. All of it is one future, and it stops
in five places: in a write, in a receive, in the pause before a redial, in the
redial, and (while it receives, or redials in order to receive) under the
resend timer. A state here is the socket together with the place its live
future stands at, and a step is what the executor or the caller does there.

Calls through `Req0Service` take the socket's mutex first, so the calls that
ever touch the socket are, one after the other, exactly such futures.

The receiving half of the connection is `Ref.Transport`'s; here a receive
comes back with any message or any error. Of the connection the model keeps
the bytes written on it since its handshake, and for the statements three
things the source does not keep: the bytes among them that the live call
wrote, whether a send on it ended inside its frame, and the requests issued.
-/

namespace NngCore.Ref

open NngCore.Lib

inductive NngError where
  | io (e : String)
  | handshakeFailed (e : CodecError)
  | connectionClosed
  | frameTooLarge (len : Nat)
  | badFrameType (b : UInt8)
  | noPeers
  | reconnectExhausted
  | protocolViolation (what : String)
  deriving DecidableEq, Repr

/-- `impl From<TransportError> for NngError`. -/
def NngError.ofTransport : TransportError → NngError
  | .handshake e => .handshakeFailed e
  | .io e => .io e
  | .closed => .connectionClosed
  | .badFrameType b => .badFrameType b
  | .frameTooLarge len => .frameTooLarge len

/-! ## Reconnecting -/

/-- `Duration::MAX`, in nanoseconds. -/
def durationMax : Nat := (2 ^ 64 - 1) * 1000000000 + 999999999

/-- `ReconnectOptions`; durations are nanoseconds. -/
structure ReconnectOptions where
  minBackoff : Nat
  maxBackoff : Nat
  maxAttempts : Option UInt32
  deriving DecidableEq, Repr

def ReconnectOptions.default : ReconnectOptions where
  minBackoff := 100000000
  maxBackoff := 30000000000
  maxAttempts := none

/-- The local variables of `reconnect_transport`, and which of its two awaits
it stands at. -/
structure Redial where
  backoff : Nat
  attempts : UInt32
  dialing : Bool
  deriving DecidableEq, Repr

def Redial.start (opts : ReconnectOptions) : Redial := ⟨opts.minBackoff, 0, false⟩

/-- How the loop of `reconnect_transport` goes on after a failed attempt. The
counter wraps as release builds do; `Duration` multiplication panics. -/
inductive RedialNext where
  | again (r : Redial)
  | exhausted
  | panicked
  deriving DecidableEq

def Redial.failed (opts : ReconnectOptions) (r : Redial) : RedialNext :=
  let attempts := r.attempts + 1
  let goOn : RedialNext :=
    if r.backoff * 2 ≤ durationMax then
      .again ⟨min (r.backoff * 2) opts.maxBackoff, attempts, false⟩
    else .panicked
  match opts.maxAttempts with
  | some max => if attempts ≥ max then .exhausted else goOn
  | none => goOn

/-! ## The socket and its live call -/

/-- Which of the two raw operations a redial is part of. -/
inductive RawOp where
  | send
  | recv
  deriving DecidableEq, Repr

/-- Where a `request` future stands. `retry` says that its raw operation has
redialled already, so the next failure is returned. -/
inductive Phase where
  | send (fut : SendFut) (retry : Bool)
  | recv (retry : Bool)
  | redial (op : RawOp) (cause : NngError) (r : Redial)
  deriving DecidableEq

structure Call where
  outgoing : Message
  sentId : UInt32
  phase : Phase
  deriving DecidableEq

structure Conn where
  wire : List UInt8
  since : List UInt8
  torn : Bool
  deriving DecidableEq

def Conn.fresh : Conn := ⟨[], [], false⟩

def Conn.write (c : Conn) (bs : List UInt8) : Conn :=
  { c with wire := c.wire ++ bs, since := c.since ++ bs }

/-- A send on the connection has ended, inside its frame if `b`. -/
def Conn.tear (c : Conn) (b : Bool) : Conn := { c with torn := c.torn || b }

structure Req0 where
  fmt : FrameFormat
  state : Req0State
  resendTime : Option Nat
  reconnect : Option ReconnectOptions
  conn : Conn
  live : Option Call
  issued : List Message
  returned : List (Except NngError Message)
  panicked : Bool
  deriving DecidableEq

inductive Req0Act where
  | call (msg : Message)
  | write (r : WriteResult)
  | received (r : Except TransportError Message)
  | slept
  | dialed (ok : Bool)
  | timeout
  | drop
  | setResendTime (d : Nat)
  deriving DecidableEq

namespace Req0

def dial (fmt : FrameFormat) (resendTime : Option Nat) (reconnect : Option ReconnectOptions) :
    Req0 where
  fmt := fmt
  state := .new
  resendTime := resendTime
  reconnect := reconnect
  conn := .fresh
  live := none
  issued := []
  returned := []
  panicked := false

def await (s : Req0) (c : Call) (p : Phase) : Req0 :=
  { s with live := some { c with phase := p } }

def finish (s : Req0) (r : Except NngError Message) : Req0 :=
  { s with live := none, returned := s.returned ++ [r] }

def die (s : Req0) : Req0 := { s with live := none, panicked := true }

/-- The bytes `fut` has written are not yet a frame, and are more than none. -/
def midFrame (s : Req0) (c : Call) (fut : SendFut) : Bool :=
  decide (fut.left.length < (frameBytes s.fmt c.outgoing).length)

def tear (s : Req0) (b : Bool) : Req0 := { s with conn := s.conn.tear b }

/-- A raw operation has failed: redial, or return the failure. -/
def rawFailed (s : Req0) (c : Call) (op : RawOp) (retry : Bool) (e : NngError) : Req0 :=
  match s.reconnect, retry with
  | some opts, false => s.await c (.redial op e (.start opts))
  | _, _ => s.finish (.error e)

/-- Where `send_raw` stands after a piece of `send`. -/
def settleSend (s : Req0) (c : Call) (retry : Bool) : SendPoll → Req0
  | .pending fut => s.await c (.send fut retry)
  | .ready (.ok ()) => s.await c (.recv false)
  | .ready (.error e) => s.rawFailed c .send retry (.ofTransport e)

def startSend (s : Req0) (c : Call) (retry : Bool) : Req0 :=
  s.settleSend c retry (sendStart s.fmt c.outgoing)

/-- The text of `ReqRepError::MessageTooShort`. -/
def tooShortText : String := "message too short to contain request ID"

/-- What `request` does with what `recv_raw` returned. -/
def settleRecv (s : Req0) (c : Call) (retry : Bool) : Except TransportError Message → Req0
  | .error e => s.rawFailed c .recv retry (.ofTransport e)
  | .ok raw =>
      match s.state.processIncoming raw c.sentId with
      | none => s.die
      | some (.ok (), reply) => s.finish (.ok reply)
      | some (.error (.idMismatch _ _), _) => s.await c (.recv false)
      | some (.error .messageTooShort, _) =>
          s.finish (.error (.protocolViolation tooShortText))

/-- A call may be given any message whose length a `usize` can hold. -/
def call (s : Req0) (msg : Message) : Option Req0 :=
  match s.live with
  | some _ => none
  | none =>
      if 2 ^ 64 ≤ msg.len + 4 then none
      else
        match s.state.prepareOutgoing msg with
        | none => some s.die
        | some (id, outgoing, st) =>
            some ({ s with
              state := st
              conn := { s.conn with since := [] }
              issued := s.issued ++ [outgoing] }.startSend
                ⟨outgoing, id, .recv false⟩ false)

/-- A write came back. It never accepts more than it was offered. -/
def written (s : Req0) (c : Call) (fut : SendFut) (retry : Bool) (r : WriteResult) :
    Option Req0 :=
  match r with
  | .ok n =>
      if n ≤ fut.offered.length then
        some (({ s with conn := s.conn.write (fut.offered.take n) }.tear
          (n = 0 && s.midFrame c fut)).settleSend c retry (fut.resume (.ok n)))
      else none
  | .err e => some ((s.tear (s.midFrame c fut)).settleSend c retry (fut.resume (.err e)))

/-- An attempt of `connect_transport` came back. -/
def dialDone (s : Req0) (c : Call) (op : RawOp) (cause : NngError) (r : Redial) :
    Bool → Option Req0
  | true =>
      let s := { s with conn := .fresh }
      match op with
      | .send => some (s.startSend c true)
      | .recv => some (s.await c (.recv true))
  | false =>
      match s.reconnect with
      | none => none
      | some opts =>
          match r.failed opts with
          | .again r => some (s.await c (.redial op cause r))
          | .exhausted => some (s.finish (.error cause))
          | .panicked => some s.die

def step (s : Req0) (a : Req0Act) : Option Req0 :=
  match a, s.live with
  | .call msg, _ => s.call msg
  | .setResendTime d, none => some { s with resendTime := some d }
  | _, none => none
  | .write r, some c =>
      match c.phase with
      | .send fut retry => s.written c fut retry r
      | _ => none
  | .received r, some c =>
      match c.phase with
      | .recv retry => some (s.settleRecv c retry r)
      | _ => none
  | .slept, some c =>
      match c.phase with
      | .redial op cause r =>
          if r.dialing then none
          else some (s.await c (.redial op cause { r with dialing := true }))
      | _ => none
  | .dialed ok, some c =>
      match c.phase with
      | .redial op cause r => if r.dialing then s.dialDone c op cause r ok else none
      | _ => none
  | .timeout, some c =>
      -- the timer runs around `recv_raw` alone
      if s.resendTime = none then none
      else
        match c.phase with
        | .recv _ => some (s.startSend c false)
        | .redial .recv _ _ => some (s.startSend c false)
        | _ => none
  | .drop, some c =>
      match c.phase with
      | .send fut _ => some { s.tear (s.midFrame c fut) with live := none }
      | _ => some { s with live := none }
  | .setResendTime _, some _ => none

end Req0

end NngCore.Ref
