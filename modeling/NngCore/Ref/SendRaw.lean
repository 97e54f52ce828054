import NngCore.Ref.Socket

/-!
# One raw send (`Socket::send_raw` in `src/socket.rs`)

`send_raw` sends on the transport the socket holds. If that fails and the
socket was told to reconnect, it redials, puts the new transport in the place
of the old one and sends the whole message again; the failure of the second
send is returned, and if no redial gets through, so is that of the first.

The call is one future. It stops in a write, in the pause before a redial and
in the redial itself, and a step is what comes back there. A write that
reports an error has accepted nothing. For the statements the state keeps, of
every connection the socket held during the call, the bytes written on it and
those among them that this call wrote; the connections given up come first.
-/

namespace NngCore.Ref

open NngCore.Lib

/-- A framed connection after its handshake. `since` is the end of `wire` that
the live call wrote. -/
structure RawConn where
  fmt : FrameFormat
  wire : List UInt8
  since : List UInt8
  deriving DecidableEq

def RawConn.fresh (fmt : FrameFormat) : RawConn := ⟨fmt, [], []⟩

def RawConn.write (c : RawConn) (bs : List UInt8) : RawConn :=
  { c with wire := c.wire ++ bs, since := c.since ++ bs }

/-- Where a `send_raw` future stands. `retry` says that the socket was redialled
already. -/
inductive RawPhase where
  | send (fut : SendFut) (retry : Bool)
  | redial (cause : NngError) (r : Redial)
  | done (r : Except NngError Unit)
  | panicked
  deriving DecidableEq

structure SendRaw where
  msg : Message
  dialAddr : Option String
  reconnect : Option ReconnectOptions
  conn : RawConn
  past : List RawConn
  phase : RawPhase
  deriving DecidableEq

/-- `dialed none` is a failed attempt of `connect_transport`. -/
inductive RawAct where
  | write (r : WriteResult)
  | slept
  | dialed (fmt : Option FrameFormat)
  deriving DecidableEq

namespace SendRaw

def await (s : SendRaw) (p : RawPhase) : SendRaw := { s with phase := p }

/-- A send has failed. `do_reconnect` fails at once without an address to dial,
and its failure is not the one returned. -/
def failed (s : SendRaw) (retry : Bool) (e : NngError) : SendRaw :=
  match retry, s.reconnect, s.dialAddr with
  | false, some opts, some _ => s.await (.redial e (.start opts))
  | _, _, _ => s.await (.done (.error e))

/-- Where `send_raw` stands after a piece of `send`. -/
def settle (s : SendRaw) (retry : Bool) : SendPoll → SendRaw
  | .pending fut => s.await (.send fut retry)
  | .ready (.ok ()) => s.await (.done (.ok ()))
  | .ready (.error e) => s.failed retry (.ofTransport e)

def startSend (s : SendRaw) (retry : Bool) : SendRaw :=
  s.settle retry (sendStart s.conn.fmt s.msg)

/-- `send_raw(msg)` up to its first await, on a socket with these fields. -/
def call (msg : Message) (dialAddr : Option String) (reconnect : Option ReconnectOptions)
    (fmt : FrameFormat) (wire : List UInt8) : SendRaw :=
  -- the phase is set by `startSend`
  startSend ⟨msg, dialAddr, reconnect, ⟨fmt, wire, []⟩, [], .panicked⟩ false

/-- A write came back. It never accepts more than it was offered. -/
def written (s : SendRaw) (fut : SendFut) (retry : Bool) : WriteResult → Option SendRaw
  | .ok n =>
      if n ≤ fut.offered.length then
        some ({ s with conn := s.conn.write (fut.offered.take n) }.settle retry
          (fut.resume (.ok n)))
      else none
  | .err e => some (s.settle retry (fut.resume (.err e)))

/-- An attempt of `connect_transport` came back. -/
def dialDone (s : SendRaw) (cause : NngError) (r : Redial) :
    Option FrameFormat → Option SendRaw
  | some fmt =>
      some ({ s with conn := .fresh fmt, past := s.past ++ [s.conn] }.startSend true)
  | none =>
      match s.reconnect with
      | none => none
      | some opts =>
          match r.failed opts with
          | .again r => some (s.await (.redial cause r))
          | .exhausted => some (s.await (.done (.error cause)))
          | .panicked => some (s.await .panicked)

def step (s : SendRaw) (a : RawAct) : Option SendRaw :=
  match a, s.phase with
  | .write r, .send fut retry => s.written fut retry r
  | .slept, .redial cause r =>
      if r.dialing then none
      else some (s.await (.redial cause { r with dialing := true }))
  | .dialed fmt, .redial cause r => if r.dialing then s.dialDone cause r fmt else none
  | _, _ => none

/-- What the call returned, once it has. -/
def returned (s : SendRaw) : Option (Except NngError Unit) :=
  match s.phase with
  | .done r => some r
  | _ => none

end SendRaw

end NngCore.Ref
