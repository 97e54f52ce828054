import NngCore.Lib.Matching
import NngCore.Ref.SendSide
import NngCore.Ref.Sub0

/-!
# Sockets with one connection (`Socket<P>` in `src/socket.rs`)

`Pair0::send` and `Pair0::recv` are `send_raw` and `recv_raw` of one socket, and
`Push0` and `Pull0` have one of the two each. Both borrow the socket, so its calls
come one after the other. A call that fails on a socket that was told to reconnect
redials once and is made again on the new connection, which has both halves new:
what was left of a frame in either direction stays behind with the old one.

Between the sockets are framed connections. An end of one is a connection of a
socket; the network says which end is at the other side of which (`connect`), and
what is read at an end is a beginning of what was written at the other.
-/

namespace NngCore.Ref

open NngCore.Lib

/-! ## A socket -/

/-- Where a `recv_raw` future stands: in the read of `recv`, or in the redial loop.
`retry` says that the socket was redialled already. -/
inductive RecvRaw where
  | read (retry : Bool)
  | redial (cause : NngError) (r : Redial)

/-- `past` and `conn` are the receiving halves of the connections of `out`. -/
structure RawSocket where
  out : SendSide
  past : List FramedConn
  conn : FramedConn
  live : Option RecvRaw
  returned : List (Except NngError Message)
  panicked : Bool

inductive RawSocketAct where
  | send (a : SendSideAct)
  | recv
  | read (r : ReadResult)
  | slept
  | dialed (fmt : Option FrameFormat)
  | drop

namespace RawSocket

def connected (dialAddr : Option String) (reconnect : Option ReconnectOptions)
    (fmt : FrameFormat) : RawSocket :=
  ⟨.connected dialAddr reconnect fmt, [], .fresh, none, [], false⟩

/-- The receiving halves of all connections the socket has had. -/
def conns (s : RawSocket) : List FramedConn := s.past ++ [s.conn]

def fmt (s : RawSocket) : FrameFormat := s.out.held.conn.fmt

def finish (s : RawSocket) (r : Except NngError Message) : RawSocket :=
  { s with live := none, returned := s.returned ++ [r] }

def die (s : RawSocket) : RawSocket := { s with live := none, panicked := true }

/-- `recv` has returned. `do_reconnect` fails at once without an address to dial, and
its failure is not the one returned. -/
def received (s : RawSocket) (retry : Bool) : Except NngError Message → RawSocket
  | .ok msg => s.finish (.ok msg)
  | .error e =>
      match retry, s.out.reconnect, s.out.dialAddr with
      | false, some opts, some _ => { s with live := some (.redial e (.start opts)) }
      | _, _, _ => s.finish (.error e)

/-- `recv` ran to its await, or to its end with one more result. -/
def settle (s : RawSocket) (retry : Bool) (conn : FramedConn) : RawSocket :=
  let s := { s with conn := conn }
  if conn.recv.panicked then s.die
  else
    match conn.recv.live, conn.recv.results.getLast? with
    | none, some r => s.received retry (r.mapError .ofTransport)
    | _, _ => { s with live := some (.read retry) }

/-- A send has come to `out`; if it has redialled, the receiving half is new too. -/
def sent (s : RawSocket) (out : SendSide) : RawSocket :=
  if out.past.length = s.out.past.length then { s with out := out }
  else { s with out := out, past := s.past ++ [s.conn], conn := .fresh }

/-- The redial has got through. -/
def replace (s : RawSocket) (fmt : FrameFormat) : RawSocket :=
  { s with out := s.out.replace fmt, past := s.past ++ [s.conn], conn := .fresh }

variable (w : PointerWidth)

/-- `recv` is called. -/
def startRecv (s : RawSocket) (retry : Bool) : Option RawSocket :=
  (s.conn.step w s.fmt (.call ())).map (s.settle retry)

/-- An attempt of `connect_transport` came back. -/
def dialDone (s : RawSocket) (cause : NngError) (r : Redial) :
    Option FrameFormat → Option RawSocket
  | some fmt => (s.replace fmt).startRecv w true
  | none =>
      match s.out.reconnect with
      | none => none
      | some opts =>
          match r.failed opts with
          | .again r => some { s with live := some (.redial cause r) }
          | .exhausted => some (s.finish (.error cause))
          | .panicked => some s.die

def step (s : RawSocket) (a : RawSocketAct) : Option RawSocket :=
  match a, s.live with
  | .send a, none => if s.panicked then none else (s.out.step a).map s.sent
  | .recv, none =>
      if s.panicked || s.out.live.isSome then none else s.startRecv w false
  | .read r, some (.read retry) => (s.conn.step w s.fmt (.read r)).map (s.settle retry)
  | .slept, some (.redial cause r) =>
      if r.dialing then none
      else some { s with live := some (.redial cause { r with dialing := true }) }
  | .dialed fmt, some (.redial cause r) =>
      if r.dialing then s.dialDone w cause r fmt else none
  | .drop, some (.read _) =>
      (s.conn.step w s.fmt .drop).map fun conn => { s with conn := conn, live := none }
  | .drop, some (.redial _ _) => some { s with live := none }
  | _, _ => none

end RawSocket

/-! ## Sockets and the connections between them -/

/-- A connection of a socket: the socket, and which of its connections it is. -/
abbrev LineEnd := Nat × Nat

structure RawNet where
  socks : List RawSocket
  wires : List (LineEnd × LineEnd)

inductive RawNetAct where
  | sock (p : Nat) (a : RawSocketAct)
  | connect (e f : LineEnd)

namespace RawNet

/-- The sockets are there, and nothing has reached the other side yet. -/
def start (socks : List RawSocket) : RawNet := ⟨socks, []⟩

def line? (s : RawNet) (e : LineEnd) : Option SendLine :=
  (s.socks[e.1]?).bind fun v => v.out.lines[e.2]?

def conn? (s : RawNet) (e : LineEnd) : Option FramedConn :=
  (s.socks[e.1]?).bind fun v => v.conns[e.2]?

def ends (s : RawNet) : List LineEnd := Matching.ends s.wires

/-- The other end, if there is one yet. -/
def far (s : RawNet) (e : LineEnd) : Option LineEnd := Matching.partner s.wires e

/-- What was written at the other end. -/
def farWire (s : RawNet) (e : LineEnd) : List UInt8 :=
  match (s.far e).bind s.line? with
  | none => []
  | some line => line.conn.wire

/-- What was read at an end is a beginning of what was written at the other. -/
def carries (s : RawNet) (e : LineEnd) : Bool :=
  match s.conn? e with
  | none => true
  | some c => c.took.isPrefixOf (s.farWire e)

/-- Two ends that were no one's yet become the ends of one connection. -/
def connect (s : RawNet) (e f : LineEnd) : Option RawNet :=
  match s.line? e, s.line? f with
  | some l, some m =>
      if (s.far e).isSome || (s.far f).isSome then none
      else if e = f then none
      else if l.conn.fmt = m.conn.fmt then some { s with wires := s.wires ++ [(e, f)] }
      else none
  | _, _ => none

def step (w : PointerWidth) (s : RawNet) : RawNetAct → Option RawNet
  | .sock p a =>
      match s.socks[p]? with
      | none => none
      | some v =>
          match v.step w a with
          | none => none
          | some v =>
              let t := { s with socks := s.socks.set p v }
              if t.carries (p, v.past.length) then some t else none
  | .connect e f => s.connect e f

end RawNet

end NngCore.Ref
