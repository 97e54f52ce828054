import NngCore.Ref.Socket

/-!
# Request and reply over UDP (`src/transport/udp.rs`, `src/socket/reqrep0.rs`)

One `Rep0` server and any number of `Req0` clients on a network of datagrams.
A client's socket is connected to the server and hears nobody else; the
server's is not, and sends to whoever its last receive heard from. The network
keeps every datagram that was ever sent and hands out any of them to its
addressee at any time, which is loss, duplication, delay and reordering in
one.

What the system does with a datagram is assumed: a socket accepts payloads up to
the limit of its address family, and `recv_from` keeps of a datagram what the
buffer it was given holds. A client's socket is of the family of the address it
connects to, which is the server's. The clients of the other family that a server
may have beside them send and are sent less, and do nothing that these cannot.

A `Responder` borrows the server's socket, so between a receive and the reply
made from it there is no other receive: the server either waits for a request
or holds one responder. What the server keeps besides, for the statements, is
the datagram its responder came from, and for every reply made the datagram
and the reply.
-/

namespace NngCore.Ref

open NngCore.Lib

/-- `MAX_UDP_PAYLOAD`. -/
def maxUdpPayload : Nat := 65507

inductive IpFamily where
  | v4
  | v6
  deriving DecidableEq, Repr

/-- The largest payload a UDP socket of the family accepts. -/
def IpFamily.maxPayload : IpFamily → Nat
  | .v4 => 65507
  | .v6 => 65527

inductive Addr where
  | server
  | client (n : Nat)
  deriving DecidableEq, Repr

structure Datagram where
  src : Addr
  dst : Addr
  payload : List UInt8
  deriving DecidableEq

/-! ## The transport -/

/-- `UdpTransport`: the address the socket is connected to, if it is, and the
address last heard from. -/
structure UdpTransport where
  remote : Option Addr
  peer : Option Addr
  deriving DecidableEq

/-- `recv_from`: the buffer after it, and the length it returns. -/
def recvFrom (buf datagram : List UInt8) : List UInt8 × Nat :=
  let kept := datagram.take buf.length
  (overwrite buf 0 kept, kept.length)

namespace UdpTransport

def bind : UdpTransport := ⟨none, none⟩

def connect (remote : Addr) : UdpTransport := ⟨some remote, some remote⟩

/-- The error of a listener that has not heard from anybody. -/
def peerUnknownText : String :=
  "UDP send: peer address unknown — call recv() first on a listener"

/-- Where `send` sends to. -/
def dest (t : UdpTransport) : Except String Addr :=
  match t.remote, t.peer with
  | some r, _ => .ok r
  | none, some p => .ok p
  | none, none => .error peerUnknownText

/-- A connected socket is handed only what comes from its remote. -/
def hears (t : UdpTransport) (src : Addr) : Bool :=
  match t.remote with
  | some r => src = r
  | none => true

/-- `send` on a socket of a family, whose system call came back with `r`: what it
returns and the payload it sent. -/
def sendOn (t : UdpTransport) (family : IpFamily) (msg : Message) (r : Except String Unit) :
    Option (Except String Unit × List UInt8) :=
  match t.dest, r with
  | .error e, _ => some (.error e, [])
  | .ok _, .error e => some (.error e, [])
  | .ok _, .ok () =>
      let payload := msg.header ++ msg.body
      if payload.length ≤ family.maxPayload then some (.ok (), payload) else none

/-- `send`, for a socket bound to `self`: what it returns and what it put on the
network. -/
def send (t : UdpTransport) (self : Addr) (family : IpFamily) (msg : Message)
    (r : Except String Unit) : Option (Except String Unit × List Datagram) :=
  match t.dest, t.sendOn family msg r with
  | _, none => none
  | .ok dst, some (.ok (), payload) => some (.ok (), [⟨self, dst, payload⟩])
  | _, some (res, _) => some (res, [])

/-- The message `recv` makes of a datagram. -/
def recvDatagram (datagram : List UInt8) : Message :=
  let buf := List.replicate maxUdpPayload 0
  let (buf, len) := recvFrom buf datagram
  Message.new.pushBack (buf.take len)

/-- `recv`, handed a datagram. -/
def recv (t : UdpTransport) (d : Datagram) : Message × UdpTransport :=
  (recvDatagram d.payload, { t with peer := some d.src })

end UdpTransport

/-! ## The parties -/

/-- A live `request`: which request of the socket it is, and whether it has
been sent and now waits. -/
structure UdpCall where
  number : Nat
  outgoing : Message
  sentId : UInt32
  waiting : Bool
  deriving DecidableEq

structure UdpClient where
  transport : UdpTransport
  state : Req0State
  live : Option UdpCall
  issued : List Message
  returned : List (Nat × Except NngError Message)
  deriving DecidableEq

def UdpClient.dial : UdpClient := ⟨.connect .server, .new, none, [], []⟩

structure UdpServer where
  transport : UdpTransport
  responder : Option (RoutingInfo × Datagram)
  log : List (Datagram × Message)
  deriving DecidableEq

def UdpServer.listen : UdpServer := ⟨.bind, none, []⟩

structure UdpSystem where
  clients : Nat → UdpClient
  server : UdpServer
  net : List Datagram

def UdpSystem.start : UdpSystem := ⟨fun _ => .dial, .listen, []⟩

/-- The steps of client `c` and of the server. The `r` of `sent` and `reply` is
what the system call came back with; `deliver` and `receive` name one of the
datagrams sent so far. -/
inductive UdpAct where
  | call (c : Nat) (msg : Message)
  | sent (c : Nat) (r : Except String Unit)
  | deliver (c i : Nat)
  | failed (c : Nat) (e : String)
  | timeout (c : Nat)
  | drop (c : Nat)
  | receive (i : Nat)
  | reply (msg : Message) (r : Except String Unit)
  | discard

namespace UdpClient

def finish (cl : UdpClient) (call : UdpCall) (r : Except NngError Message) : UdpClient :=
  { cl with live := none, returned := cl.returned ++ [(call.number, r)] }

def call (cl : UdpClient) (msg : Message) : Option UdpClient :=
  match cl.live with
  | some _ => none
  | none =>
      match cl.state.prepareOutgoing msg with
      | none => none
      | some (id, outgoing, st) =>
          some { cl with
            state := st
            live := some ⟨cl.issued.length, outgoing, id, false⟩
            issued := cl.issued ++ [outgoing] }

/-- The send of the live call came back. -/
def sent (cl : UdpClient) (self : Addr) (family : IpFamily) (r : Except String Unit) :
    Option (UdpClient × List Datagram) :=
  match cl.live with
  | none => none
  | some c =>
      if c.waiting then none
      else
        match cl.transport.send self family c.outgoing r with
        | none => none
        | some (.ok (), ds) => some ({ cl with live := some { c with waiting := true } }, ds)
        | some (.error e, ds) => some (cl.finish c (.error (.io e)), ds)

/-- The receive of the live call came back with a datagram. -/
def deliver (cl : UdpClient) (d : Datagram) : Option UdpClient :=
  match cl.live with
  | none => none
  | some c =>
      if c.waiting && cl.transport.hears d.src then
        let (raw, transport) := cl.transport.recv d
        let cl := { cl with transport := transport }
        match cl.state.processIncoming raw c.sentId with
        | none => none
        | some (.ok (), reply) => some (cl.finish c (.ok reply))
        | some (.error (.idMismatch _ _), _) => some cl
        | some (.error .messageTooShort, _) =>
            some (cl.finish c (.error (.protocolViolation Req0.tooShortText)))
      else none

/-- The receive of the live call failed. -/
def failed (cl : UdpClient) (e : String) : Option UdpClient :=
  match cl.live with
  | none => none
  | some c => if c.waiting then some (cl.finish c (.error (.io e))) else none

def timeout (cl : UdpClient) : Option UdpClient :=
  match cl.live with
  | none => none
  | some c =>
      if c.waiting then some { cl with live := some { c with waiting := false } } else none

def drop (cl : UdpClient) : Option UdpClient :=
  match cl.live with
  | none => none
  | some _ => some { cl with live := none }

end UdpClient

namespace UdpServer

def receive (sv : UdpServer) (d : Datagram) : Option UdpServer :=
  match sv.responder with
  | some _ => none
  | none =>
      let (msg, transport) := sv.transport.recv d
      match Rep0State.processIncoming msg with
      | none => none
      | some (.ok routing, _) =>
          some { sv with transport := transport, responder := some (routing, d) }
      | some (.error _, _) => some { sv with transport := transport }

def reply (sv : UdpServer) (family : IpFamily) (msg : Message) (r : Except String Unit) :
    Option (UdpServer × List Datagram) :=
  match sv.responder with
  | none => none
  | some (routing, d) =>
      match Rep0State.prepareReply msg routing with
      | none => none
      | some outgoing =>
          match sv.transport.send .server family outgoing r with
          | none => none
          | some (_, ds) =>
              some ({ sv with responder := none, log := sv.log ++ [(d, msg)] }, ds)

end UdpServer

namespace UdpSystem

def setClient (s : UdpSystem) (c : Nat) (cl : UdpClient) : UdpSystem :=
  { s with clients := fun n => if n = c then cl else s.clients n }

def step (family : IpFamily) (s : UdpSystem) : UdpAct → Option UdpSystem
  | .call c msg => ((s.clients c).call msg).map (s.setClient c)
  | .sent c r =>
      match (s.clients c).sent (.client c) family r with
      | none => none
      | some (cl, ds) => some { s.setClient c cl with net := s.net ++ ds }
  | .deliver c i =>
      match s.net[i]? with
      | none => none
      | some d =>
          if d.dst = .client c then ((s.clients c).deliver d).map (s.setClient c) else none
  | .failed c e => ((s.clients c).failed e).map (s.setClient c)
  | .timeout c => (s.clients c).timeout.map (s.setClient c)
  | .drop c => (s.clients c).drop.map (s.setClient c)
  | .receive i =>
      match s.net[i]? with
      | none => none
      | some d =>
          if d.dst = .server then
            (s.server.receive d).map fun sv => { s with server := sv }
          else none
  | .reply msg r =>
      match s.server.reply family msg r with
      | none => none
      | some (sv, ds) => some { s with server := sv, net := s.net ++ ds }
  | .discard =>
      match s.server.responder with
      | none => none
      | some _ => some { s with server := { s.server with responder := none } }

end UdpSystem

end NngCore.Ref
