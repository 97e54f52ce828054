import NngCore.Lib.Run
import NngCore.Ref.Handshake
import NngCore.Ref.Socket

/-!
# Accepting connections (`AcceptStream::accept`, `src/socket.rs`)

The accept streams of `Bus0`, `Surveyor0` and `Pull0Fan` are one listener and
one function, `accept_as_transport`, called with the socket's own protocol. It
takes a connection out of the listener's queue and then brings it up: through
TLS, a WebSocket upgrade or the first messages of QUIC, whatever the listener
is for, and in the end through `connect`, unless the upgrade stands for it.
Every one of these is an await, and at every one of them the caller may drop
the future. Everything the future has is a local variable of it.

What other crates do between two awaits (`TlsAcceptor::accept`, the upgrade,
QUIC's own handshake) is their business; here they come back with a result.
Connections are numbered in the order they leave the queue. For the statements
the stream keeps which of them an `accept` returned and which of them failed.
-/

namespace NngCore.Ref

open NngCore.Lib

/-- The sockets that have an accept stream. -/
inductive AcceptSocket where
  | bus0
  | surveyor0
  | pull0Fan
  deriving DecidableEq, Repr

/-- The protocol `accept` hands to `accept_as_transport`. -/
def AcceptSocket.proto : AcceptSocket → ProtocolId
  | .bus0 => .bus0
  | .surveyor0 => .surveyor0
  | .pull0Fan => .pull0

/-- `AnyListener`. -/
inductive AnyListener where
  | tcp
  | ipc
  | ipc2
  | ws
  | wss
  | tlsTcp
  | quic
  | vsock
  | kcp
  deriving DecidableEq, Repr

/-- A handshake below the SP one, awaited in another crate. -/
inductive LowerHandshake where
  | tls
  | upgrade
  | quicIncoming
  | quicAcceptBi
  deriving DecidableEq, Repr

/-- What `accept_as_transport` awaits after the accept and before `connect`. -/
def AnyListener.lower : AnyListener → List LowerHandshake
  | .tcp => []
  | .ipc => []
  | .ipc2 => []
  | .ws => [.upgrade]
  | .wss => [.tls, .upgrade]
  | .tlsTcp => [.tls]
  | .quic => [.quicIncoming, .quicAcceptBi]
  | .vsock => []
  | .kcp => []

/-- The connection goes through `connect_framed` in the end. -/
def AnyListener.framed : AnyListener → Bool
  | .ws => false
  | .wss => false
  | _ => true

/-- An `accept` future at one of its awaits: in the listener's own accept, or
bringing up connection `conn`. -/
inductive AcceptFut where
  | accepting
  | lower (conn : Nat) (now : LowerHandshake) (rest : List LowerHandshake)
  | connecting (conn : Nat) (fut : ConnectFut)
  deriving DecidableEq

structure AcceptStream where
  socket : AcceptSocket
  listener : AnyListener
  queued : Nat
  popped : Nat
  live : Option AcceptFut
  returned : List Nat
  failed : List (Nat × NngError)
  deriving DecidableEq

/-- `accepted` is the listener's accept coming back, with what `set_nodelay` says
of the connection; `acceptFailed` is that accept failing. -/
inductive AcceptAct where
  | arrive
  | call
  | accepted (nodelay : Except String Unit)
  | acceptFailed
  | lowered (r : Except NngError Unit)
  | written (r : WriteResult)
  | got (r : ReadResult)
  | drop
  deriving DecidableEq

namespace AcceptStream

def bind (socket : AcceptSocket) (listener : AnyListener) : AcceptStream :=
  ⟨socket, listener, 0, 0, none, [], []⟩

/-- The call returns the connection. -/
def finish (s : AcceptStream) (conn : Nat) : AcceptStream :=
  { s with live := none, returned := s.returned ++ [conn] }

/-- The call returns an error, and the connection is dropped with it. -/
def fail (s : AcceptStream) (conn : Nat) (e : NngError) : AcceptStream :=
  { s with live := none, failed := s.failed ++ [(conn, e)] }

/-- Where the call stands after a piece of `connect`. -/
def settle (s : AcceptStream) (conn : Nat) : ConnectPoll → AcceptStream
  | .pending fut => { s with live := some (.connecting conn fut) }
  | .ready (.ok ()) => s.finish conn
  | .ready (.error e) => s.fail conn (.ofTransport e)

/-- The rest of `accept_as_transport`, with these handshakes still to come. -/
def bringUp (s : AcceptStream) (conn : Nat) : List LowerHandshake → AcceptStream
  | now :: rest => { s with live := some (.lower conn now rest) }
  | [] =>
      if s.listener.framed then s.settle conn (connectStart s.socket.proto)
      else s.finish conn

/-- A connection leaves the queue. Only the TCP arm sets `nodelay`. -/
def pop (s : AcceptStream) (nodelay : Except String Unit) : AcceptStream :=
  let conn := s.popped
  let taken := { s with queued := s.queued - 1, popped := s.popped + 1 }
  match nodelay with
  | .ok () => taken.bringUp conn s.listener.lower
  | .error e =>
      if s.listener = .tcp then taken.fail conn (.io e)
      else taken.bringUp conn s.listener.lower

def step (s : AcceptStream) (a : AcceptAct) : Option AcceptStream :=
  match a, s.live with
  | .arrive, _ => some { s with queued := s.queued + 1 }
  | .call, none => some { s with live := some .accepting }
  | .accepted nodelay, some .accepting => if s.queued = 0 then none else some (s.pop nodelay)
  | .acceptFailed, some .accepting => some { s with live := none }
  | .lowered (.ok ()), some (.lower conn _ rest) => some (s.bringUp conn rest)
  | .lowered (.error e), some (.lower conn _ _) => some (s.fail conn e)
  | .written r, some (.connecting conn (.writing k)) =>
      some (s.settle conn (connectWritten s.socket.proto k r))
  | .got r, some (.connecting conn (.reading rx read)) =>
      some (s.settle conn (connectGot s.socket.proto rx read r))
  | .drop, some _ => some { s with live := none }
  | _, _ => none

end AcceptStream

end NngCore.Ref
