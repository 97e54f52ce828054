import NngCore.Ref.Accept
import NngCore.Ref.Hub

/-!
# The loops that take peers in (`src/socket.rs` and the sockets with many peers)

There are two of them. `accept_pending` of `Bus0` and `Surveyor0` and
`drain_incoming` of `Pub0` take what is in the listener's queue and stop: only
`accept_raw` stands in their `select!`, and the handshake runs outside of it.
`listen_and_accept` of `Bus0` and `Push0Fan`, `wait_for_subscribers` and
`wait_for_respondents` call `accept_as_transport` until there are `n` peers.

`Ref.Hub` has both as one step on a list of attempts. Here they are taken await
by await: connections arrive while a handshake is under way, handshakes below
the SP one and the SP handshake itself stop anywhere, and a call may be dropped
in any of its awaits. Between `accept_raw` and `into_transport` there is no
await, and none before the first `accept_raw`.

Connections are numbered in the order they leave the queue; `behave` says what
the stream of each will do once it is a peer. Kept for the statements: what came
of each attempt of the call, and the vector and the count at its beginning.
-/

namespace NngCore.Ref

open NngCore.Lib

inductive JoinLoop where
  | pending
  | upTo (n : Nat)
  deriving DecidableEq

/-- What came of one round of a loop. -/
inductive Attempt where
  | acceptFailed
  | nodelayFailed (conn : Nat)
  | refused (conn : Nat)
  | joined (conn : Nat)
  deriving DecidableEq

/-- Where a call stands: about to poll `accept_raw`, in the accept of
`accept_as_transport`, or bringing up a connection. -/
inductive JoinFut where
  | polling
  | accepting
  | lower (conn : Nat) (now : LowerHandshake) (rest : List LowerHandshake)
  | connecting (conn : Nat) (fut : ConnectFut)
  deriving DecidableEq

def JoinFut.conn : JoinFut → Option Nat
  | .polling => none
  | .accepting => none
  | .lower conn _ _ => some conn
  | .connecting conn _ => some conn

/-- The last call: whether it is over, and what it was dropped with. -/
inductive JoinPhase where
  | returned
  | dropped (lost : Option Nat)
  | running (fut : JoinFut)
  deriving DecidableEq

structure JoinSocket where
  proto : ProtocolId
  listener : AnyListener
  hub : Hub
  queued : Nat
  popped : Nat
  loop : JoinLoop
  phase : JoinPhase
  log : List Attempt
  hubAt : Hub
  poppedAt : Nat

/-- `idle` is the other branch of the `select!`; `meanwhile` is all a socket does
between two calls. -/
inductive JoinAct where
  | arrive
  | meanwhile (hub : Hub)
  | call (loop : JoinLoop)
  | idle
  | accepted (nodelay : Except String Unit)
  | acceptFailed
  | lowered (r : Except NngError Unit)
  | written (r : WriteResult)
  | got (r : ReadResult)
  | drop

namespace JoinSocket

/-- A listener that is bound, with the peers of `hub`. -/
def bound (proto : ProtocolId) (listener : AnyListener) (hub : Hub) : JoinSocket :=
  ⟨proto, listener, hub, 0, 0, .pending, .returned, [], hub, 0⟩

/-- A call, up to its first await or poll. -/
def begin (s : JoinSocket) (loop : JoinLoop) : JoinSocket :=
  { s with
    loop := loop
    log := []
    hubAt := s.hub
    poppedAt := s.popped
    phase :=
      match loop with
      | .pending => .running .polling
      | .upTo n => if s.hub.peers.length < n then .running .accepting else .returned }

variable (behave : Nat → Behaviour)

/-- The end of a round. An error of `accept_raw` ends the first loop, an error of
`accept_as_transport` does not end the second. -/
def next (s : JoinSocket) (a : Attempt) : JoinSocket :=
  let hub :=
    match a with
    | .joined conn => s.hub.push (behave conn)
    | _ => s.hub
  { s with
    hub := hub
    log := s.log ++ [a]
    phase :=
      match s.loop, a with
      | .pending, .acceptFailed => .returned
      | .pending, .nodelayFailed _ => .returned
      | .pending, _ => .running .polling
      | .upTo n, _ => if hub.peers.length < n then .running .accepting else .returned }

def settle (s : JoinSocket) (conn : Nat) : ConnectPoll → JoinSocket
  | .pending fut => { s with phase := .running (.connecting conn fut) }
  | .ready (.ok ()) => s.next behave (.joined conn)
  | .ready (.error _) => s.next behave (.refused conn)

/-- `into_transport`, and `accept_as_transport` behind its accept, with these
handshakes still to come. -/
def bringUp (s : JoinSocket) (conn : Nat) : List LowerHandshake → JoinSocket
  | now :: rest => { s with phase := .running (.lower conn now rest) }
  | [] =>
      if s.listener.framed then s.settle behave conn (connectStart s.proto)
      else s.next behave (.joined conn)

/-- A connection leaves the queue. Only the TCP arms set `nodelay`. -/
def pop (s : JoinSocket) (nodelay : Except String Unit) : JoinSocket :=
  let conn := s.popped
  let taken := { s with queued := s.queued - 1, popped := s.popped + 1 }
  match nodelay with
  | .ok () => taken.bringUp behave conn s.listener.lower
  | .error _ =>
      if s.listener = .tcp then taken.next behave (.nodelayFailed conn)
      else taken.bringUp behave conn s.listener.lower

/-- `accept_raw` of a QUIC listener fails at once. The vector of a
`listen_and_accept` is its own, and a dropped one takes it along; what `hub` is
after a drop is what that vector was, and `meanwhile` what the next socket has. -/
def step (s : JoinSocket) (a : JoinAct) : Option JoinSocket :=
  match a, s.phase with
  | .arrive, _ => some { s with queued := s.queued + 1 }
  | .meanwhile _, .running _ => none
  | .meanwhile hub, _ =>
      some { s.begin .pending with hub := hub, hubAt := hub, phase := .returned }
  | .call _, .running _ => none
  | .call loop, _ => some (s.begin loop)
  | .idle, .running .polling =>
      if s.listener = .quic then none else some { s with phase := .returned }
  | .accepted nodelay, .running .polling =>
      if s.listener = .quic ∨ s.queued = 0 then none else some (s.pop behave nodelay)
  | .accepted nodelay, .running .accepting =>
      if s.queued = 0 then none else some (s.pop behave nodelay)
  | .acceptFailed, .running .polling => some (s.next behave .acceptFailed)
  | .acceptFailed, .running .accepting => some (s.next behave .acceptFailed)
  | .lowered (.ok ()), .running (.lower conn _ rest) => some (s.bringUp behave conn rest)
  | .lowered (.error _), .running (.lower conn _ _) => some (s.next behave (.refused conn))
  | .written r, .running (.connecting conn (.writing k)) =>
      some (s.settle behave conn (connectWritten s.proto k r))
  | .got r, .running (.connecting conn (.reading rx read)) =>
      some (s.settle behave conn (connectGot s.proto rx read r))
  | .drop, .running .polling => none
  | .drop, .running fut => some { s with phase := .dropped fut.conn }
  | _, _ => none

end JoinSocket

end NngCore.Ref
