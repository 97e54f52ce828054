import NngCore.Lib.Channel
import NngCore.Lib.Sweep
import NngCore.Ref.Socket

/-!
# Sockets with many peers (`src/socket/bus0.rs`, `Pub0` in `src/socket/pubsub0.rs`)

`Bus0` and `Pub0` keep a vector of transports. Sending goes through the vector
and drops the peers whose send fails; `recv_any` goes through it too, polls
each peer once and drops those that fail. Both put the last element in the
place of one that goes.

What a peer's stream does is up to the peer: the results of the writes made on
it, one after the other, and the results of the polls of its receives. A peer
is given with both, and they may be anything, except that a write does not
accept more than it was offered. A receive that was polled without result is
dropped by the `select!` around it, and the next poll goes on where that one
stopped; what the results are made of is `Ref.Transport`'s business.

A call of `recv_any` stops where it yields, between two passes, and may be
dropped there; as long as it lives it borrows the socket. The other calls run
to their end.

Kept for the statements alone: the number a peer was admitted under, how many
messages had been sent before, what it was sent and what of it was written,
the peers that went, and which peer a returned message came from.
-/

namespace NngCore.Ref

open NngCore.Lib

/-! ## Peers -/

/-- What the stream of a peer will do. -/
structure Behaviour where
  fmt : FrameFormat
  writes : Nat → WriteResult
  polls : Nat → Poll (Except NngError Message)

structure Peer where
  behaviour : Behaviour
  written : Nat
  polled : Nat
  id : Nat
  since : Nat
  attempts : List Message
  wire : List UInt8

namespace Peer

def admitted (b : Behaviour) (id since : Nat) : Peer := ⟨b, 0, 0, id, since, [], []⟩

/-- The next write, of the bytes `offered`. -/
def write (p : Peer) (offered : List UInt8) : WriteResult × Peer :=
  match p.behaviour.writes p.written with
  | .ok n =>
      let n := min n offered.length
      (.ok n, { p with written := p.written + 1, wire := p.wire ++ offered.take n })
  | .err e => (.err e, { p with written := p.written + 1 })

/-- `FramedTransport::send` from one of its awaits on. Every write but the last
takes a byte, so `fuel` is the number of bytes left. -/
def sendLoop : Nat → SendPoll → Peer → Except NngError Unit × Peer
  | _, .ready r, p => (r.mapError .ofTransport, p)
  | 0, .pending _, p => (.error .connectionClosed, p)
  | fuel + 1, .pending fut, p =>
      let (r, p) := p.write fut.offered
      sendLoop fuel (fut.resume r) p

def send (p : Peer) (msg : Message) : Except NngError Unit × Peer :=
  sendLoop (frameBytes p.behaviour.fmt msg).length (sendStart p.behaviour.fmt msg)
    { p with attempts := p.attempts ++ [msg] }

/-- One poll of `recv`. -/
def poll (p : Peer) : Poll (Except NngError Message) × Peer :=
  (p.behaviour.polls p.polled, { p with polled := p.polled + 1 })

end Peer

/-! ## The vector of peers -/

structure Hub where
  peers : List Peer
  admitted : Nat
  sent : List Message
  dropped : List Peer

/-- What came out of an attempt to accept: `accept_raw` failed, the handshake
did, or a peer is there. -/
inductive Accepted where
  | failed
  | refused
  | peer (b : Behaviour)

namespace Hub

def empty : Hub := ⟨[], 0, [], []⟩

def push (h : Hub) (b : Behaviour) : Hub :=
  { h with
    peers := h.peers ++ [.admitted b h.admitted h.sent.length]
    admitted := h.admitted + 1 }

/-- The loop of `accept_pending` and `drain_incoming`, on what is in the accept
queue: it ends when the queue is empty. -/
def acceptPending (h : Hub) : List Accepted → Hub
  | [] => h
  | .failed :: _ => h
  | .refused :: queue => h.acceptPending queue
  | .peer b :: queue => (h.push b).acceptPending queue

/-- The loop of `listen_and_accept` and `wait_for_subscribers`, on the attempts
it makes; nothing while it still waits. -/
def acceptUntil (h : Hub) (n : Nat) : List Accepted → Option Hub
  | [] => if h.peers.length < n then none else some h
  | a :: attempts =>
      if h.peers.length < n then
        match a with
        | .peer b => (h.push b).acceptUntil n attempts
        | _ => h.acceptUntil n attempts
      else some h

/-- A send to one peer, and what becomes of it. -/
def visit (msg : Message) (p : Peer) : Visit Peer Unit :=
  match p.send msg with
  | (.error _, p) => .remove p
  | (.ok (), p) => .keep p

/-- The loop of `broadcast` and `publish`. -/
def sendAll (h : Hub) (msg : Message) : Hub :=
  let out := sweep (visit msg) h.peers.length 0 h.peers
  { h with
    peers := out.list
    sent := h.sent ++ [msg]
    dropped := h.dropped ++ out.gone }

end Hub

/-! ## `Pub0` -/

structure Pub0 where
  subscribers : Hub

inductive Pub0Act where
  | waitForSubscribers (n : Nat) (attempts : List Accepted)
  | publish (queue : List Accepted) (msg : Message)

namespace Pub0

def listen : Pub0 := ⟨.empty⟩

def publish (s : Pub0) (queue : List Accepted) (msg : Message) : Pub0 :=
  ⟨(s.subscribers.acceptPending queue).sendAll msg⟩

def step (s : Pub0) : Pub0Act → Option Pub0
  | .waitForSubscribers n attempts => (s.subscribers.acceptUntil n attempts).map .mk
  | .publish queue msg => some (s.publish queue msg)

end Pub0

/-! ## `Bus0` -/

/-- `live` says that a `recv_any` stands at its yield. -/
structure Bus0 where
  listener : Bool
  hub : Hub
  lost : List Peer
  live : Bool
  returned : List (Nat × Message)
  results : List (Except NngError Message)

inductive Bus0Act where
  | addPeer (b : Behaviour)
  | acceptPending (queue : List Accepted)
  | broadcast (msg : Message)
  | recvAny
  | resume
  | drop

namespace Bus0

def ofHub (listener : Bool) (hub : Hub) : Bus0 := ⟨listener, hub, [], false, [], []⟩

def listenAndAccept (n : Nat) (attempts : List Accepted) : Option Bus0 :=
  (Hub.empty.acceptUntil n attempts).map (ofHub true)

def dial (b : Behaviour) : Bus0 := ofHub false (Hub.empty.push b)

def bind : Bus0 := ofHub false .empty

def acceptPending (s : Bus0) (queue : List Accepted) : Bus0 :=
  if s.listener then { s with hub := s.hub.acceptPending queue } else s

/-- A poll of one peer in `recv_any`, and what becomes of it. -/
def visit (p : Peer) : Visit Peer (Nat × Message) :=
  match p.poll with
  | (.ready (.ok msg), p) => .stop p (p.id, msg)
  | (.ready (.error _), p) => .remove p
  | (.pending, p) => .keep p

/-- `recv_any` from the head of its loop to its yield or its return. -/
def pass (s : Bus0) : Bus0 :=
  match s.hub.peers with
  | [] => { s with live := false, results := s.results ++ [.error .noPeers] }
  | _ =>
      let out := sweep visit s.hub.peers.length 0 s.hub.peers
      let s := { s with hub := { s.hub with peers := out.list }, lost := s.lost ++ out.gone }
      match out.result with
      | some (i, msg) =>
          { s with
            live := false
            returned := s.returned ++ [(i, msg)]
            results := s.results ++ [.ok msg] }
      | none => { s with live := true }

def step (s : Bus0) (a : Bus0Act) : Option Bus0 :=
  match s.live, a with
  | false, .addPeer b => some { s with hub := s.hub.push b }
  | false, .acceptPending queue => some (s.acceptPending queue)
  | false, .broadcast msg => some { s with hub := s.hub.sendAll msg }
  | false, .recvAny => some s.pass
  | true, .resume => some s.pass
  | true, .drop => some { s with live := false }
  | _, _ => none

end Bus0

end NngCore.Ref
