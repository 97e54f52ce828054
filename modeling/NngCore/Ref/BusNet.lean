import NngCore.Lib.Run
import NngCore.Ref.Hub
import NngCore.Ref.Sub0

/-!
# Buses connected to each other (`src/socket/bus0.rs`)

Any number of `Bus0` sockets and the connections between them. A connection is
a peer of the bus at either end; a `link` is one direction of it, with the peer
that writes, the peer that reads, and the receiving half of the reader's
transport. What is read on a link is a beginning of what was written on it.

`Ref.Hub` gives a peer with the results its polls will have. Here they are what
the receiving half of its link returned: a poll that comes back with a message
or an error comes back with the next of its results. The half may be ahead of
the polls, so a poll may also find nothing where there is something; a bus
that is polled at the right time is one of the runs.

All connections are framed streams. A `broadcast` runs to its end and is one step
of the net, as accepting is; the call that may be dropped is `recv_any`, at its
yield. A `broadcast` dropped inside a frame is in none of these runs.
-/

namespace NngCore.Ref

open NngCore.Lib

/-- Every peer a bus has admitted. -/
def Bus0.everyone (s : Bus0) : List Peer := s.hub.peers ++ s.lost ++ s.hub.dropped

/-- What the polls of a peer have returned, but for those that found nothing. -/
def Peer.handed (p : Peer) : List (Except NngError Message) :=
  (List.range p.polled).filterMap fun k =>
    match p.behaviour.polls k with
    | .pending => none
    | .ready r => some r

/-- One direction of a connection: peer `srcId` of bus `src` writes to it, and peer
`dstId` of bus `dst` reads from it. -/
structure BusLink where
  src : Nat
  srcId : Nat
  dst : Nat
  dstId : Nat
  conn : FramedConn

def BusLink.results (l : BusLink) : List (Except NngError Message) :=
  l.conn.recv.results.map (Except.mapError .ofTransport)

structure BusNet where
  buses : List Bus0
  links : List BusLink

inductive BusNetAct where
  | bus (n : Nat) (a : Bus0Act)
  | link (src srcId dst dstId : Nat)
  | receive (i : Nat) (a : RecvAct Unit)

namespace BusNet

def peer? (s : BusNet) (n id : Nat) : Option Peer :=
  match s.buses[n]? with
  | none => none
  | some b => b.everyone.find? fun p => p.id == id

/-- What was read on the link is a beginning of what was written. -/
def carries (s : BusNet) (l : BusLink) : Bool :=
  match s.peer? l.src l.srcId with
  | none => false
  | some p => l.conn.took.isPrefixOf p.wire

/-- What the polls of the link's reader returned is what the link had for them. -/
def hands (s : BusNet) (l : BusLink) : Bool :=
  match s.peer? l.dst l.dstId with
  | none => false
  | some q => q.handed.isPrefixOf l.results

def connect (s : BusNet) (src srcId dst dstId : Nat) : Option BusNet :=
  match s.peer? src srcId, s.peer? dst dstId with
  | some p, some q =>
      let l : BusLink := ⟨src, srcId, dst, dstId, .fresh⟩
      if p.behaviour.fmt = q.behaviour.fmt ∧ s.hands l then
        some { s with links := s.links ++ [l] }
      else none
  | _, _ => none

variable (w : PointerWidth)

def step (s : BusNet) : BusNetAct → Option BusNet
  | .bus n a =>
      match s.buses[n]? with
      | none => none
      | some b =>
          match b.step a with
          | none => none
          | some b =>
              let t := { s with buses := s.buses.set n b }
              if t.links.all fun l => l.dst != n || t.hands l then some t else none
  | .link src srcId dst dstId => s.connect src srcId dst dstId
  | .receive i a =>
      match s.links[i]? with
      | none => none
      | some l =>
          match s.peer? l.dst l.dstId with
          | none => none
          | some q =>
              match l.conn.step w q.behaviour.fmt a with
              | none => none
              | some c =>
                  let l := { l with conn := c }
                  if s.carries l then some { s with links := s.links.set i l } else none

end BusNet

end NngCore.Ref
