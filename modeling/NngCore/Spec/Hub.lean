import NngCore.Lib.Interleave
import NngCore.Lib.Run
import NngCore.Ref.Hub

/-!
# What a socket with many peers owes them

To its peers, as a sender: every message sent since a peer joined, once and in
order, for as long as the peer is in the vector; and a peer is in the vector as
long as its sends succeed.

To its caller, as a receiver: the messages its peers' polls gave, each once and
those of one peer in order; and a peer is given up when one of its polls
failed, not before.

The vector is reordered when a peer goes, so neither says anything about the
order of the peers.
-/

namespace NngCore.Spec

open NngCore.Lib NngCore.Ref

/-- A bus as its constructors make it. -/
def BusStarted (s : Bus0) : Prop :=
  (∃ n attempts, Bus0.listenAndAccept n attempts = some s) ∨ (∃ b, s = .dial b) ∨ s = .bind

/-! ## Sending -/

/-- The peer after one send of `msg`. -/
def sentTo (msg : Message) (p : Peer) : Peer := (p.send msg).2

def accepts (msg : Message) (p : Peer) : Bool := (p.send msg).1.isOk

/-- One loop of sends: every peer of `h` was sent `msg` once, and those that
accepted it are the ones kept. -/
structure OneSendEach (msg : Message) (h h' : Hub) : Prop where
  attempted : (h'.peers ++ h'.dropped).Perm (h.peers.map (sentTo msg) ++ h.dropped)
  kept : h'.peers.Perm ((h.peers.filter (accepts msg)).map (sentTo msg))
  logged : ∀ p, (sentTo msg p).attempts = p.attempts ++ [msg]

/-- Every peer kept was sent what was sent since it joined, and has it. -/
structure InOrder (h : Hub) : Prop where
  attempts : ∀ p ∈ h.peers, p.attempts = h.sent.drop p.since
  wires : ∀ p ∈ h.peers, p.wire = (h.sent.drop p.since).flatMap (frameBytes p.behaviour.fmt)
  dropped : ∀ p ∈ h.dropped, p.attempts <+: h.sent.drop p.since

/-! ## Receiving -/

/-- The poll results taken from a peer so far. -/
def consumed (p : Peer) : List (Poll (Except NngError Message)) :=
  (List.range p.polled).map p.behaviour.polls

def okOf : Poll (Except NngError Message) → Option Message
  | .ready (.ok msg) => some msg
  | _ => none

def isErr : Poll (Except NngError Message) → Bool
  | .ready (.error _) => true
  | _ => false

/-- One of the peer's polls failed. -/
def Failed (p : Peer) : Prop := ∃ x ∈ consumed p, isErr x = true

/-- Every peer ever admitted. -/
def everyone (s : Bus0) : List Peer := s.hub.peers ++ s.lost ++ s.hub.dropped

structure ReceivedExactly (s : Bus0) : Prop where
  ids : ((everyone s).map Peer.id).Nodup
  known : ∀ x ∈ s.returned, ∃ p ∈ everyone s, p.id = x.1
  messages : s.returned.map Prod.snd = s.results.filterMap Except.toOption
  inOrder : ∀ p ∈ everyone s, source p.id s.returned = (consumed p).filterMap okOf
  lost : ∀ p ∈ everyone s, p ∈ s.lost ↔ Failed p

/-- What a poll of `recv_any` comes to: no peers, a message, or the yield. -/
inductive PassEnd (s t : Bus0) : Prop
  | noPeers (h : s.hub.peers = []) (hresults : t.results = s.results ++ [.error .noPeers])
      (hreturned : t.returned = s.returned) (hlive : t.live = false)
  | message {i : Nat} {msg : Message} (h : s.hub.peers ≠ [])
      (hresults : t.results = s.results ++ [.ok msg])
      (hreturned : t.returned = s.returned ++ [(i, msg)]) (hlive : t.live = false)
  | yields (h : s.hub.peers ≠ []) (hresults : t.results = s.results)
      (hreturned : t.returned = s.returned) (hlive : t.live = true)

/-- In one pass nobody is polled twice, and everybody once unless a message is
returned. -/
def PolledOnce (s t : Bus0) : Prop :=
  ∃ visited unvisited, (visited ++ unvisited).Perm s.hub.peers ∧
    (t.hub.peers ++ t.lost).Perm (visited.map (fun p => p.poll.2) ++ unvisited ++ s.lost) ∧
    (t.returned = s.returned → unvisited = [])

/-! ## Turns

Peers that have a message ready at every poll. With `n` of them, `n` calls
should serve each one once, and nobody should wait for ever. -/

def EverReady (p : Peer) : Prop := ∀ k, ∃ msg, p.behaviour.polls k = .ready (.ok msg)

def OneTurnEach (s : Bus0) : Prop :=
  ∃ t served, run Bus0.step s (List.replicate s.hub.peers.length .recvAny) = some t ∧
    t.returned = s.returned ++ served ∧
    (served.map Prod.fst).Perm (s.hub.peers.map Peer.id)

def NobodyStarves (s : Bus0) : Prop :=
  ∀ p ∈ s.hub.peers, ∃ k t served msg,
    run Bus0.step s (List.replicate k .recvAny) = some t ∧
      t.returned = s.returned ++ served ∧ (p.id, msg) ∈ served

end NngCore.Spec
