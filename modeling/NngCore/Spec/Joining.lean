import NngCore.Ref.Joining

/-!
# A loop is one operation

Whatever happens during a call, its connections come out of the queue one after
the other, and each of them is dealt with before the next one is taken. What the
call has done to the vector of peers is what `Hub.acceptPending` or
`Hub.acceptUntil` does with the list of its attempts, so a call that returns may
be taken for that one operation.
-/

namespace NngCore.Spec

open NngCore.Lib NngCore.Ref

section

variable (behave : Nat → Behaviour)

/-- The connection of an attempt, where it got one. -/
def attemptConn : Attempt → Option Nat
  | .acceptFailed => none
  | .nodelayFailed conn => some conn
  | .refused conn => some conn
  | .joined conn => some conn

/-- The attempt as the atomic loops have it. -/
def outcome : Attempt → Ref.Accepted
  | .acceptFailed => .failed
  | .nodelayFailed _ => .failed
  | .refused _ => .refused
  | .joined conn => .peer (behave conn)

/-- The vector after the attempts. -/
def joinAll (h : Hub) (log : List Attempt) : Hub :=
  log.foldl (fun h a =>
    match a with
    | .joined conn => h.push (behave conn)
    | _ => h) h

/-- The connection a call holds, or was dropped with. -/
def inHand (s : JoinSocket) : Option Nat :=
  match s.phase with
  | .returned => none
  | .dropped lost => lost
  | .running fut => fut.conn

structure OneOperation (s : JoinSocket) : Prop where
  -- the connections since the beginning of the call, each once
  order : s.log.filterMap attemptConn ++ (inHand s).toList =
    List.range' s.poppedAt (s.popped - s.poppedAt)
  joined : s.hub = joinAll behave s.hubAt s.log
  pending : s.loop = .pending → s.hub = s.hubAt.acceptPending (s.log.map (outcome behave))
  enough : ∀ n, s.loop = .upTo n → s.phase = .returned →
    s.hubAt.acceptUntil n (s.log.map (outcome behave)) = some s.hub
  waiting : ∀ n, s.loop = .upTo n → s.phase ≠ .returned →
    s.hubAt.acceptUntil n (s.log.map (outcome behave)) = none
  -- the first loop never waits for a connection
  prompt : s.loop = .pending → s.phase ≠ .running .accepting
  quic : s.loop = .pending → s.listener = .quic → s.hub = s.hubAt ∧ s.popped = s.poppedAt

end

end NngCore.Spec
