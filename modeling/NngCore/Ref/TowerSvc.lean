import NngCore.Lib.FairLock
import NngCore.Ref.Socket

/-!
# Requests through a shared socket (`src/socket/tower_svc.rs`)

All clones of a `Req0Service` share one `Req0` behind one `tokio` mutex.
`call` makes a future and does nothing else; polled for the first time, the
future asks for the lock, and once it has it, it runs `request` on the socket to
the end and lets go. That the mutex is fair, handed on in the order in which it
was asked for, is what `tokio` documents of it; `Lib.FairLock` is this lock, and
nothing here says it of another. The shared `Req0` is over a framed connection.

A future may be dropped at any time. One that stands in line leaves it, and one
that holds the lock drops its `request` future, if that has been started, and
the guard with it. A panic inside `request` lets go of the lock, too; `tokio`
does not poison it.

The futures are numbered in the order they were made. For the statements the
service keeps the order of their first polls and the order in which they started
their requests.
-/

namespace NngCore.Ref

open NngCore.Lib

inductive SvcPhase where
  | created
  | waiting
  | requesting
  | done (r : Except NngError Message)
  | panicked
  | dropped
  deriving DecidableEq

structure SvcFuture where
  msg : Message
  phase : SvcPhase
  deriving DecidableEq

structure Req0Service where
  inner : Req0
  lock : FairLock Nat
  futures : List SvcFuture
  arrived : List Nat
  entered : List Nat

/-- `io` is what the runtime does for the request that is running: anything but
starting one, dropping it, or setting the resend time. -/
inductive SvcAct where
  | call (msg : Message)
  | poll (i : Nat)
  | io (a : Req0Act)
  | drop (i : Nat)

/-- What the runtime may do to a running request. -/
def Req0Act.isIo : Req0Act → Bool
  | .write _ => true
  | .received _ => true
  | .slept => true
  | .dialed _ => true
  | .timeout => true
  | _ => false

namespace Req0Service

def new (req0 : Req0) : Req0Service := ⟨req0, .free, [], [], []⟩

def setPhase (s : Req0Service) (i : Nat) (f : SvcFuture) (p : SvcPhase) : Req0Service :=
  { s with futures := s.futures.set i { f with phase := p } }

/-- Future `i` is over and lets go of the lock. -/
def release (s : Req0Service) (i : Nat) (f : SvcFuture) (p : SvcPhase) : Req0Service :=
  { s.setPhase i f p with lock := s.lock.leave i }

/-- The request of future `i` has run on to `inner`. -/
def settle (s : Req0Service) (i : Nat) (f : SvcFuture) (inner : Req0) : Req0Service :=
  let before := s.inner.returned.length
  let s := { s with inner := inner }
  match inner.live with
  | some _ => s.setPhase i f .requesting
  | none =>
      match inner.returned[before]? with
      | some r => s.release i f (.done r)
      | none => s.release i f .panicked

/-- Future `i` has the lock and calls `request`. -/
def enter (s : Req0Service) (i : Nat) (f : SvcFuture) : Option Req0Service :=
  (s.inner.step (.call f.msg)).map fun inner =>
    { s with entered := s.entered ++ [i] }.settle i f inner

/-- A poll of future `i`, up to where it stands in line or in its request. -/
def poll (s : Req0Service) (i : Nat) (f : SvcFuture) : Option Req0Service :=
  match f.phase with
  | .created =>
      let s := { s with lock := s.lock.join i, arrived := s.arrived ++ [i] }
      if s.lock.holder = some i then s.enter i f else some (s.setPhase i f .waiting)
  | .waiting => if s.lock.holder = some i then s.enter i f else some s
  | _ => none

def dropFuture (s : Req0Service) (i : Nat) (f : SvcFuture) : Option Req0Service :=
  match f.phase with
  | .created => some (s.setPhase i f .dropped)
  | .waiting => some (s.release i f .dropped)
  | .requesting =>
      (s.inner.step .drop).map fun inner => { s with inner := inner }.release i f .dropped
  | _ => none

/-- `poll_ready` is always `Ok`, so a call may come at any time. -/
def step (s : Req0Service) : SvcAct → Option Req0Service
  | .call msg => some { s with futures := s.futures ++ [⟨msg, .created⟩] }
  | .poll i =>
      match s.futures[i]? with
      | none => none
      | some f => s.poll i f
  | .io a =>
      match s.lock.holder with
      | none => none
      | some i =>
          match s.futures[i]? with
          | none => none
          | some f =>
              if f.phase = .requesting ∧ a.isIo then (s.inner.step a).map (s.settle i f)
              else none
  | .drop i =>
      match s.futures[i]? with
      | none => none
      | some f => s.dropFuture i f

end Req0Service

end NngCore.Ref
