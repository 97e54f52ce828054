import NngCore.Ref.Socket

/-!
# The redial loop (`reconnect_transport` in `src/socket.rs`)

The loop sleeps, dials, and on a failure doubles its delay and sleeps again.
It is a future with two awaits, the sleep and the dial, and `Redial` is what
it keeps between them; here it runs by itself, with the transport it is to
replace. What a failed dial leads to is `Redial.failed`, as in the sockets.

For the statements the loop keeps a log: the delays it slept, the dials it
made and how many of them failed, and whether its counter has gone over. The
counter goes over silently in a release build and with a panic in a debug
build; either way it is an overflow.
-/

namespace NngCore.Ref

open NngCore.Lib

inductive ReconnectPhase where
  | redial (r : Redial)
  | done (r : Except NngError Unit)
  | panicked
  deriving DecidableEq

structure Reconnect (T : Type) where
  opts : ReconnectOptions
  transport : T
  phase : ReconnectPhase
  delays : List Nat
  dials : Nat
  failures : Nat
  wrapped : Bool
  deriving DecidableEq

/-- `dialed none` is a failed attempt of `connect_transport`. -/
inductive ReconnectAct (T : Type) where
  | slept
  | dialed (t : Option T)
  deriving DecidableEq

namespace Reconnect

variable {T : Type}

def start (opts : ReconnectOptions) (transport : T) : Reconnect T where
  opts := opts
  transport := transport
  phase := .redial (.start opts)
  delays := [opts.minBackoff]
  dials := 0
  failures := 0
  wrapped := false

/-- The arm of a failed dial. -/
def failed (s : Reconnect T) (r : Redial) : Reconnect T :=
  let s := { s with
    failures := s.failures + 1
    wrapped := s.wrapped || r.attempts == 0xffffffff }
  match r.failed s.opts with
  | .again r => { s with phase := .redial r, delays := s.delays ++ [r.backoff] }
  | .exhausted => { s with phase := .done (.error .reconnectExhausted) }
  | .panicked => { s with phase := .panicked }

def step (s : Reconnect T) (a : ReconnectAct T) : Option (Reconnect T) :=
  match s.phase with
  | .redial r =>
      match r.dialing, a with
      | false, .slept =>
          some { s with phase := .redial { r with dialing := true }, dials := s.dials + 1 }
      | true, .dialed (some t) => some { s with transport := t, phase := .done (.ok ()) }
      | true, .dialed none => some (s.failed r)
      | _, _ => none
  | _ => none

end Reconnect

end NngCore.Ref
