import NngCore.Ref.Redialing
import NngCore.Spec.Reconnect

/-!
# What giving up looks like

A caller who allowed `m` attempts should be told when all of them failed, and
be left with the socket as it was; an attempt that gets through ends the
redialling and is the socket's transport from then on.
-/

namespace NngCore.Spec

open NngCore.Lib NngCore.Ref

section

variable {T S R A : Type}

/-- The next `k` dials fail. -/
def dialsFailing (k : Nat) : List (RedialingAct T R) :=
  (List.replicate k [.redial .slept, .redial (.dialed none)]).flatten

/-- A call in its transport operation that will redial if that fails. -/
def Armed (op : RedialingOp S R A) (opts : ReconnectOptions) (s : Redialing T S A) : Prop :=
  (∃ retried, s.phase = .operating retried ∧ (op.once && retried) = false) ∧
    s.dialAddr ≠ none ∧ s.reconnect = some opts

/-- The socket as it was, but for its transport. -/
structure SameSocket (s t : Redialing T S A) : Prop where
  state : t.state = s.state
  dialAddr : t.dialAddr = s.dialAddr
  reconnect : t.reconnect = s.reconnect

end

/-- A call of which `failed` dials fail, at most the `m` it is allowed: it gives up
and says so, or the next dial gets through. -/
def ReportsOutcome {S R A : Type} (op : RedialingOp S R A) (opts : ReconnectOptions)
    (m failed : Nat) : Prop :=
  ∀ (T : Type) (s : Redialing T S A) (e : NngError), Armed op opts s →
    if failed = m then
      ∃ t, run (Redialing.step op) s (.result (.error e) :: dialsFailing failed) = some t ∧
        t.phase = .done (.error .reconnectExhausted) ∧ t.dials = s.dials + failed ∧
        t.transport = s.transport ∧ SameSocket s t
    else
      ∀ new : T, ∃ t, run (Redialing.step op) s (.result (.error e) ::
          (dialsFailing failed ++ [.redial .slept, .redial (.dialed (some new))])) = some t ∧
        t.phase = .operating true ∧ t.dials = s.dials + (failed + 1) ∧ t.transport = new ∧
        SameSocket s t

/-- The socket operations that redial. -/
inductive SocketOp where
  | sendRaw
  | recvRaw
  | next
  | receive
  deriving DecidableEq

/-- The operation reports what became of its redials; the raw ones for the sockets
of every protocol. -/
def GivesUpAsSuch (opts : ReconnectOptions) (m failed : Nat) : SocketOp → Prop
  | .sendRaw => ∀ S, ReportsOutcome (.sendRaw S) opts m failed
  | .recvRaw => ∀ S, ReportsOutcome (.recvRaw S) opts m failed
  | .next => ReportsOutcome .next opts m failed
  | .receive => ReportsOutcome .receive opts m failed

/-- No doubling the loop comes to in the first `failed` failures of `max` is too
much. -/
def DoublingsFit (opts : ReconnectOptions) (max : UInt32) (failed : Nat) : Prop :=
  ∀ i, i < failed → i + 1 < max.toNat → sleepBefore opts i * 2 ≤ durationMax

end NngCore.Spec
