import NngCore.Ref.Accept

/-!
# No connection is lost

A connection that left the listener's queue belongs to somebody: to the caller
it was returned to, to nobody if its handshake failed, and else to the call
that is bringing it up.
-/

namespace NngCore.Spec

open NngCore.Lib NngCore.Ref

/-- The connection the live call is bringing up. -/
def heldConn (s : AcceptStream) : Option Nat :=
  match s.live with
  | some (.lower conn _ _) => some conn
  | some (.connecting conn _) => some conn
  | _ => none

/-- A connection whose `set_nodelay` failed counts with the failed handshakes: the call
that took it off the queue returns the error itself. -/
def Accounted (s : AcceptStream) : Prop :=
  ∀ conn < s.popped, conn ∈ s.returned ∨ conn ∈ s.failed.map Prod.fst ∨ heldConn s = some conn

instance (s : AcceptStream) : Decidable (Accounted s) :=
  inferInstanceAs (Decidable (∀ conn < s.popped, _))

/-- No call is dropped between its accept and the end of its handshake. -/
def NotDroppedHolding (s : AcceptStream) (a : AcceptAct) : Prop :=
  a = .drop → heldConn s = none

end NngCore.Spec
