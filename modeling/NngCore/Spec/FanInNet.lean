import NngCore.Ref.FanInNet
import NngCore.Spec.Pipeline

/-!
# Pushed once, pulled at most once

A push socket that redials may have written parts of one message on several
connections, and the readers of all of them feed one channel. What the caller of
the fan is given of one pusher, connection by connection, is still a part of what
was pushed: nothing twice, and nothing that was not pushed.
-/

namespace NngCore.Spec

open NngCore.Lib NngCore.Ref

/-- What the caller was given of connection `k` of pusher `p`. -/
def pulledFrom (s : FanInNet) (p k : Nat) : List Message :=
  match s.lines.findIdx? fun l => l.pusher = p ∧ l.line = k with
  | some i => source i s.fan.pulled
  | none => []

end NngCore.Spec
