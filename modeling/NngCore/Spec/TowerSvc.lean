import NngCore.Lib.Run
import NngCore.Ref.TowerSvc

/-!
# One request at a time

What the clones of a service do to the socket they share is what one caller
could have done: requests one after the other, each started on the socket as
the one before left it, with nothing of another's in between. A caller gets
what its own request returned, and requests come in the order they were asked
for.
-/

namespace NngCore.Spec

open NngCore.Lib NngCore.Ref

/-- One request for `msg`, from the socket `s` to the socket `t`, which the future
has brought to `p`. -/
inductive Turn (msg : Message) (s t : Req0) : SvcPhase → Prop
  | requesting {ios : List Req0Act} (idle : s.live = none) (hio : ∀ a ∈ ios, a.isIo = true)
      (hrun : run Req0.step s (.call msg :: ios) = some t) (hlive : t.live ≠ none)
      (hsame : t.returned = s.returned) : Turn msg s t .requesting
  | done {ios : List Req0Act} {r : Except NngError Message} (idle : s.live = none)
      (hio : ∀ a ∈ ios, a.isIo = true)
      (hrun : run Req0.step s (.call msg :: ios) = some t) (hlive : t.live = none)
      (hreturned : t.returned = s.returned ++ [r]) : Turn msg s t (.done r)
  | panicked {ios : List Req0Act} (idle : s.live = none) (hio : ∀ a ∈ ios, a.isIo = true)
      (hrun : run Req0.step s (.call msg :: ios) = some t) (hlive : t.live = none)
      (hsame : t.returned = s.returned) : Turn msg s t .panicked
  | dropped {ios : List Req0Act} (idle : s.live = none) (hio : ∀ a ∈ ios, a.isIo = true)
      (hrun : run Req0.step s (.call msg :: ios ++ [.drop]) = some t) (hlive : t.live = none)
      (hsame : t.returned = s.returned) : Turn msg s t .dropped

/-- Requests one after the other. -/
inductive Serial (start : Req0) : List SvcFuture → Req0 → Prop
  | nil : Serial start [] start
  | next {turns : List SvcFuture} {s t : Req0} {f : SvcFuture} (h : Serial start turns s)
      (hturn : Turn f.msg s t f.phase) : Serial start (turns ++ [f]) t

/-- The future stands in line, or holds the lock. -/
def active : SvcPhase → Bool
  | .waiting => true
  | .requesting => true
  | _ => false

def activeIn (s : Req0Service) (i : Nat) : Bool :=
  match s.futures[i]? with
  | none => false
  | some f => active f.phase

structure Serialised (start : Req0) (s : Req0Service) : Prop where
  serial : ∃ turns, s.entered.map (s.futures[·]?) = turns.map some ∧ Serial start turns s.inner
  order : s.entered.Sublist s.arrived
  once : s.arrived.Nodup
  -- in line are those who have asked and are not done, in the order they asked
  line : s.lock.line = s.arrived.filter (activeIn s)
  front : ∀ i f, s.futures[i]? = some f → f.phase = .requesting → s.lock.holder = some i
  -- the socket is busy with nobody's request but the holder's
  busy : s.inner.live ≠ none →
    ∃ i f, s.lock.holder = some i ∧ s.futures[i]? = some f ∧ f.phase = .requesting
  settings : s.inner.resendTime = start.resendTime ∧ s.inner.reconnect = start.reconnect

end NngCore.Spec
