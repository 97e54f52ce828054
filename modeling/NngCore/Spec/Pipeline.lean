import NngCore.Lib.Interleave
import NngCore.Lib.Run
import NngCore.Ref.Pipeline

/-!
# What a fan owes its caller

A message that a reader received is at any time in exactly one of three
places: with the caller, in the channel, or in the hands of the reader that
received it. Read in that order they are to be an interleaving of what the
readers received, whoever has failed in the meantime.

A fan that had pushers and has lost all of them, with nothing left to hand
out, is at the end of its input. What its caller is told should say so there,
and nowhere before.
-/

namespace NngCore.Spec

open NngCore.Lib NngCore.Ref NngCore.Ref.Pull0Fan

/-- A fan as `bind` and `listen_and_accept` make it. -/
def Started (w : PointerWidth) (s : Pull0Fan) : Prop :=
  Pull0Fan.bind w = some s ∨ ∃ n, listenAndAccept w n = some s

/-! ## The messages -/

/-- The message a reader has received and not yet got rid of. -/
def held (r : Reader) : Option Message :=
  match r.phase with
  | .sending (.ok msg) => some msg
  | _ => none

/-- The messages in the channel, each with the reader that sent it. -/
def queued (items : List FanItem) : List (Nat × Message) :=
  items.filterMap fun x => x.result.toOption.map fun msg => (x.reader, msg)

/-- The messages the readers hold, those of the first one at number `k`. -/
def heldFrom : Nat → List Reader → List (Nat × Message)
  | _, [] => []
  | k, r :: readers => (held r).toList.map (fun msg => (k, msg)) ++ heldFrom (k + 1) readers

/-- Handed out, then queued, then held. -/
def flow (s : Pull0Fan) : List (Nat × Message) :=
  s.pulled ++ queued s.chan.items ++ heldFrom 0 s.readers

/-- What reader `i` received. -/
def receivedBy (s : Pull0Fan) (i : Nat) : List Message :=
  ((s.readers.map Reader.received)[i]?).getD []

structure ForwardedOnce (s : Pull0Fan) : Prop where
  merged : Interleaving (s.readers.map Reader.received) ((flow s).map Prod.snd)
  ordered : ∀ i, source i (flow s) = receivedBy s i

/-- An answer of `pull_any` is what is added to the messages handed out. -/
def given : Poll (Except NngError Message) → List Message
  | .ready (.ok msg) => [msg]
  | _ => []

/-- The errors in front of a message do not keep it from the caller, and a
reader that fails takes nothing away from the others. -/
structure NotSuppressed (s : Pull0Fan) : Prop where
  skipped : ∀ errs x msg rest, s.chan.items = errs ++ x :: rest →
    (∀ y ∈ errs, y.result.toOption = none) → x.result = .ok msg →
    s.pullAny.1 = .ready (.ok msg) ∧ s.pollNext.1 = .ready (some msg)
  apart : ∀ i a t, (a = .sent i ∨ a = .cancelled i ∨ ∃ e, a = .received i (.error e)) →
    step s a = some t → ∀ j, j ≠ i →
      t.readers[j]? = s.readers[j]? ∧ source j (flow t) = source j (flow s)

/-! ## The end of the input -/

structure Ended (s : Pull0Fan) : Prop where
  pushers : 1 ≤ s.senderCount
  exited : ∀ r ∈ s.readers, r.live = false
  drained : s.chan.items = []

/-- Something may still come, or has come and was not handed out. -/
def Going (s : Pull0Fan) : Prop :=
  (∃ r ∈ s.readers, r.live = true) ∨ ∃ item ∈ s.chan.items, ∃ msg, item.result = .ok msg

structure EndReported (s : Pull0Fan) : Prop where
  atEnd : Ended s → s.pullAny.1 = .ready (.error .noPeers) ∧ s.pollNext.1 = .ready none
  onlyThen : Going s → s.pullAny.1 ≠ .ready (.error .noPeers) ∧ s.pollNext.1 ≠ .ready none

/-- A call made here does not come back. As long as it runs it borrows the fan,
which then neither gets another pusher nor goes away. -/
def Hangs (s : Pull0Fan) : Prop :=
  ∀ acts t, (∀ a ∈ acts, a ≠ .addPusher ∧ a ≠ .drop) → run step s acts = some t →
    t.pullAny.1 = .pending ∧ t.pollNext.1 = .pending

end NngCore.Spec
