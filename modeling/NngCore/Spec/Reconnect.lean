import NngCore.Ref.Reconnect

/-!
# The backoff schedule

Delays that double from `min_backoff` up to `max_backoff`, no more dials than
`max_attempts` allows, and no number in the loop that outgrows its type.
-/

namespace NngCore.Spec

open NngCore.Lib NngCore.Ref

/-- The delay before dial `i`, counting from zero. -/
def delayBefore (opts : ReconnectOptions) (i : Nat) : Nat :=
  min (opts.minBackoff * 2 ^ i) opts.maxBackoff

/-- The delay the loop sleeps before dial `i`: the first is `min_backoff` as it is. -/
def sleepBefore (opts : ReconnectOptions) (i : Nat) : Nat :=
  if i = 0 then opts.minBackoff else delayBefore opts i

structure KeepsSchedule {T : Type} (s : Reconnect T) : Prop where
  delays : ∀ i d, s.delays[i]? = some d → d = delayBefore s.opts i
  bounded : ∀ d ∈ s.delays, d ≤ s.opts.maxBackoff
  ascending : s.delays.Pairwise (· ≤ ·)
  dials : ∀ max, s.opts.maxAttempts = some max → s.dials ≤ max.toNat
  counter : s.wrapped = false
  doubling : s.phase ≠ .panicked

/-- In every run of the loop in which at most `n` dials fail. -/
def ScheduleKept {T : Type} (opts : ReconnectOptions) (transport : T) (n : Nat) : Prop :=
  ∀ acts s, run Reconnect.step (.start opts transport) acts = some s →
    s.failures ≤ n → KeepsSchedule s

/-- The failure of dial `i` is not the last one allowed. -/
def GoesOn (opts : ReconnectOptions) (i : Nat) : Prop :=
  ∀ max, opts.maxAttempts = some max → i + 1 < max.toNat

/-- Options under which the loop can lose `n` dials. -/
structure Regular (opts : ReconnectOptions) (n : Nat) : Prop where
  ordered : opts.minBackoff ≤ opts.maxBackoff
  attempts : opts.maxAttempts ≠ some 0
  counter : opts.maxAttempts = none → n < 2 ^ 32
  doubling : ∀ i < n, GoesOn opts i → delayBefore opts i * 2 ≤ durationMax

end NngCore.Spec
