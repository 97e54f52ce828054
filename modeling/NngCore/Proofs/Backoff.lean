import NngCore.Spec.Reconnect

/-!
# When the redial loop keeps its schedule

As long as nothing goes over, the loop after `k` failed dials is in one state
only, `afterFailures`, and from there it can sleep, dial, connect or give up.
`Reached` lists these states, and a step leads out of the list in three ways,
each of them a broken promise: a doubled delay past `Duration::MAX`, a counter
past `u32::MAX`, or an options value that is off from the start, with
`min_backoff` above `max_backoff` or no attempts allowed at all. The loop only
looks at `max_backoff` after it has doubled, and at `max_attempts` after it has
dialled.
-/

namespace NngCore.Proofs

open NngCore.Lib NngCore.Ref NngCore.Spec

variable {T : Type} {opts : ReconnectOptions} {transport : T} {n : Nat}

/-! ## The schedule -/

theorem sleepBefore_eq (h : opts.minBackoff ≤ opts.maxBackoff) (i : Nat) :
    sleepBefore opts i = delayBefore opts i := by
  rw [sleepBefore]
  split
  · next hzero => rw [hzero, delayBefore, Nat.pow_zero, Nat.mul_one, Nat.min_eq_left h]
  · rfl

theorem sleepBefore_succ (opts : ReconnectOptions) (i : Nat) :
    min (sleepBefore opts i * 2) opts.maxBackoff = sleepBefore opts (i + 1) := by
  have hsucc : sleepBefore opts (i + 1) = delayBefore opts (i + 1) :=
    if_neg (Nat.succ_ne_zero i)
  rw [hsucc, sleepBefore, delayBefore, delayBefore, Nat.pow_succ, ← Nat.mul_assoc]
  split
  · next hzero => rw [hzero, Nat.pow_zero, Nat.mul_one]
  · omega

theorem delayBefore_le (opts : ReconnectOptions) (i : Nat) :
    delayBefore opts i ≤ opts.maxBackoff := Nat.min_le_right _ _

theorem delayBefore_mono (opts : ReconnectOptions) {i j : Nat} (h : i ≤ j) :
    delayBefore opts i ≤ delayBefore opts j := by
  have hpow : opts.minBackoff * 2 ^ i ≤ opts.minBackoff * 2 ^ j :=
    Nat.mul_le_mul_left _ (Nat.pow_le_pow_right Nat.two_pos h)
  rw [delayBefore, delayBefore]
  omega

/-- The loop asleep after `k` failures. -/
def afterFailures (opts : ReconnectOptions) (transport : T) (k : Nat) : Reconnect T where
  opts := opts
  transport := transport
  phase := .redial ⟨sleepBefore opts k, UInt32.ofNat k, false⟩
  delays := (List.range (k + 1)).map (sleepBefore opts)
  dials := k
  failures := k
  wrapped := false

/-- The same loop in the dial that follows. -/
def dialingAfter (opts : ReconnectOptions) (transport : T) (k : Nat) : Reconnect T :=
  { afterFailures opts transport k with
    phase := .redial ⟨sleepBefore opts k, UInt32.ofNat k, true⟩
    dials := k + 1 }

theorem start_eq (opts : ReconnectOptions) (transport : T) :
    Reconnect.start opts transport = afterFailures opts transport 0 := rfl

/-! ## A failed dial -/

theorem toNat_attempts {k : Nat} (hk : k + 1 < 2 ^ 32) :
    (UInt32.ofNat k + 1).toNat = k + 1 := by
  have hof : (UInt32.ofNat k).toNat = k := UInt32.toNat_ofNat_of_lt' (Nat.lt_of_succ_lt hk)
  have hone : (1 : UInt32).toNat = 1 := rfl
  rw [UInt32.toNat_add, hof, hone, Nat.mod_eq_of_lt hk]

theorem attempts_ne_max {k : Nat} (hk : k + 1 < 2 ^ 32) :
    (UInt32.ofNat k == 0xffffffff) = false := by
  have hof : (UInt32.ofNat k).toNat = k := UInt32.toNat_ofNat_of_lt' (Nat.lt_of_succ_lt hk)
  rw [beq_eq_false_iff_ne]
  intro h
  have hval := congrArg UInt32.toNat h
  rw [hof] at hval
  have hmax : (0xffffffff : UInt32).toNat = 4294967295 := rfl
  omega

/-- What `Redial.failed` makes of failure `k`. -/
theorem redial_failed (opts : ReconnectOptions) {k : Nat} (hk : k + 1 < 2 ^ 32) (b : Bool) :
    (GoesOn opts k → Redial.failed opts ⟨sleepBefore opts k, UInt32.ofNat k, b⟩ =
      if sleepBefore opts k * 2 ≤ durationMax then
        .again ⟨sleepBefore opts (k + 1), UInt32.ofNat (k + 1), false⟩
      else .panicked) ∧
    (¬ GoesOn opts k →
      Redial.failed opts ⟨sleepBefore opts k, UInt32.ofNat k, b⟩ = .exhausted) := by
  have hcount : UInt32.ofNat k + 1 = UInt32.ofNat (k + 1) := by
    apply UInt32.toNat_inj.mp
    rw [toNat_attempts hk]
    exact (UInt32.toNat_ofNat_of_lt' hk).symm
  simp only [Redial.failed, sleepBefore_succ]
  constructor
  · intro hgo
    split
    · next max hmax =>
        have hlt : ¬ UInt32.ofNat k + 1 ≥ max := by
          rw [ge_iff_le, UInt32.le_iff_toNat_le, toNat_attempts hk]
          exact Nat.not_le_of_lt (hgo max hmax)
        rw [if_neg hlt, hcount]
    · rw [hcount]
  · intro hstop
    have hex : ∃ max, opts.maxAttempts = some max ∧ max.toNat ≤ k + 1 := by
      by_contra hnone
      exact hstop fun max hmax => Nat.lt_of_not_le fun hle => hnone ⟨max, hmax, hle⟩
    obtain ⟨max, hmax, hle⟩ := hex
    have hge : UInt32.ofNat k + 1 ≥ max := by
      rw [ge_iff_le, UInt32.le_iff_toNat_le, toNat_attempts hk]
      exact hle
    simp only [hmax, if_pos hge]

theorem failed_again {k : Nat} (hk : k + 1 < 2 ^ 32) (hgo : GoesOn opts k)
    (hfit : sleepBefore opts k * 2 ≤ durationMax) :
    (dialingAfter opts transport k).failed ⟨sleepBefore opts k, UInt32.ofNat k, true⟩ =
      afterFailures opts transport (k + 1) := by
  have hfailed := (redial_failed opts hk true).1 hgo
  rw [if_pos hfit] at hfailed
  simp only [Reconnect.failed, dialingAfter, afterFailures, hfailed, attempts_ne_max hk,
    Bool.or_false, List.range_succ, List.map_append, List.map_cons, List.map_nil]

theorem failed_exhausted {k : Nat} (hk : k + 1 < 2 ^ 32) (hstop : ¬ GoesOn opts k) :
    (dialingAfter opts transport k).failed ⟨sleepBefore opts k, UInt32.ofNat k, true⟩ =
      { dialingAfter opts transport k with
        phase := .done (.error .reconnectExhausted)
        failures := k + 1 } := by
  have hfailed := (redial_failed opts hk true).2 hstop
  simp only [Reconnect.failed, dialingAfter, afterFailures, hfailed, attempts_ne_max hk,
    Bool.or_false]

theorem failed_panicked {k : Nat} (hk : k + 1 < 2 ^ 32) (hgo : GoesOn opts k)
    (hbig : ¬ sleepBefore opts k * 2 ≤ durationMax) :
    ((dialingAfter opts transport k).failed
      ⟨sleepBefore opts k, UInt32.ofNat k, true⟩).phase = .panicked := by
  have hfailed := (redial_failed opts hk true).1 hgo
  rw [if_neg hbig] at hfailed
  simp only [Reconnect.failed, dialingAfter, afterFailures, hfailed]

/-- Whatever else failure `2 ^ 32` does, the counter goes over. -/
theorem failed_wrapped :
    ((dialingAfter opts transport 4294967295).failed
      ⟨sleepBefore opts 4294967295, UInt32.ofNat 4294967295, true⟩).wrapped = true := by
  have hmax : (UInt32.ofNat 4294967295 == 0xffffffff) = true := by decide
  simp only [Reconnect.failed, hmax, Bool.or_true]
  split <;> rfl

theorem failed_failures (s : Reconnect T) (r : Redial) :
    (s.failed r).failures = s.failures + 1 := by
  simp only [Reconnect.failed]
  split <;> rfl

/-! ## The states of a loop that keeps its schedule -/

/-- Failure `k` is one the options provide for. -/
def Allowed (opts : ReconnectOptions) (k : Nat) : Prop :=
  ∀ max, opts.maxAttempts = some max → k < max.toNat

inductive Reached (opts : ReconnectOptions) (transport : T) : Reconnect T → Prop
  | sleeping (k : Nat) (hk : Allowed opts k) :
      Reached opts transport (afterFailures opts transport k)
  | dialing (k : Nat) (hk : Allowed opts k) :
      Reached opts transport (dialingAfter opts transport k)
  | connected (k : Nat) (hk : Allowed opts k) (t : T) :
      Reached opts transport
        { dialingAfter opts transport k with transport := t, phase := .done (.ok ()) }
  | exhausted (k : Nat) (hk : Allowed opts k) :
      Reached opts transport
        { dialingAfter opts transport k with
          phase := .done (.error .reconnectExhausted)
          failures := k + 1 }

/-- The delays slept before dial `k`. -/
theorem schedule_delays (hord : opts.minBackoff ≤ opts.maxBackoff) (k : Nat) :
    (∀ i d, ((List.range k).map (sleepBefore opts))[i]? = some d → d = delayBefore opts i) ∧
      (∀ d ∈ (List.range k).map (sleepBefore opts), d ≤ opts.maxBackoff) ∧
      ((List.range k).map (sleepBefore opts)).Pairwise (· ≤ ·) := by
  rw [funext (sleepBefore_eq hord)]
  refine ⟨?_, ?_, ?_⟩
  · intro i d hd
    rw [List.getElem?_map] at hd
    obtain ⟨j, hj, rfl⟩ := Option.map_eq_some_iff.mp hd
    rw [(List.getElem?_eq_some_iff.mp hj).2.symm, List.getElem_range]
  · intro d hd
    obtain ⟨i, -, rfl⟩ := List.mem_map.mp hd
    exact delayBefore_le opts i
  · rw [List.pairwise_map]
    exact List.pairwise_lt_range.imp fun h => delayBefore_mono opts (Nat.le_of_lt h)

theorem keepsSchedule_of_reached (hord : opts.minBackoff ≤ opts.maxBackoff)
    {s : Reconnect T} (h : Reached opts transport s) : KeepsSchedule s := by
  cases h with
  | sleeping k hk =>
      obtain ⟨hget, hle, hasc⟩ := schedule_delays hord (k + 1)
      exact ⟨hget, hle, hasc, fun max hmax => Nat.le_of_lt (hk max hmax), rfl, nofun⟩
  | dialing k hk =>
      obtain ⟨hget, hle, hasc⟩ := schedule_delays hord (k + 1)
      exact ⟨hget, hle, hasc, hk, rfl, nofun⟩
  | connected k hk t =>
      obtain ⟨hget, hle, hasc⟩ := schedule_delays hord (k + 1)
      exact ⟨hget, hle, hasc, hk, rfl, nofun⟩
  | exhausted k hk =>
      obtain ⟨hget, hle, hasc⟩ := schedule_delays hord (k + 1)
      exact ⟨hget, hle, hasc, hk, rfl, nofun⟩

/-- Everything a step of the loop can do. -/
theorem reconnect_moved {s s' : Reconnect T} {a : ReconnectAct T} (h : s.step a = some s') :
    ∃ r, s.phase = .redial r ∧
      ((r.dialing = false ∧ a = .slept ∧
          s' = { s with phase := .redial { r with dialing := true }, dials := s.dials + 1 }) ∨
        (r.dialing = true ∧ ∃ t, a = .dialed (some t) ∧
          s' = { s with transport := t, phase := .done (.ok ()) }) ∨
        (r.dialing = true ∧ a = .dialed none ∧ s' = s.failed r)) := by
  unfold Reconnect.step at h
  split at h
  · next r hr =>
      refine ⟨r, hr, ?_⟩
      split at h
      · next hd =>
          cases h
          exact Or.inl ⟨hd, rfl, rfl⟩
      · next hd =>
          cases h
          exact Or.inr (Or.inl ⟨hd, _, rfl, rfl⟩)
      · next hd =>
          cases h
          exact Or.inr (Or.inr ⟨hd, rfl, rfl⟩)
      · cases h
  · cases h

theorem failures_step {s s' : Reconnect T} {a : ReconnectAct T} (h : s.step a = some s') :
    s.failures ≤ s'.failures := by
  obtain ⟨r, -, ⟨-, -, rfl⟩ | ⟨-, t, -, rfl⟩ | ⟨-, -, rfl⟩⟩ := reconnect_moved h
  · exact Nat.le_refl _
  · exact Nat.le_refl _
  · rw [failed_failures]
    exact Nat.le_succ _

/-- A dial more may fail as long as the options are regular for it. -/
theorem Reached.step (hreg : Regular opts n) {s s' : Reconnect T} {a : ReconnectAct T}
    (h : Reached opts transport s) (hstep : s.step a = some s') (hn : s'.failures ≤ n) :
    Reached opts transport s' := by
  obtain ⟨r, hr, hmove⟩ := reconnect_moved hstep
  cases h with
  | sleeping k hk =>
      cases hr
      rcases hmove with ⟨-, -, rfl⟩ | ⟨hd, -⟩ | ⟨hd, -⟩
      · exact .dialing k hk
      · cases hd
      · cases hd
  | dialing k hk =>
      cases hr
      rcases hmove with ⟨hd, -⟩ | ⟨-, t, -, rfl⟩ | ⟨-, -, rfl⟩
      · cases hd
      · exact .connected k hk t
      · rw [failed_failures] at hn
        have hkn : k + 1 ≤ n := hn
        have hcount : k + 1 < 2 ^ 32 := by
          cases hmax : opts.maxAttempts with
          | none =>
              have hlt := hreg.counter hmax
              omega
          | some max =>
              have hlt := hk max hmax
              have hbig : max.toNat < 2 ^ 32 := max.toNat_lt
              omega
        by_cases hgo : GoesOn opts k
        · have hfit := hreg.doubling k hkn hgo
          rw [← sleepBefore_eq hreg.ordered] at hfit
          rw [failed_again hcount hgo hfit]
          exact .sleeping (k + 1) hgo
        · rw [failed_exhausted hcount hgo]
          exact .exhausted k hk
  | connected k hk t => cases hr
  | exhausted k hk => cases hr

theorem scheduleKept_of_regular (transport : T) (h : Regular opts n) :
    ScheduleKept opts transport n := by
  intro acts s hrun hn
  have hallowed : Allowed opts 0 := by
    intro max hmax
    have hne : max ≠ 0 := by
      rintro rfl
      exact h.attempts hmax
    exact Nat.pos_of_ne_zero fun hz => hne (UInt32.toNat_inj.mp hz)
  have hreached : Reached opts transport s := by
    refine run_induction (I := fun _ s => s.failures ≤ n → Reached opts transport s)
      ?_ ?_ hrun hn
    · intro _
      rw [start_eq]
      exact .sleeping 0 hallowed
    · intro _ u a v ih hstep hv
      exact (ih (Nat.le_trans (failures_step hstep) hv)).step h hstep hv
  exact keepsSchedule_of_reached h.ordered hreached

/-! ## The ways out

The loop that loses every dial, as far as the options let it go on. -/

theorem run_fail {k : Nat} :
    run Reconnect.step (afterFailures opts transport k) [.slept, .dialed none] =
      some ((dialingAfter opts transport k).failed
        ⟨sleepBefore opts k, UInt32.ofNat k, true⟩) := rfl

/-- A run that loses one dial more. -/
theorem run_fail_more {k : Nat} {acts : List (ReconnectAct T)}
    (hrun : run Reconnect.step (.start opts transport) acts =
      some (afterFailures opts transport k)) :
    run Reconnect.step (.start opts transport) (acts ++ [.slept, .dialed none]) =
      some ((dialingAfter opts transport k).failed
        ⟨sleepBefore opts k, UInt32.ofNat k, true⟩) :=
  run_append.mpr ⟨_, hrun, run_fail⟩

/-- If the schedule is kept, the loop that loses `k` dials gets to the next sleep
with its numbers intact. -/
theorem reaches_of_kept (h : ScheduleKept opts transport n) {k : Nat} (hk : k ≤ n)
    (hgo : ∀ i < k, GoesOn opts i) :
    k < 2 ^ 32 ∧ (∀ i < k, sleepBefore opts i * 2 ≤ durationMax) ∧
      ∃ acts, run Reconnect.step (.start opts transport) acts =
        some (afterFailures opts transport k) := by
  induction k with
  | zero =>
      exact ⟨Nat.two_pow_pos 32, nofun, [], rfl⟩
  | succ k ih =>
      obtain ⟨hlt, hfit, acts, hrun⟩ :=
        ih (Nat.le_of_succ_le hk) fun i hi => hgo i (Nat.lt_succ_of_lt hi)
      have hmore := run_fail_more hrun
      have hkept := h _ _ hmore (by rw [failed_failures]; exact hk)
      have hcount : k + 1 < 2 ^ 32 := by
        by_contra hge
        have hlast : k = 4294967295 := by omega
        subst hlast
        have hwrapped := hkept.counter
        rw [failed_wrapped] at hwrapped
        cases hwrapped
      have hgok : GoesOn opts k := hgo k (Nat.lt_succ_self k)
      have hdouble : sleepBefore opts k * 2 ≤ durationMax := by
        by_contra hbig
        exact hkept.doubling (failed_panicked hcount hgok hbig)
      refine ⟨hcount, ?_, acts ++ [.slept, .dialed none], ?_⟩
      · intro i hi
        rcases Nat.lt_succ_iff_lt_or_eq.mp hi with hi | rfl
        · exact hfit i hi
        · exact hdouble
      · rw [hmore, failed_again hcount hgok hdouble]

theorem regular_of_scheduleKept {transport : T} (h : ScheduleKept opts transport n) :
    Regular opts n := by
  have hord : opts.minBackoff ≤ opts.maxBackoff :=
    (h [] _ rfl (Nat.zero_le n)).bounded _ List.mem_cons_self
  have hbelow : ∀ {i : Nat}, GoesOn opts i → ∀ j ≤ i, GoesOn opts j := by
    intro i hi j hj max hmax
    have hlt := hi max hmax
    omega
  refine ⟨hord, ?_, ?_, ?_⟩
  · -- one dial is made before the attempts are counted
    intro hzero
    have hdials := (h [.slept] _ rfl (Nat.zero_le n)).dials 0 hzero
    cases hdials
  · intro hnone
    exact (reaches_of_kept h (Nat.le_refl n) fun i _ max hmax => by
      rw [hnone] at hmax
      cases hmax).1
  · intro i hi hgo
    have hfit := (reaches_of_kept h hi fun j hj => hbelow hgo j (Nat.le_of_lt_succ hj)).2.1
    rw [← sleepBefore_eq hord]
    exact hfit i (Nat.lt_succ_self i)

/-- The loop keeps its schedule through `n` failed dials exactly under options
that are regular for them. -/
theorem scheduleKept_iff (opts : ReconnectOptions) (transport : T) (n : Nat) :
    ScheduleKept opts transport n ↔ Regular opts n :=
  ⟨regular_of_scheduleKept, scheduleKept_of_regular transport⟩

/-- Three options values that are off: delays so long that the first doubling
panics, no attempts allowed but one made, and a first delay over the maximum. -/
theorem schedule_not_kept :
    ¬ ScheduleKept ⟨durationMax, durationMax, none⟩ () 1 ∧
      ¬ ScheduleKept ⟨1, 2, some 0⟩ () 1 ∧ ¬ ScheduleKept ⟨2, 1, none⟩ () 0 := by
  refine ⟨fun h => ?_, fun h => ?_, fun h => ?_⟩
  · have hpanic := (h [.slept, .dialed none] _ rfl (Nat.le_refl 1)).doubling
    exact hpanic (by decide)
  · have hdials := (h [.slept] _ rfl (Nat.zero_le 1)).dials 0 rfl
    exact absurd hdials (by decide)
  · have hbound := (h [] _ rfl (Nat.le_refl 0)).bounded 2 List.mem_cons_self
    exact absurd hbound (by decide)

end NngCore.Proofs
