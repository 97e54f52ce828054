import NngCore.Proofs.Backoff
import NngCore.Spec.GivingUp

/-!
# Which operations report that they gave up

The redial loop inside a call is the loop of `Backoff`, step for step, so a
call that loses `k` dials stands where the loop stands after `k` failures. It
ends at failure `m`, unless a doubling panics on the way, and what is returned
there is the operation's own choice: the two that pass the loop's error on
return `ReconnectExhausted`, the two that answer with the failure that made
them redial never do. A dial that gets through before is the same for all four.
-/

namespace NngCore.Proofs

open NngCore.Lib NngCore.Ref NngCore.Spec

section Call

variable {T S R A : Type} {op : RedialingOp S R A} {opts : ReconnectOptions}

/-- A call in its redial loop, asleep after `k` failures. -/
def asleep (s : Redialing T S A) (opts : ReconnectOptions) (cause : NngError) (k : Nat) :
    Redialing T S A :=
  { s with
    phase := .redialing cause (afterFailures opts s.transport k)
    dials := s.dials + k }

theorem run_armed {s : Redialing T S A} (h : Armed op opts s) (e : NngError)
    {t : Redialing T S A} {acts : List (RedialingAct T R)} :
    run (Redialing.step op) s (.result (.error e) :: acts) = some t ↔
      run (Redialing.step op) (asleep s opts e 0) acts = some t := by
  obtain ⟨⟨retried, hphase, hretry⟩, haddr, hopts⟩ := h
  obtain ⟨addr, haddr⟩ := Option.ne_none_iff_exists'.mp haddr
  have hstep : s.step op (.result (.error e)) = some (asleep s opts e 0) := by
    simp only [Redialing.step, hphase, Redialing.settle, hretry, haddr, hopts]
    rw [asleep, start_eq, haddr, hopts, Nat.add_zero]
  rw [run_cons]
  constructor
  · rintro ⟨u, hu, hrest⟩
    rw [hstep] at hu
    cases hu
    exact hrest
  · exact fun hrest => ⟨_, hstep, hrest⟩

theorem failed_dials (loop : Reconnect T) (r : Redial) :
    (loop.failed r).dials = loop.dials := by
  simp only [Reconnect.failed]
  split <;> rfl

/-- The sleep is over. -/
theorem step_asleep (op : RedialingOp S R A) (s : Redialing T S A)
    (opts : ReconnectOptions) (e : NngError) (k : Nat) :
    (asleep s opts e k).step op (.redial .slept) =
      some { s with
        phase := .redialing e (dialingAfter opts s.transport k)
        dials := s.dials + (k + 1) } := by
  have hdials : k + 1 - k = 1 := Nat.add_sub_cancel_left k 1
  show some _ = some _
  simp only [asleep, afterFailures, dialingAfter, Redialing.redialed, hdials, Nat.add_assoc]

/-- One more dial fails. -/
theorem run_asleep_fail (op : RedialingOp S R A) (s : Redialing T S A)
    (opts : ReconnectOptions) (e : NngError) (k : Nat) :
    run (Redialing.step op) (asleep s opts e k) [.redial .slept, .redial (.dialed none)] =
      some ({ s with dials := s.dials + (k + 1) }.redialed op e
        ((dialingAfter opts s.transport k).failed
          ⟨sleepBefore opts k, UInt32.ofNat k, true⟩)) := by
  refine run_cons.mpr ⟨_, step_asleep op s opts e k, run_singleton.mpr ?_⟩
  show some _ = some _
  rw [failed_dials, Nat.sub_self]
  rfl

/-- One more dial gets through. -/
theorem run_asleep_connect (op : RedialingOp S R A) (s : Redialing T S A)
    (opts : ReconnectOptions) (e : NngError) (k : Nat) (new : T) :
    run (Redialing.step op) (asleep s opts e k)
        [.redial .slept, .redial (.dialed (some new))] =
      some { s with
        transport := new
        phase := .operating true
        dials := s.dials + (k + 1) } := by
  refine run_cons.mpr ⟨_, step_asleep op s opts e k, run_singleton.mpr ?_⟩
  show some _ = some _
  simp only [dialingAfter, afterFailures, Redialing.redialed, Nat.sub_self, Nat.add_zero]

theorem dialsFailing_succ (k : Nat) :
    (dialsFailing (k + 1) : List (RedialingAct T R)) =
      dialsFailing k ++ [.redial .slept, .redial (.dialed none)] := by
  simp only [dialsFailing, List.replicate_succ', List.flatten_append, List.flatten_cons,
    List.flatten_nil, List.append_nil]

/-- The loop gets through `k` failures with its numbers intact. -/
def Lasts (opts : ReconnectOptions) (k : Nat) : Prop :=
  ∀ i < k, i + 1 < 2 ^ 32 ∧ GoesOn opts i ∧ sleepBefore opts i * 2 ≤ durationMax

theorem run_failing (op : RedialingOp S R A) (s : Redialing T S A) (e : NngError) {k : Nat}
    (h : Lasts opts k) :
    run (Redialing.step op) (asleep s opts e 0) (dialsFailing k) =
      some (asleep s opts e k) := by
  induction k with
  | zero => rfl
  | succ k ih =>
      obtain ⟨hcount, hgo, hfit⟩ := h k (Nat.lt_succ_self k)
      rw [dialsFailing_succ]
      refine run_append.mpr ⟨_, ih fun i hi => h i (Nat.lt_succ_of_lt hi), ?_⟩
      rw [run_asleep_fail, failed_again hcount hgo hfit]
      rfl

/-- The call that loses its last dial returns what the operation makes of it. -/
theorem run_exhausted (op : RedialingOp S R A) (s : Redialing T S A) (e : NngError) {k : Nat}
    (h : Lasts opts k) (hcount : k + 1 < 2 ^ 32) (hstop : ¬ GoesOn opts k) :
    run (Redialing.step op) (asleep s opts e 0) (dialsFailing (k + 1)) =
      some { s with
        phase := .done (.error (op.giveUp e .reconnectExhausted))
        dials := s.dials + (k + 1) } := by
  rw [dialsFailing_succ]
  refine run_append.mpr ⟨_, run_failing op s e h, ?_⟩
  rw [run_asleep_fail, failed_exhausted hcount hstop]
  rfl

/-- The call whose next doubling is too much is stuck there. -/
theorem run_doubling_panics (op : RedialingOp S R A) (s : Redialing T S A) (e : NngError)
    {k : Nat} (h : Lasts opts k) (hcount : k + 1 < 2 ^ 32) (hgo : GoesOn opts k)
    (hbig : ¬ sleepBefore opts k * 2 ≤ durationMax) :
    ∃ t, run (Redialing.step op) (asleep s opts e 0) (dialsFailing (k + 1)) = some t ∧
      t.phase = .panicked := by
  rw [dialsFailing_succ]
  refine ⟨_, run_append.mpr ⟨_, run_failing op s e h, run_asleep_fail op s opts e k⟩, ?_⟩
  simp only [Redialing.redialed, failed_panicked hcount hgo hbig]

end Call

/-! ## Each operation -/

section Operation

variable {S R A : Type} {opts : ReconnectOptions} {max : UInt32}

theorem goesOn_iff (hmax : opts.maxAttempts = some max) (i : Nat) :
    GoesOn opts i ↔ i + 1 < max.toNat := by
  rw [GoesOn, hmax]
  constructor
  · exact fun h => h max rfl
  · rintro h _ ⟨rfl⟩
    exact h

theorem lasts_of_fit (hmax : opts.maxAttempts = some max) {k : Nat} (hk : k < max.toNat)
    (hfit : ∀ i < k, sleepBefore opts i * 2 ≤ durationMax) : Lasts opts k := by
  intro i hi
  have hbig : max.toNat < 2 ^ 32 := max.toNat_lt
  exact ⟨by omega, (goesOn_iff hmax i).mpr (by omega), hfit i hi⟩

/-- All the dials that are allowed fail. -/
theorem run_all_failing {T : Type} (op : RedialingOp S R A) (s : Redialing T S A)
    (e : NngError) (hmax : opts.maxAttempts = some max) (hpos : 1 ≤ max.toNat)
    (hfit : DoublingsFit opts max max.toNat) :
    run (Redialing.step op) (asleep s opts e 0) (dialsFailing max.toNat) =
      some { s with
        phase := .done (.error (op.giveUp e .reconnectExhausted))
        dials := s.dials + max.toNat } := by
  have hbig : max.toNat < 2 ^ 32 := max.toNat_lt
  obtain ⟨k, hk⟩ : ∃ k, max.toNat = k + 1 := ⟨max.toNat - 1, by omega⟩
  have hstop : ¬ GoesOn opts k := by
    rw [goesOn_iff hmax]
    omega
  have hlasts : Lasts opts k :=
    lasts_of_fit hmax (by omega) fun i hi => hfit i (by omega) (by omega)
  rw [hk]
  exact run_exhausted op s e hlasts (by omega) hstop

theorem reportsOutcome_of_fit (op : RedialingOp S R A) (hmax : opts.maxAttempts = some max)
    (hpos : 1 ≤ max.toNat) {failed : Nat} (hle : failed ≤ max.toNat)
    (hfit : DoublingsFit opts max failed)
    (hgive : failed < max.toNat ∨ ∀ e, op.giveUp e .reconnectExhausted = .reconnectExhausted) :
    ReportsOutcome op opts max.toNat failed := by
  intro T s e h
  split
  · next hall =>
      subst hall
      have hrun := run_all_failing op s e hmax hpos hfit
      have hgive' := hgive.resolve_left (Nat.lt_irrefl _)
      refine ⟨_, (run_armed h e).mpr hrun, ?_, rfl, rfl, ⟨rfl, rfl, rfl⟩⟩
      simp only [hgive']
  · next hne =>
      intro new
      have hlasts : Lasts opts failed :=
        lasts_of_fit hmax (by omega) fun i hi => hfit i hi (by omega)
      exact ⟨_, (run_armed h e).mpr (run_append.mpr
        ⟨_, run_failing op s e hlasts, run_asleep_connect op s opts e failed new⟩),
        rfl, rfl, rfl, ⟨rfl, rfl, rfl⟩⟩

/-- A socket about to redial under `opts`. -/
def armedSocket (state : S) (A : Type) (opts : ReconnectOptions) : Redialing Unit S A :=
  ⟨(), state, some "tcp://127.0.0.1:5555", some opts, .operating false, 0⟩

theorem armed_armedSocket (op : RedialingOp S R A) (state : S) :
    Armed op opts (armedSocket state A opts) :=
  ⟨⟨false, rfl, Bool.and_false _⟩, nofun, rfl⟩

/-- A call stays where its loop panicked. -/
theorem stuck_of_panicked {T : Type} {op : RedialingOp S R A} {s t : Redialing T S A}
    {acts : List (RedialingAct T R)} (h : s.phase = .panicked) (hne : acts ≠ [])
    (hrun : run (Redialing.step op) s acts = some t) : False := by
  cases acts with
  | nil => exact hne rfl
  | cons a acts =>
      obtain ⟨u, hu, -⟩ := run_cons.mp hrun
      simp only [Redialing.step, h] at hu
      cases hu

theorem dialsFailing_add (j k : Nat) :
    (dialsFailing (j + k) : List (RedialingAct T R)) = dialsFailing j ++ dialsFailing k := by
  rw [dialsFailing, List.replicate_add, List.flatten_append]
  rfl

theorem dialsFailing_ne_nil {k : Nat} (h : 0 < k) :
    (dialsFailing k : List (RedialingAct T R)) ≠ [] := by
  obtain ⟨j, rfl⟩ : ∃ j, k = j + 1 := ⟨k - 1, by omega⟩
  rw [dialsFailing_succ]
  exact fun hnil => List.cons_ne_nil _ _ (List.append_eq_nil_iff.mp hnil).2

/-- A run of redials comes past every doubling on its way. -/
theorem fit_of_run {op : RedialingOp S R A} (state : S) (hmax : opts.maxAttempts = some max)
    {e : NngError} {failed : Nat} {rest : List (RedialingAct Unit R)} {t : Redialing Unit S A}
    (hle : failed ≤ max.toNat) (hrest : failed < max.toNat → rest ≠ [])
    (hrun : run (Redialing.step op) (asleep (armedSocket state A opts) opts e 0)
      (dialsFailing failed ++ rest) = some t) : DoublingsFit opts max failed := by
  intro i
  induction i using Nat.strong_induction_on with
  | h i ih =>
      intro hi hmore
      by_contra hbig
      have hlt : max.toNat < 2 ^ 32 := max.toNat_lt
      have hlasts : Lasts opts i :=
        lasts_of_fit hmax (by omega) fun j hj => ih j hj (by omega) (by omega)
      obtain ⟨u, hu, hpanic⟩ := run_doubling_panics op (armedSocket state A opts) e hlasts
        (by omega) ((goesOn_iff hmax i).mpr hmore) hbig
      -- what is left of the run behind the doubling is not nothing
      obtain ⟨k, rfl⟩ : ∃ k, failed = i + 1 + k := ⟨failed - (i + 1), by omega⟩
      rw [dialsFailing_add, List.append_assoc] at hrun
      obtain ⟨u', hu', hlast⟩ := run_append.mp hrun
      cases hu.symm.trans hu'
      refine stuck_of_panicked hpanic (fun hnil => ?_) hlast
      obtain ⟨hnone, hnil⟩ := List.append_eq_nil_iff.mp hnil
      cases k with
      | zero => exact hrest (by omega) hnil
      | succ k => exact dialsFailing_ne_nil (Nat.succ_pos k) hnone

theorem fit_of_reportsOutcome {op : RedialingOp S R A} (state : S)
    (hmax : opts.maxAttempts = some max) {failed : Nat} (hle : failed ≤ max.toNat)
    (h : ReportsOutcome op opts max.toNat failed) : DoublingsFit opts max failed := by
  have harmed : Armed op opts (armedSocket state A opts) := armed_armedSocket op state
  have hout := h Unit _ .connectionClosed harmed
  split at hout
  · next hall =>
      obtain ⟨t, hrun, -⟩ := hout
      have hrun' := (run_armed harmed _).mp hrun
      rw [← List.append_nil (dialsFailing failed)] at hrun'
      exact fit_of_run state hmax hle (fun hlt => absurd hall (Nat.ne_of_lt hlt)) hrun'
  · obtain ⟨t, hrun, -⟩ := hout ()
    exact fit_of_run state hmax hle (fun _ => List.cons_ne_nil _ _)
      ((run_armed harmed _).mp hrun)

theorem giveUp_of_reportsOutcome {op : RedialingOp S R A} (state : S)
    (hmax : opts.maxAttempts = some max) (hpos : 1 ≤ max.toNat)
    (h : ReportsOutcome op opts max.toNat max.toNat) (e : NngError) :
    op.giveUp e .reconnectExhausted = .reconnectExhausted := by
  have hfit := fit_of_reportsOutcome state hmax (Nat.le_refl _) h
  have harmed : Armed op opts (armedSocket state A opts) := armed_armedSocket op state
  have hout := h Unit _ e harmed
  rw [if_pos rfl] at hout
  obtain ⟨t, hrun, hdone, -⟩ := hout
  have hrun' := run_all_failing op (armedSocket state A opts) e hmax hpos hfit
  have hsame := Option.some.inj (((run_armed harmed e).mp hrun).symm.trans hrun')
  rw [hsame] at hdone
  exact Except.error.inj (RedialingPhase.done.inj hdone)

end Operation

/-- The raw operations report it only if a dial gets through. -/
theorem raw_reports_iff {opts : ReconnectOptions} {max : UInt32}
    (hmax : opts.maxAttempts = some max) (hpos : 1 ≤ max.toNat) {failed : Nat}
    (hle : failed ≤ max.toNat) {R A : Type} (op : ∀ S, RedialingOp S R A)
    (hgive : ∀ S e e', (op S).giveUp e e' = e) :
    (∀ S, ReportsOutcome (op S) opts max.toNat failed) ↔
      failed < max.toNat ∧ DoublingsFit opts max failed := by
  constructor
  · intro h
    refine ⟨Nat.lt_of_le_of_ne hle ?_, fit_of_reportsOutcome () hmax hle (h Unit)⟩
    rintro rfl
    have htold := giveUp_of_reportsOutcome () hmax hpos (h Unit) .connectionClosed
    rw [hgive] at htold
    cases htold
  · rintro ⟨hlt, hfit⟩ S
    exact reportsOutcome_of_fit (op S) hmax hpos hle hfit (.inl hlt)

/-- Those that pass the loop's error on report it, as long as no doubling panics. -/
theorem passing_reports_iff {opts : ReconnectOptions} {max : UInt32}
    (hmax : opts.maxAttempts = some max) (hpos : 1 ≤ max.toNat) {failed : Nat}
    (hle : failed ≤ max.toNat) {S R A : Type} {op : RedialingOp S R A} (state : S)
    (hgive : ∀ e e', op.giveUp e e' = e') :
    ReportsOutcome op opts max.toNat failed ↔ DoublingsFit opts max failed :=
  ⟨fit_of_reportsOutcome state hmax hle,
    fun hfit => reportsOutcome_of_fit op hmax hpos hle hfit (.inr fun e => hgive e _)⟩

/-- What becomes of the redials is reported, for each number of dials that fail, as
long as no doubling on the way panics; but that all failed is reported by
`Sub0::next` and `Respondent0::receive` only. -/
theorem givesUpAsSuch_iff (op : SocketOp) (opts : ReconnectOptions) (max : UInt32)
    (failed : Nat) (hmax : opts.maxAttempts = some max) (hpos : 1 ≤ max.toNat)
    (hle : failed ≤ max.toNat) :
    GivesUpAsSuch opts max.toNat failed op ↔
      (failed < max.toNat ∨ op = .next ∨ op = .receive) ∧ DoublingsFit opts max failed := by
  cases op with
  | sendRaw =>
      refine (raw_reports_iff hmax hpos hle .sendRaw fun _ _ _ => rfl).trans ?_
      simp only [reduceCtorEq, or_false]
  | recvRaw =>
      refine (raw_reports_iff hmax hpos hle .recvRaw fun _ _ _ => rfl).trans ?_
      simp only [reduceCtorEq, or_false]
  | next =>
      refine (passing_reports_iff hmax hpos hle Sub0State.new fun _ _ => rfl).trans ?_
      simp only [true_or, or_true, true_and]
  | receive =>
      refine (passing_reports_iff hmax hpos hle () fun _ _ => rfl).trans ?_
      simp only [or_true, true_and]

theorem givesUpAsSuch_iff_next_twice : GivesUpAsSuch ⟨1, 4, some 2⟩ 2 2 .next := by
  refine (givesUpAsSuch_iff .next ⟨1, 4, some 2⟩ 2 2 rfl (by decide) (by decide)).mpr
    ⟨.inr (.inl rfl), ?_⟩
  intro i _ hi
  have hzero : i = 0 := Nat.lt_one_iff.mp (Nat.lt_of_succ_lt_succ hi)
  subst hzero
  decide

/-- Both redials of a `recv_raw` fail, and the peer's hanging up is what it
returns. -/
theorem recvRaw_hides_giving_up :
    (∃ t, run (Redialing.step (.recvRaw Unit)) (armedSocket () Message ⟨1, 4, some 2⟩)
        (.result (.error .connectionClosed) :: dialsFailing 2) = some t ∧
      t.phase = .done (.error .connectionClosed)) ∧
    ¬ GivesUpAsSuch ⟨1, 4, some 2⟩ 2 2 .recvRaw := by
  refine ⟨⟨_, rfl, rfl⟩, fun h => ?_⟩
  have hmax : (⟨1, 4, some 2⟩ : ReconnectOptions).maxAttempts = some 2 := rfl
  have hgive := giveUp_of_reportsOutcome () hmax (by decide) (h Unit) .connectionClosed
  cases hgive

end NngCore.Proofs
