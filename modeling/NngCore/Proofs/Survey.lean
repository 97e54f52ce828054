import NngCore.Spec.Survey

/-!
# When a survey keeps the current answers

Respondents do not interfere: a pass takes one poll from everyone pending and
drops everyone whose poll found anything at all. So what becomes of a
respondent is decided by the first of its polls that finds something, and
after `t` passes the loop's variables are plain functions of the polls
(`Collected`). A late answer at the front therefore costs the respondent its
current one, unless somebody else keeps the survey waiting until the deadline.
-/

namespace NngCore.Proofs

open NngCore.Lib NngCore.Ref NngCore.Spec

variable {st : Surveyor0State}

/-- The poll of respondent `i` that comes `v` polls from now. -/
def pollAt (rs : List Respondent) (i v : Nat) : RespPoll :=
  match rs[i]? with
  | some r => r.polls (r.polled + v)
  | none => .pending

def Quiet (rs : List Respondent) (i n : Nat) : Prop := ∀ v < n, pollAt rs i v = .pending

instance (rs : List Respondent) (i n : Nat) : Decidable (Quiet rs i n) :=
  inferInstanceAs (Decidable (∀ v < n, _))

theorem quiet_succ {rs : List Respondent} {i n : Nat} :
    Quiet rs i (n + 1) ↔ Quiet rs i n ∧ pollAt rs i n = .pending := by
  constructor
  · intro h
    exact ⟨fun v hv => h v (by omega), h n (Nat.lt_succ_self n)⟩
  · intro h v hv
    rcases Nat.lt_or_eq_of_le (Nat.le_of_lt_succ hv) with hlt | rfl
    · exact h.1 v hlt
    · exact h.2

/-- The first poll that finds something is one poll. -/
theorem quiet_unique {rs : List Respondent} {i u v : Nat} (hu : Quiet rs i u)
    (hv : Quiet rs i v) (hfu : pollAt rs i u ≠ .pending) (hfv : pollAt rs i v ≠ .pending) :
    u = v := by
  rcases Nat.lt_trichotomy u v with h | h | h
  · exact absurd (hv u h) hfu
  · exact h
  · exact absurd (hu v h) hfv

theorem exists_first {rs : List Respondent} {i n : Nat} (h : ¬ Quiet rs i n) :
    ∃ u < n, Quiet rs i u ∧ pollAt rs i u ≠ .pending := by
  induction n with
  | zero => exact absurd (fun v hv => absurd hv (Nat.not_lt_zero v)) h
  | succ n ih =>
      by_cases hq : Quiet rs i n
      · exact ⟨n, Nat.lt_succ_self n, hq, fun hp => h (quiet_succ.mpr ⟨hq, hp⟩)⟩
      · obtain ⟨u, hu, hfirst⟩ := ih hq
        exact ⟨u, Nat.lt_succ_of_lt hu, hfirst⟩

/-! ## The surveyor's own check -/

theorem processResponse_message (s : Surveyor0State) (raw : Message) :
    ∃ res msg, s.processResponse raw = some (res, msg) ∧
      (res = .ok () ↔ Carries s.currentId raw) := by
  simp only [Surveyor0State.processResponse, MessageBuf.body, MessageBuf.trimFront]
  split
  · next hshort =>
      exact ⟨_, _, rfl, nofun, fun h => absurd h.1 (Nat.not_le_of_lt hshort)⟩
  · next hlong =>
      simp only [Message.trimFront_of_le (Nat.le_of_not_lt hlong)]
      split
      · next hne => exact ⟨_, _, rfl, nofun, fun h => absurd h.2 hne⟩
      · next heq =>
          exact ⟨_, _, rfl, fun _ => ⟨Nat.le_of_not_lt hlong, Decidable.not_not.mp heq⟩,
            fun _ => rfl⟩

/-- The response a poll result contributes, if it contributes one. -/
def contribution (st : Surveyor0State) (i : Nat) : RespPoll → Option Response
  | .ok raw =>
      match st.processResponse raw with
      | some (.ok (), msg) => some ⟨i, raw, msg⟩
      | _ => none
  | _ => none

def isErr : RespPoll → Bool
  | .err _ => true
  | _ => false

theorem contribution_eq_some {i : Nat} {result : RespPoll} {x : Response} :
    contribution st i result = some x ↔ x.peer = i ∧ result = .ok x.raw ∧
      st.processResponse x.raw = some (.ok (), x.msg) := by
  cases result with
  | pending => simp [contribution]
  | err e => simp [contribution]
  | ok raw =>
      obtain ⟨res, msg, hproc, _⟩ := processResponse_message st raw
      cases res with
      | error e =>
          simp only [contribution, hproc]
          constructor
          · intro h
            cases h
          · rintro ⟨_, hraw, hok⟩
            cases hraw
            rw [hproc] at hok
            cases hok
      | ok u =>
          simp only [contribution, hproc, Option.some.injEq]
          constructor
          · intro h
            subst h
            exact ⟨rfl, rfl, hproc⟩
          · rintro ⟨rfl, hraw, hok⟩
            cases hraw
            rw [hproc] at hok
            cases hok
            rfl

/-! ## One pass -/

/-- What a pass over `l` does, read at its start. -/
structure Passed (st : Surveyor0State) (l : List Nat) (c c' : Round) : Prop where
  length : c'.respondents.length = c.respondents.length
  advanced : ∀ i ∈ l, ∀ v, pollAt c'.respondents i v = pollAt c.respondents i (v + 1)
  untouched : ∀ i, i ∉ l → c'.respondents[i]? = c.respondents[i]?
  pending : c'.stillPending =
    c.stillPending ++ l.filter fun i => pollAt c.respondents i 0 = .pending
  failed : c'.failed = c.failed ++ l.filter fun i => isErr (pollAt c.respondents i 0)
  responses : c'.responses =
    c.responses ++ l.filterMap fun i => contribution st i (pollAt c.respondents i 0)

/-- Polling one respondent first and then others is one pass over all of them. -/
theorem Passed.cons {i : Nat} {l : List Nat} {c c₁ c' : Round} (hnot : i ∉ l)
    (hone : Passed st [i] c c₁) (hrest : Passed st l c₁ c') :
    Passed st (i :: l) c c' := by
  have hsame : ∀ j ∈ l, ∀ v, pollAt c₁.respondents j v = pollAt c.respondents j v := by
    intro j hj v
    have hne : j ∉ [i] := by
      intro h
      rw [List.mem_singleton.mp h] at hj
      exact hnot hj
    rw [pollAt, hone.untouched j hne, pollAt]
  refine ⟨?_, ?_, ?_, ?_, ?_, ?_⟩
  · rw [hrest.length, hone.length]
  · intro j hj v
    rcases List.mem_cons.mp hj with rfl | hj
    · rw [pollAt, hrest.untouched j hnot]
      exact hone.advanced j (List.mem_singleton_self j) v
    · rw [hrest.advanced j hj, hsame j hj]
  · intro j hj
    have hji : j ∉ [i] := fun h => hj (List.mem_singleton.mp h ▸ List.mem_cons_self)
    rw [hrest.untouched j (fun h => hj (List.mem_cons_of_mem _ h)), hone.untouched j hji]
  · have hcongr : l.filter (fun j => pollAt c₁.respondents j 0 = .pending) =
        l.filter (fun j => pollAt c.respondents j 0 = .pending) :=
      List.filter_congr fun j hj => by rw [hsame j hj]
    rw [hrest.pending, hone.pending, hcongr, List.append_assoc, ← List.filter_append]
    rfl
  · have hcongr : l.filter (fun j => isErr (pollAt c₁.respondents j 0)) =
        l.filter (fun j => isErr (pollAt c.respondents j 0)) :=
      List.filter_congr fun j hj => by rw [hsame j hj]
    rw [hrest.failed, hone.failed, hcongr, List.append_assoc, ← List.filter_append]
    rfl
  · have hcongr : l.filterMap (fun j => contribution st j (pollAt c₁.respondents j 0)) =
        l.filterMap (fun j => contribution st j (pollAt c.respondents j 0)) :=
      List.filterMap_congr fun j hj => by rw [hsame j hj]
    rw [hrest.responses, hone.responses, hcongr, List.append_assoc, ← List.filterMap_append]
    rfl

/-- The variables after one poll, in the words of `Passed`. -/
theorem passed_one {i : Nat} {c c₁ : Round} (hi : i < c.respondents.length)
    (hr : c₁.respondents = c.respondents.set i c.respondents[i].poll.2)
    (hp : c₁.stillPending = c.stillPending ++
      if c.respondents[i].next = .pending then [i] else [])
    (hf : c₁.failed = c.failed ++ if isErr c.respondents[i].next then [i] else [])
    (hs : c₁.responses =
      c.responses ++ (contribution st i c.respondents[i].next).toList) :
    Passed st [i] c c₁ := by
  have hget : c.respondents[i]? = some c.respondents[i] := List.getElem?_eq_getElem hi
  have hnow : pollAt c.respondents i 0 = c.respondents[i].next := by
    rw [pollAt, hget]
    rfl
  refine ⟨?_, ?_, ?_, ?_, ?_, ?_⟩
  · rw [hr, List.length_set]
  · intro j hj v
    rw [List.mem_singleton.mp hj, hr, pollAt, List.getElem?_set_self hi, pollAt, hget]
    show c.respondents[i].polls (c.respondents[i].polled + 1 + v) =
      c.respondents[i].polls (c.respondents[i].polled + (v + 1))
    rw [Nat.add_assoc, Nat.add_comm 1 v]
  · intro j hj
    rw [hr, List.getElem?_set_ne]
    intro h
    exact hj (h ▸ List.mem_singleton_self i)
  · rw [hp, List.filter_cons, hnow, List.filter_nil]
    simp only [decide_eq_true_eq]
  · rw [hf, List.filter_cons, hnow, List.filter_nil]
  · rw [hs, List.filterMap_cons, hnow, List.filterMap_nil]
    cases contribution st i c.respondents[i].next <;> rfl

/-- The head of a pass. -/
theorem pass_cons (st : Surveyor0State) {i : Nat} (l : List Nat) {c : Round}
    (hi : i < c.respondents.length) :
    ∃ c₁, Surveyor0.pass st (i :: l) c = Surveyor0.pass st l c₁ ∧ Passed st [i] c c₁ := by
  have hget : c.respondents[i]? = some c.respondents[i] := List.getElem?_eq_getElem hi
  rw [Surveyor0.pass, hget]
  cases hnext : c.respondents[i].next with
  | pending =>
      simp only [Respondent.poll, hnext]
      exact ⟨_, rfl, passed_one hi rfl (by rw [hnext]; rfl)
        (by rw [hnext]; exact (List.append_nil _).symm)
        (by rw [hnext]; exact (List.append_nil _).symm)⟩
  | err e =>
      simp only [Respondent.poll, hnext]
      exact ⟨_, rfl, passed_one hi rfl (by rw [hnext]; exact (List.append_nil _).symm)
        (by rw [hnext]; rfl) (by rw [hnext]; exact (List.append_nil _).symm)⟩
  | ok raw =>
      obtain ⟨res, msg, hproc, _⟩ := processResponse_message st raw
      cases res with
      | error e =>
          simp only [Respondent.poll, hnext, hproc]
          exact ⟨_, rfl, passed_one hi rfl (by rw [hnext]; exact (List.append_nil _).symm)
            (by rw [hnext]; exact (List.append_nil _).symm)
            (by simp only [hnext, contribution, hproc]; exact (List.append_nil _).symm)⟩
      | ok u =>
          simp only [Respondent.poll, hnext, hproc]
          exact ⟨_, rfl, passed_one hi rfl (by rw [hnext]; exact (List.append_nil _).symm)
            (by rw [hnext]; exact (List.append_nil _).symm)
            (by simp only [hnext, contribution, hproc]; rfl)⟩

theorem pass_spec (st : Surveyor0State) (l : List Nat) (c : Round) (hnodup : l.Nodup)
    (hrange : ∀ i ∈ l, i < c.respondents.length) :
    ∃ c', Surveyor0.pass st l c = some c' ∧ Passed st l c c' := by
  induction l generalizing c with
  | nil => exact ⟨c, rfl, rfl, nofun, fun _ _ => rfl, by simp, by simp, by simp⟩
  | cons i l ih =>
      obtain ⟨hnot, hnodup⟩ := List.nodup_cons.mp hnodup
      obtain ⟨c₁, heq, hone⟩ := pass_cons st l (hrange i List.mem_cons_self)
      obtain ⟨c', hc', hrest⟩ := ih c₁ hnodup (by
        intro j hj
        rw [hone.length]
        exact hrange j (List.mem_cons_of_mem _ hj))
      exact ⟨c', by rw [heq, hc'], hone.cons hnot hrest⟩

/-! ## The loop -/

/-- The loop's variables after `t` passes, told from the respondents and the
list of those the survey was sent to, as they were before the first. -/
structure Collected (st : Surveyor0State) (base : List Respondent) (sentTo : List Nat)
    (t : Nat) (c : Round) : Prop where
  length : c.respondents.length = base.length
  pending : c.stillPending = sentTo.filter fun i => Quiet base i t
  position : ∀ i ∈ c.stillPending, ∀ v, pollAt c.respondents i v = pollAt base i (t + v)
  failed : ∀ i, i ∈ c.failed ↔ i ∈ sentTo ∧ ∃ u < t, Quiet base i u ∧
    isErr (pollAt base i u) = true
  responses : ∀ x, x ∈ c.responses ↔ x.peer ∈ sentTo ∧ ∃ u < t, Quiet base x.peer u ∧
    contribution st x.peer (pollAt base x.peer u) = some x
  once : (c.responses.map Response.peer).Nodup

variable {base : List Respondent} {sentTo : List Nat} {t : Nat}

theorem collected_start (st : Surveyor0State) (base : List Respondent)
    (sentTo : List Nat) : Collected st base sentTo 0 ⟨base, sentTo, [], []⟩ where
  length := rfl
  pending := by
    refine (List.filter_eq_self.mpr fun i _ => ?_).symm
    exact decide_eq_true fun v hv => absurd hv (Nat.not_lt_zero v)
  position i _ v := by rw [Nat.zero_add]
  failed i := ⟨nofun, fun h => by
    obtain ⟨_, u, hu, _⟩ := h
    exact absurd hu (Nat.not_lt_zero u)⟩
  responses x := ⟨nofun, fun h => by
    obtain ⟨_, u, hu, _⟩ := h
    exact absurd hu (Nat.not_lt_zero u)⟩
  once := List.nodup_nil

theorem Collected.mem_pending {c : Round} (h : Collected st base sentTo t c) {i : Nat} :
    i ∈ c.stillPending ↔ i ∈ sentTo ∧ Quiet base i t := by
  rw [h.pending, List.mem_filter, decide_eq_true_eq]

/-- One more poll: what was decided before, and what is decided by it. -/
theorem exists_lt_succ {P : Nat → Prop} {t : Nat} :
    (∃ u < t + 1, P u) ↔ (∃ u < t, P u) ∨ P t := by
  constructor
  · intro h
    obtain ⟨u, hu, hP⟩ := h
    rcases Nat.lt_or_eq_of_le (Nat.le_of_lt_succ hu) with hlt | rfl
    · exact Or.inl ⟨u, hlt, hP⟩
    · exact Or.inr hP
  · intro h
    rcases h with ⟨u, hu, hP⟩ | hP
    · exact ⟨u, Nat.lt_succ_of_lt hu, hP⟩
    · exact ⟨t, Nat.lt_succ_self t, hP⟩

theorem peers_sublist (st : Surveyor0State) (result : Nat → RespPoll) (l : List Nat) :
    ((l.filterMap fun i => contribution st i (result i)).map Response.peer).Sublist l := by
  induction l with
  | nil => exact List.Sublist.slnil
  | cons i l ih =>
      rw [List.filterMap_cons]
      cases hcon : contribution st i (result i) with
      | none => exact ih.cons i
      | some x =>
          have hpeer := (contribution_eq_some.mp hcon).1
          subst hpeer
          exact ih.cons_cons x.peer

theorem Collected.pass {c : Round} (h : Collected st base sentTo t c)
    (hnodup : sentTo.Nodup) (hrange : ∀ i ∈ sentTo, i < base.length) :
    ∃ c', Surveyor0.pass st c.stillPending { c with stillPending := [] } = some c' ∧
      Collected st base sentTo (t + 1) c' := by
  have hsub : ∀ i ∈ c.stillPending, i ∈ sentTo := fun i hi => (h.mem_pending.mp hi).1
  have hnd : c.stillPending.Nodup := by
    rw [h.pending]
    exact hnodup.filter _
  obtain ⟨c', hc', hp⟩ := pass_spec st c.stillPending { c with stillPending := [] } hnd
    (fun i hi => Nat.lt_of_lt_of_eq (hrange i (hsub i hi)) h.length.symm)
  have hnow : ∀ i ∈ c.stillPending, pollAt c.respondents i 0 = pollAt base i t :=
    fun i hi => h.position i hi 0
  refine ⟨c', hc', ?_, ?_, ?_, ?_, ?_, ?_⟩
  · rw [hp.length]
    exact h.length
  · have hcongr : c.stillPending.filter (fun i => pollAt c.respondents i 0 = .pending) =
        c.stillPending.filter (fun i => pollAt base i t = .pending) :=
      List.filter_congr fun i hi => by rw [hnow i hi]
    rw [hp.pending, List.nil_append]
    show c.stillPending.filter (fun i => pollAt c.respondents i 0 = .pending) = _
    rw [hcongr, h.pending, List.filter_filter]
    refine List.filter_congr fun i _ => ?_
    rw [← Bool.decide_and]
    exact decide_eq_decide.mpr (quiet_succ.trans and_comm).symm
  · intro i hi v
    rw [hp.pending, List.nil_append] at hi
    have hmem := (List.mem_filter.mp hi).1
    rw [hp.advanced i hmem]
    show pollAt c.respondents i (v + 1) = _
    rw [h.position i hmem, Nat.add_assoc, Nat.add_comm v 1]
  · intro i
    rw [hp.failed, List.mem_append, List.mem_filter, h.failed, exists_lt_succ, and_or_left,
      h.mem_pending]
    refine or_congr_right ?_
    constructor
    · intro hi
      obtain ⟨hpend, herr⟩ := hi
      exact ⟨hpend.1, hpend.2, by rw [← hnow i (h.mem_pending.mpr hpend)]; exact herr⟩
    · intro hi
      obtain ⟨hmem, hq, herr⟩ := hi
      exact ⟨⟨hmem, hq⟩, by rw [← hnow i (h.mem_pending.mpr ⟨hmem, hq⟩)] at herr; exact herr⟩
  · intro x
    rw [hp.responses, List.mem_append, List.mem_filterMap, h.responses, exists_lt_succ,
      and_or_left]
    refine or_congr_right ?_
    constructor
    · intro hx
      obtain ⟨i, hi, hcon⟩ := hx
      have hpeer := (contribution_eq_some.mp hcon).1
      subst hpeer
      obtain ⟨hmem, hq⟩ := h.mem_pending.mp hi
      exact ⟨hmem, hq, by rw [← hnow _ hi]; exact hcon⟩
    · intro hx
      obtain ⟨hmem, hq, hcon⟩ := hx
      have hi := h.mem_pending.mpr ⟨hmem, hq⟩
      exact ⟨x.peer, hi, by rw [← hnow _ hi] at hcon; exact hcon⟩
  · have hpeers := peers_sublist st (fun i => pollAt c.respondents i 0) c.stillPending
    rw [hp.responses, List.map_append, List.nodup_append]
    refine ⟨h.once, hpeers.nodup hnd, ?_⟩
    intro i hi j hj hij
    obtain ⟨x, hx, rfl⟩ := List.mem_map.mp hi
    -- whoever has contributed is not pending any more
    obtain ⟨_, u, hu, _, hcon⟩ := (h.responses x).mp hx
    have hquiet := (h.mem_pending.mp (hpeers.subset hj)).2
    rw [← hij] at hquiet
    rw [hquiet u hu] at hcon
    cases hcon

/-- The loop makes at most one pass more than the clock lets it go on; it stops
early when nobody is pending, and otherwise has made all of them. -/
theorem collect_spec (hnodup : sentTo.Nodup) (hrange : ∀ i ∈ sentTo, i < base.length)
    (passes : Nat) {c : Round} (h : Collected st base sentTo t c) :
    ∃ c' early T, Surveyor0.collect st passes c = some (c', early) ∧
      Collected st base sentTo T c' ∧ T ≤ t + passes + 1 ∧
      (early = true → c'.stillPending = []) ∧
      (early = false → c'.stillPending ≠ [] ∧ T = t + passes + 1) := by
  induction passes generalizing t c with
  | zero =>
      rw [Surveyor0.collect]
      split
      · next hnil => exact ⟨c, true, t, rfl, h, by omega, fun _ => hnil, nofun⟩
      · obtain ⟨c', hc', h'⟩ := h.pass hnodup hrange
        simp only [hc']
        split
        · next hnil => exact ⟨c', true, t + 1, rfl, h', by omega, fun _ => hnil, nofun⟩
        · next hne => exact ⟨c', false, t + 1, rfl, h', by omega, nofun, fun _ => ⟨hne, rfl⟩⟩
  | succ passes ih =>
      rw [Surveyor0.collect]
      split
      · next hnil => exact ⟨c, true, t, rfl, h, by omega, fun _ => hnil, nofun⟩
      · obtain ⟨c', hc', h'⟩ := h.pass hnodup hrange
        simp only [hc']
        split
        · next hnil => exact ⟨c', true, t + 1, rfl, h', by omega, fun _ => hnil, nofun⟩
        · obtain ⟨c₂, early, T, hrun, h₂, hT, hearly, hlate⟩ := ih h'
          refine ⟨c₂, early, T, hrun, h₂, by omega, hearly, fun he => ?_⟩
          obtain ⟨hne, hTeq⟩ := hlate he
          exact ⟨hne, by omega⟩

/-! ## The broadcast -/

theorem broadcast_respondents (msg : Message) (i : Nat) (rs : List Respondent) :
    (Surveyor0.broadcast msg i rs).2 = rs.map fun r => (r.send msg).2 := by
  induction rs generalizing i with
  | nil => rfl
  | cons r rs ih =>
      simp only [Surveyor0.broadcast, List.map_cons, ih]

theorem mem_broadcast (msg : Message) (i : Nat) (rs : List Respondent) (j : Nat) :
    j ∈ (Surveyor0.broadcast msg i rs).1 ↔
      ∃ r, i ≤ j ∧ rs[j - i]? = some r ∧ r.accepting = true := by
  induction rs generalizing i with
  | nil => simp [Surveyor0.broadcast]
  | cons r rs ih =>
      have hhead : (r.send msg).1 = r.accepting := rfl
      have hrest : (∃ x, i ≤ j ∧ (r :: rs)[j - i]? = some x ∧ x.accepting = true) ↔
          (j = i ∧ r.accepting = true) ∨
            ∃ x, i + 1 ≤ j ∧ rs[j - (i + 1)]? = some x ∧ x.accepting = true := by
        constructor
        · intro h
          obtain ⟨x, hle, hget, hacc⟩ := h
          rcases Nat.lt_or_eq_of_le hle with hlt | rfl
          · have hsub : j - i = (j - (i + 1)) + 1 := by omega
            rw [hsub, List.getElem?_cons_succ] at hget
            exact Or.inr ⟨x, hlt, hget, hacc⟩
          · rw [Nat.sub_self] at hget
            cases hget
            exact Or.inl ⟨rfl, hacc⟩
        · intro h
          rcases h with ⟨rfl, hacc⟩ | ⟨x, hlt, hget, hacc⟩
          · exact ⟨r, Nat.le_refl _, by rw [Nat.sub_self]; rfl, hacc⟩
          · have hsub : j - i = (j - (i + 1)) + 1 := by omega
            exact ⟨x, by omega, by rw [hsub, List.getElem?_cons_succ]; exact hget, hacc⟩
      rw [hrest, ← ih (i + 1)]
      simp only [Surveyor0.broadcast, hhead]
      split
      · next hacc => simp [hacc]
      · next hrej => simp [hrej]

theorem nodup_broadcast (msg : Message) (i : Nat) (rs : List Respondent) :
    (Surveyor0.broadcast msg i rs).1.Nodup := by
  induction rs generalizing i with
  | nil => exact List.nodup_nil
  | cons r rs ih =>
      simp only [Surveyor0.broadcast]
      split
      · refine List.nodup_cons.mpr ⟨fun hmem => ?_, ih (i + 1)⟩
        obtain ⟨_, hle, _⟩ := (mem_broadcast msg (i + 1) rs i).mp hmem
        omega
      · exact ih (i + 1)

/-! ## What the survey returns -/

theorem filter_peer {l : List Response} {x : Response} (hx : x ∈ l)
    (honce : (l.map Response.peer).Nodup) :
    l.filter (fun e => e.peer = x.peer) = [x] := by
  induction l with
  | nil => cases hx
  | cons a l ih =>
      obtain ⟨hnot, honce⟩ := List.nodup_cons.mp honce
      rcases List.mem_cons.mp hx with rfl | hmem
      · have hpos : decide (x.peer = x.peer) = true := decide_eq_true rfl
        rw [List.filter_cons, if_pos hpos]
        congr 1
        refine List.filter_eq_nil_iff.mpr fun e he hpeer => ?_
        rw [← of_decide_eq_true hpeer] at hnot
        exact hnot (List.mem_map_of_mem he)
      · rw [List.filter_cons_of_neg, ih hmem honce]
        intro hpeer
        rw [of_decide_eq_true hpeer] at hnot
        exact hnot (List.mem_map_of_mem hmem)

theorem contribution_ok (i : Nat) {raw : Message} :
    (∃ x, contribution st i (.ok raw) = some x) ↔ Carries st.currentId raw := by
  obtain ⟨res, msg, hproc, hiff⟩ := processResponse_message st raw
  rw [← hiff]
  cases res with
  | error e =>
      simp only [contribution, hproc]
      exact ⟨nofun, nofun⟩
  | ok u =>
      simp only [contribution, hproc]
      exact ⟨fun _ => trivial, fun _ => ⟨_, rfl⟩⟩

/-- Once nobody is pending, those whose answer is missing are those whose first
poll to find anything found a message of another survey. -/
theorem Collected.kept_iff {c : Round} (h : Collected st base sentTo t c)
    (hdone : c.stillPending = []) {i : Nat} (hi : i ∈ sentTo) :
    (i ∈ c.failed ∨ ∃ e, c.responses.filter (fun e => e.peer = i) = [e] ∧
      Carries st.currentId e.raw) ↔
    ∀ u raw, Quiet base i u → pollAt base i u = .ok raw → Carries st.currentId raw := by
  have hbusy : ¬ Quiet base i t := by
    intro hq
    have hmem := h.mem_pending.mpr ⟨hi, hq⟩
    rw [hdone] at hmem
    cases hmem
  obtain ⟨u, hu, hq, hfound⟩ := exists_first hbusy
  constructor
  · intro hkept v raw hqv hv
    have hsame : v = u := quiet_unique hqv hq (by rw [hv]; nofun) hfound
    subst hsame
    rcases hkept with hfail | ⟨e, hfilter, hcarry⟩
    · obtain ⟨_, u', _, hq', herr⟩ := (h.failed i).mp hfail
      have hsame : u' = v :=
        quiet_unique hq' hq (by intro hp; rw [hp] at herr; cases herr) hfound
      rw [hsame, hv] at herr
      cases herr
    · have hmem : e ∈ c.responses.filter (fun e => e.peer = i) := by
        rw [hfilter]
        exact List.mem_singleton_self e
      obtain ⟨hmem, hpeer⟩ := List.mem_filter.mp hmem
      obtain ⟨_, u', _, hq', hcon⟩ := (h.responses e).mp hmem
      rw [of_decide_eq_true hpeer] at hq' hcon
      have hsame : u' = v :=
        quiet_unique hq' hq (by intro hp; rw [hp] at hcon; cases hcon) hfound
      rw [hsame, hv] at hcon
      exact (contribution_ok i).mp ⟨e, hcon⟩
  · intro hfresh
    cases hpoll : pollAt base i u with
    | pending => exact absurd hpoll hfound
    | err e =>
        refine Or.inl ((h.failed i).mpr ⟨hi, u, hu, hq, ?_⟩)
        rw [hpoll]
        rfl
    | ok raw =>
        obtain ⟨x, hx⟩ := (contribution_ok i).mpr (hfresh u raw hq hpoll)
        obtain ⟨hpeer, hraw, _⟩ := contribution_eq_some.mp hx
        subst hpeer
        have hmem : x ∈ c.responses :=
          (h.responses x).mpr ⟨hi, u, hu, hq, by rw [hpoll]; exact hx⟩
        refine Or.inr ⟨x, filter_peer hmem h.once, ?_⟩
        cases hraw
        exact hfresh u x.raw hq hpoll

/-- A survey from any state of the socket, told from the respondents it reaches. -/
theorem survey_collected (s : Surveyor0) (msg : Message) (passes : Nat) :
    ∃ (st : Surveyor0State) (base : List Respondent) (sentTo : List Nat) (c : Round)
      (early : Bool) (T : Nat),
      s.surveyWithTimeout msg passes =
        some ⟨⟨c.respondents, st⟩, sentTo, c.responses, c.failed, early⟩ ∧
      st.currentId = s.state.nextId ∧ Collected st base sentTo T c ∧ T ≤ passes + 1 ∧
      (early = true → c.stillPending = []) ∧
      (early = false → c.stillPending ≠ [] ∧ T = passes + 1) ∧
      (∀ i, i ∈ sentTo ↔ ∃ r, Reaches s i r) ∧
      ∀ i r, Reaches s i r → ∀ v, pollAt base i v = r.polls (r.polled + v) := by
  let outgoing := msg.headerPushBack (u32ToBeBytes s.state.nextId)
  let st : Surveyor0State := ⟨max (s.state.nextId + 1) 1, s.state.nextId⟩
  let sentTo := (Surveyor0.broadcast outgoing 0 s.respondents).1
  let base := (Surveyor0.broadcast outgoing 0 s.respondents).2
  have hbase : base = s.respondents.map fun r => (r.send outgoing).2 :=
    broadcast_respondents outgoing 0 s.respondents
  have hreach : ∀ i, i ∈ sentTo ↔ ∃ r, Reaches s i r := by
    intro i
    refine (mem_broadcast outgoing 0 s.respondents i).trans (exists_congr fun r => ?_)
    rw [Nat.sub_zero, Reaches]
    exact and_iff_right (Nat.zero_le i)
  have hrange : ∀ i ∈ sentTo, i < base.length := by
    intro i hi
    obtain ⟨r, hr⟩ := (hreach i).mp hi
    rw [hbase, List.length_map]
    exact (List.getElem?_eq_some_iff.mp hr.1).1
  obtain ⟨c, early, T, hcollect, h, hT, hearly, hlate⟩ :=
    collect_spec (nodup_broadcast outgoing 0 s.respondents) hrange passes
      (collected_start st base sentTo)
  rw [Nat.zero_add] at hT hlate
  refine ⟨st, base, sentTo, c, early, T, ?_, rfl, h, hT, hearly, hlate, hreach, ?_⟩
  · have hprepare : s.state.prepareSurvey msg = some (s.state.nextId, outgoing, st) := rfl
    simp only [Surveyor0.surveyWithTimeout, hprepare]
    rw [hcollect]
  · intro i r hr v
    rw [pollAt, hbase, List.getElem?_map, hr.1]
    rfl

theorem survey_keepsCurrent (s : Surveyor0) (msg : Message) (passes : Nat) :
    ∃ out, s.surveyWithTimeout msg passes = some out ∧
      (KeepsCurrent s.state.nextId out ↔
        (∃ i r, Reaches s i r ∧ Silent r (passes + 1)) ∨
          ∀ i r, Reaches s i r → ¬ StaleFirst s.state.nextId r (passes + 1)) := by
  obtain ⟨st, base, sentTo, c, early, T, hsurvey, hid, h, hT, hearly, hlate, hreach, hpoll⟩ :=
    survey_collected s msg passes
  have hquiet : ∀ i r n, Reaches s i r → (Quiet base i n ↔ Silent r n) := by
    intro i r n hr
    exact forall_congr' fun v => by rw [hpoll i r hr v]
  refine ⟨_, hsurvey, ?_⟩
  rw [← hid]
  constructor
  · intro hkeeps
    by_contra hcond
    obtain ⟨hnosilent, hstale⟩ := not_or.mp hcond
    -- everybody is heard of in time, so the loop has stopped early
    have hstop : early = true := by
      by_contra hne
      obtain ⟨hpend, hTeq⟩ := hlate (Bool.eq_false_of_not_eq_true hne)
      obtain ⟨i, hi⟩ := List.exists_mem_of_ne_nil _ hpend
      obtain ⟨hmem, hq⟩ := h.mem_pending.mp hi
      obtain ⟨r, hr⟩ := (hreach i).mp hmem
      rw [hTeq] at hq
      exact hnosilent ⟨i, r, hr, (hquiet i r _ hr).mp hq⟩
    refine hstale fun i r hr hst => ?_
    obtain ⟨u, _, hsil, raw, hraw, hnot⟩ := hst
    have hi := (hreach i).mpr ⟨r, hr⟩
    refine hnot ((h.kept_iff (hearly hstop) hi).mp (hkeeps hstop i hi) u raw
      ((hquiet i r u hr).mpr hsil) ?_)
    rw [hpoll i r hr]
    exact hraw
  · intro hcond hstop i hi
    obtain ⟨r, hr⟩ := (hreach i).mp hi
    -- nobody has been quiet through all the passes made
    have hheard : ∀ j ∈ sentTo, ∀ n, T ≤ n → ¬ Quiet base j n := by
      intro j hj n hn hq
      have hmem := h.mem_pending.mpr ⟨hj, fun v hv => hq v (Nat.lt_of_lt_of_le hv hn)⟩
      rw [hearly hstop] at hmem
      cases hmem
    refine (h.kept_iff (hearly hstop) hi).mpr fun u raw hq hu => ?_
    rcases hcond with ⟨j, r', hr', hsil⟩ | hfresh
    · exact absurd ((hquiet j r' _ hr').mpr hsil) (hheard j ((hreach j).mpr ⟨r', hr'⟩) _ hT)
    · have huT : u < T := by
        by_contra hge
        exact hheard i hi u (Nat.le_of_not_lt hge) hq
      by_contra hnot
      refine hfresh i r hr ⟨u, by omega, (hquiet i r u hr).mp hq, raw, ?_, hnot⟩
      rw [← hpoll i r hr]
      exact hu

/-! ## Over every history -/

theorem survey_runs (acts : List SurveyAct) (s : Surveyor0) :
    ∃ s', run Surveyor0.step s acts = some s' := by
  induction acts generalizing s with
  | nil => exact ⟨s, rfl⟩
  | cons a acts ih =>
      have hstep : ∃ s₁, s.step a = some s₁ := by
        cases a with
        | join r => exact ⟨_, rfl⟩
        | survey msg passes =>
            obtain ⟨out, hout, _⟩ := survey_keepsCurrent s msg passes
            exact ⟨out.socket, by rw [Surveyor0.step, hout]; rfl⟩
      obtain ⟨s₁, hs₁⟩ := hstep
      obtain ⟨s', hs'⟩ := ih s₁
      exact ⟨s', run_cons.mpr ⟨s₁, hs₁, hs'⟩⟩

/-- After every history of joins and surveys, the next survey goes through, and
it keeps every current answer exactly when somebody it reached says nothing
until the deadline, or nobody it reached is heard with a late answer first. -/
theorem survey_keepsCurrent_iff (acts : List SurveyAct) :
    ∃ s, run Surveyor0.step .listen acts = some s ∧
      ∀ (msg : Message) (passes : Nat), ∃ out, s.surveyWithTimeout msg passes = some out ∧
        (KeepsCurrent s.state.nextId out ↔
          (∃ i r, Reaches s i r ∧ Silent r (passes + 1)) ∨
            ∀ i r, Reaches s i r → ¬ StaleFirst s.state.nextId r (passes + 1)) := by
  obtain ⟨s, hs⟩ := survey_runs acts .listen
  exact ⟨s, hs, fun msg passes => survey_keepsCurrent s msg passes⟩

/-- A respondent that answers every survey, the first one after its deadline. -/
def lateOnce : Respondent where
  polls n :=
    if n = 1 then .ok ⟨[], [0, 0, 0, 1, 7]⟩
    else if n = 2 then .ok ⟨[], [0, 0, 0, 2, 8]⟩
    else .pending
  polled := 0
  accepts _ := true
  handed := []

/-- Its second answer is there in time, and the second survey stops without it. -/
theorem late_answer_hides_current :
    ∃ s out, run Surveyor0.step .listen [.join lateOnce, .survey .new 0] = some s ∧
      s.surveyWithTimeout .new 5 = some out ∧ ¬ KeepsCurrent s.state.nextId out := by
  refine ⟨_, _, rfl, rfl, fun h => ?_⟩
  rcases h rfl 0 List.mem_cons_self with hfail | ⟨e, he, _⟩
  · exact absurd (show 0 ∈ [] from hfail) List.not_mem_nil
  · exact absurd (show [] = [e] from he) (List.cons_ne_nil e []).symm

end NngCore.Proofs
