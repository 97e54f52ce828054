import NngCore.Proofs.Pull0Fan

/-!
# Every message through the fan once, in its pusher's order

A message moves from its reader's hands to the end of the channel, and from
the front of the channel to the caller. Neither move changes the order of one
reader's messages, because a reader holds at most one and receives the next
only when that one is gone. So for each reader, what was handed out, what is
queued and what it holds are together what it received, and that survives
every step for as long as the fan is alive.

Errors are items of the channel like any other, but no messages: they are in
none of the three parts, and the loop of `pull_any` goes past them.
-/

namespace NngCore.Proofs

open NngCore.Lib NngCore.Ref NngCore.Spec NngCore.Ref.Pull0Fan

/-! ## The three parts -/

theorem queued_cons_ok {x : FanItem} {msg : Message} (h : x.result = .ok msg)
    (items : List FanItem) : queued (x :: items) = (x.reader, msg) :: queued items := by
  refine List.filterMap_cons_some ?_
  rw [h]
  rfl

theorem queued_cons_none {x : FanItem} (h : x.result.toOption = none)
    (items : List FanItem) : queued (x :: items) = queued items := by
  refine List.filterMap_cons_none ?_
  rw [h]
  rfl

theorem queued_append (xs ys : List FanItem) : queued (xs ++ ys) = queued xs ++ queued ys :=
  List.filterMap_append

/-- The message reader `i` holds. -/
def heldBy (readers : List Reader) (i : Nat) : Option Message := (readers[i]?).bind held

theorem source_heldFrom_lt {i k : Nat} (h : i < k) (readers : List Reader) :
    source i (heldFrom k readers) = [] := by
  induction readers generalizing k with
  | nil => rfl
  | cons r readers ih =>
      rw [heldFrom, source_append, source_tagged, if_neg (Nat.ne_of_gt h),
        ih (Nat.lt_succ_of_lt h)]
      rfl

theorem source_heldFrom (k i : Nat) (readers : List Reader) :
    source (k + i) (heldFrom k readers) = (heldBy readers i).toList := by
  induction readers generalizing k i with
  | nil => rfl
  | cons r readers ih =>
      rw [heldFrom, source_append, source_tagged]
      cases i with
      | zero =>
          rw [Nat.add_zero, if_pos rfl, source_heldFrom_lt (Nat.lt_succ_self k),
            List.append_nil]
          rfl
      | succ i =>
          have hcomm : k + (i + 1) = k + 1 + i := by omega
          rw [if_neg (by omega), List.nil_append, hcomm, ih, heldBy, heldBy,
            List.getElem?_cons_succ]

theorem source_flow (s : Pull0Fan) (i : Nat) :
    source i (flow s) =
      source i (s.pulled ++ queued s.chan.items) ++ (heldBy s.readers i).toList := by
  have hheld := source_heldFrom 0 i s.readers
  rw [Nat.zero_add] at hheld
  rw [flow, source_append, hheld]

/-! ## The account of one reader -/

/-- Of every reader: what went past it and what it holds are what it received.
`passed` is what was handed out, and behind it what is queued. -/
def Accounted (passed : List (Nat × Message)) (readers : List Reader) : Prop :=
  ∀ i, source i passed ++ (heldBy readers i).toList =
    ((readers[i]?).map Reader.received).getD []

/-- One reader moves: it receives `ys` and lets go of `xs`. -/
theorem Accounted.move {passed passed' : List (Nat × Message)} {readers : List Reader}
    {k : Nat} {r r' : Reader} (h : Accounted passed readers) (xs ys : List Message)
    (hr : readers[k]? = some r) (hpassed : passed' = passed ++ xs.map (fun msg => (k, msg)))
    (hreceived : r'.received = r.received ++ ys)
    (hheld : (held r).toList ++ ys = xs ++ (held r').toList) :
    Accounted passed' (readers.set k r') := by
  intro i
  have hi := h i
  rw [hpassed, source_append, source_tagged]
  by_cases hki : k = i
  · subst hki
    have hlt : k < readers.length := (List.getElem?_eq_some_iff.mp hr).1
    rw [heldBy, hr] at hi
    rw [heldBy, List.getElem?_set_self hlt, if_pos rfl, List.append_assoc]
    show source k passed ++ (xs ++ (held r').toList) = r'.received
    rw [← hheld, hreceived, ← List.append_assoc]
    exact congrArg (· ++ ys) hi
  · rw [if_neg hki, List.append_nil, heldBy, List.getElem?_set_ne hki]
    exact hi

theorem Accounted.spawn {passed : List (Nat × Message)} {readers : List Reader}
    (h : Accounted passed readers) : Accounted passed (readers ++ [.spawned]) := by
  intro i
  have hi := h i
  rw [heldBy] at hi ⊢
  rcases Nat.lt_trichotomy i readers.length with hlt | heq | hgt
  · rw [List.getElem?_append_left hlt]
    exact hi
  · subst heq
    rw [List.getElem?_eq_none (Nat.le_refl _)] at hi
    rw [List.getElem?_concat_length]
    exact hi
  · rw [List.getElem?_eq_none (by omega)] at hi
    rw [List.getElem?_eq_none (by rw [List.length_append, List.length_singleton]; omega)]
    exact hi

/-! ## One poll -/

theorem recvLoop_nil {s : Pull0Fan} (h : s.chan.items = []) (fuel : Nat) :
    (recvLoop fuel s).2 = s ∧ ∀ msg, (recvLoop fuel s).1 ≠ .ready (some msg) := by
  cases fuel with
  | zero =>
      refine ⟨rfl, fun msg hready => ?_⟩
      cases hready
  | succ fuel =>
      rw [recvLoop, Channel.pollRecv, h]
      by_cases hs : s.chan.senders = 0
      · rw [if_pos hs]
        refine ⟨rfl, fun msg hready => ?_⟩
        cases hready
      · rw [if_neg hs]
        refine ⟨rfl, fun msg hready => ?_⟩
        cases hready

/-- A poll moves messages from the front of the channel to the caller. -/
theorem recvLoop_passed (s : Pull0Fan) (fuel : Nat) :
    (recvLoop fuel s).2.pulled ++ queued (recvLoop fuel s).2.chan.items =
      s.pulled ++ queued s.chan.items ∧
    (recvLoop fuel s).2.readers = s.readers := by
  induction fuel generalizing s with
  | zero => exact ⟨rfl, rfl⟩
  | succ fuel ih =>
      match hitems : s.chan.items with
      | [] =>
          rw [(recvLoop_nil hitems _).1, hitems]
          exact ⟨rfl, rfl⟩
      | ⟨i, .ok msg⟩ :: rest =>
          rw [recvLoop_ok hitems, queued_cons_ok rfl]
          exact ⟨List.append_assoc _ _ _, rfl⟩
      | ⟨i, .error e⟩ :: rest =>
          rw [recvLoop_error hitems, queued_cons_none rfl]
          exact ih { s with chan := { s.chan with items := rest } }

/-- What the caller is answered is what is booked as handed out. -/
theorem recvLoop_pulled (s : Pull0Fan) (fuel : Nat) :
    (recvLoop fuel s).2.pulled.map Prod.snd = s.pulled.map Prod.snd ++
      (match (recvLoop fuel s).1 with
        | .ready (some msg) => [msg]
        | _ => []) := by
  induction fuel generalizing s with
  | zero => exact (List.append_nil _).symm
  | succ fuel ih =>
      match hitems : s.chan.items with
      | [] =>
          obtain ⟨hsame, hnone⟩ := recvLoop_nil hitems (fuel + 1)
          rw [hsame]
          split
          · exact absurd ‹_› (hnone _)
          · exact (List.append_nil _).symm
      | ⟨i, .ok msg⟩ :: rest =>
          rw [recvLoop_ok hitems]
          exact List.map_append
      | ⟨i, .error e⟩ :: rest =>
          rw [recvLoop_error hitems]
          exact ih { s with chan := { s.chan with items := rest } }

/-- The first message in the channel is the answer, whatever errors stand in
front of it. -/
theorem recvLoop_skips {errs rest : List FanItem} {x : FanItem} {msg : Message}
    (herrs : ∀ y ∈ errs, y.result.toOption = none) (hx : x.result = .ok msg) {fuel : Nat}
    (hfuel : errs.length < fuel) {s : Pull0Fan} (hitems : s.chan.items = errs ++ x :: rest) :
    (recvLoop fuel s).1 = .ready (some msg) := by
  induction errs generalizing fuel s with
  | nil =>
      obtain ⟨fuel, rfl⟩ : ∃ n, fuel = n + 1 := ⟨fuel - 1, by omega⟩
      obtain ⟨i, result⟩ := x
      cases hx
      rw [recvLoop_ok hitems]
  | cons y errs ih =>
      obtain ⟨fuel, rfl⟩ : ∃ n, fuel = n + 1 := ⟨fuel - 1, by omega⟩
      obtain ⟨i, result⟩ := y
      cases result with
      | ok msg' => exact nomatch herrs _ List.mem_cons_self
      | error e =>
          rw [recvLoop_error hitems]
          refine ih (fun z hz => herrs z (List.mem_cons_of_mem _ hz)) ?_ rfl
          rw [List.length_cons] at hfuel
          omega

theorem poll_skips {s : Pull0Fan} {errs rest : List FanItem} {x : FanItem} {msg : Message}
    (hitems : s.chan.items = errs ++ x :: rest)
    (herrs : ∀ y ∈ errs, y.result.toOption = none) (hx : x.result = .ok msg) :
    s.poll.1 = .ready (some msg) := by
  refine recvLoop_skips herrs hx ?_ hitems
  rw [hitems, List.length_append]
  omega

/-! ## Steps and runs -/

/-- What went past the readers. -/
def passed (s : Pull0Fan) : List (Nat × Message) := s.pulled ++ queued s.chan.items

theorem passed_append (s : Pull0Fan) (x : FanItem) :
    s.pulled ++ queued (s.chan.items ++ [x]) = passed s ++ queued [x] := by
  rw [queued_append, ← List.append_assoc]
  rfl

theorem held_of_phase {r : Reader} {p : ReaderPhase} (h : r.phase = p) :
    held r = held ⟨p, []⟩ := by
  rw [held, h]
  rfl

theorem accounted_step {s t : Pull0Fan} {a : FanAct}
    (h : s.chan.receiver = true → Accounted (passed s) s.readers) (hmove : FanMoved s a t) :
    t.chan.receiver = true → Accounted (passed t) t.readers := by
  intro halive
  cases hmove with
  | spawned hopen => exact (h hopen).spawn
  | @received i r result hr hp =>
      refine (h halive).move [] result.toOption.toList hr
        (List.append_nil _).symm rfl ?_
      rw [held_of_phase hp]
      cases result with
      | ok msg => rfl
      | error e => rfl
  | @forwarded i r msg hr hp hopen hroom =>
      refine (h hopen).move [msg] [] hr (passed_append s ⟨i, .ok msg⟩)
        (List.append_nil _).symm ?_
      rw [held_of_phase hp]
      rfl
  | @failed i r e hr hp hopen hroom =>
      refine (h hopen).move [] [] hr (passed_append s ⟨i, .error e⟩)
        (List.append_nil _).symm ?_
      rw [held_of_phase hp]
      rfl
  | abandoned hr hp hgone =>
      rw [show s.chan.receiver = true from halive] at hgone
      cases hgone
  | cancelled hr hp hgone =>
      rw [show s.chan.receiver = true from halive] at hgone
      cases hgone
  | polled ha hcall =>
      obtain ⟨hpassed, hreaders⟩ := recvLoop_passed s (s.chan.items.length + 1)
      show Accounted ((recvLoop _ s).2.pulled ++ queued (recvLoop _ s).2.chan.items)
        (recvLoop _ s).2.readers
      rw [hpassed, hreaders]
      exact h (receiver_of_callable hcall)
  | dropped hopen => cases halive

theorem accounted_start {w : PointerWidth} {s : Pull0Fan} (h : Started w s) :
    Accounted (passed s) s.readers := by
  obtain ⟨capacity, awaited, -, rfl⟩ := started_empty h
  exact fun _ => rfl

theorem accounted_run {w : PointerWidth} {s₀ s : Pull0Fan} {acts : List FanAct}
    (hstart : Started w s₀) (hrun : run step s₀ acts = some s)
    (halive : s.chan.receiver = true) : Accounted (passed s) s.readers :=
  run_invariant (I := fun u => u.chan.receiver = true → Accounted (passed u) u.readers)
    (fun _ => accounted_start hstart)
    (fun _ _ _ hu hstep => accounted_step hu (fan_moved hstep)) hrun halive

theorem forwardedOnce_of_accounted {s : Pull0Fan} (h : Accounted (passed s) s.readers) :
    ForwardedOnce s := by
  have hordered : ∀ i, source i (flow s) = receivedBy s i := by
    intro i
    rw [source_flow, receivedBy, List.getElem?_map]
    exact h i
  exact ⟨interleaving_of_source hordered, hordered⟩

/-! ## The other readers -/

/-- What reader `i` does on its own: it moves, perhaps putting an item of its
into the channel. -/
theorem reader_moved {s t : Pull0Fan} {a : FanAct} {i : Nat}
    (ha : a = .sent i ∨ a = .cancelled i ∨ ∃ e, a = .received i (.error e))
    (hmove : FanMoved s a t) :
    ∃ r items, t.readers = s.readers.set i r ∧ t.pulled = s.pulled ∧
      t.chan.items = s.chan.items ++ items ∧ ∀ x ∈ items, x.reader = i := by
  have hnil := (List.append_nil s.chan.items).symm
  rcases ha with rfl | rfl | ⟨e, rfl⟩
  · cases hmove with
    | forwarded hr hp hopen hroom =>
        exact ⟨_, [⟨i, _⟩], rfl, rfl, rfl, List.forall_mem_singleton.mpr rfl⟩
    | failed hr hp hopen hroom =>
        exact ⟨_, [⟨i, _⟩], rfl, rfl, rfl, List.forall_mem_singleton.mpr rfl⟩
    | abandoned hr hp hgone => exact ⟨_, [], rfl, rfl, hnil, nofun⟩
    | polled ha => rcases ha with h | h <;> cases h
  · cases hmove with
    | cancelled hr hp hgone => exact ⟨_, [], rfl, rfl, hnil, nofun⟩
    | polled ha => rcases ha with h | h <;> cases h
  · cases hmove with
    | received hr hp => exact ⟨_, [], rfl, rfl, hnil, nofun⟩
    | polled ha => rcases ha with h | h <;> cases h

/-- The other readers are where they were, and so are their messages. -/
theorem reader_apart {s t : Pull0Fan} {a : FanAct} {i j : Nat}
    (ha : a = .sent i ∨ a = .cancelled i ∨ ∃ e, a = .received i (.error e))
    (hmove : FanMoved s a t) (hj : j ≠ i) :
    t.readers[j]? = s.readers[j]? ∧ source j (flow t) = source j (flow s) := by
  obtain ⟨r, items, hreaders, hpulled, hitems, hown⟩ := reader_moved ha hmove
  have hsame : t.readers[j]? = s.readers[j]? := by
    rw [hreaders, List.getElem?_set_ne hj.symm]
  have hnone : source j (queued items) = [] := by
    refine List.filterMap_eq_nil_iff.mpr fun x hx => ?_
    obtain ⟨y, hy, hxy⟩ := List.mem_filterMap.mp hx
    obtain ⟨msg, -, rfl⟩ := Option.map_eq_some_iff.mp hxy
    exact if_neg fun h => hj (h.symm.trans (hown y hy))
  refine ⟨hsame, ?_⟩
  rw [source_flow, source_flow, heldBy, heldBy, hsame, hpulled, hitems, queued_append,
    source_append, source_append, source_append, hnone, List.append_nil]

theorem notSuppressed (s : Pull0Fan) : NotSuppressed s where
  skipped errs x msg rest hitems herrs hx := by
    have hpoll := poll_skips hitems herrs hx
    refine ⟨?_, hpoll⟩
    show s.poll.1.map _ = _
    rw [hpoll]
    rfl
  apart i a t ha hstep j hj := reader_apart ha (fan_moved hstep) hj

/-- What `pull_any` answers is what its caller was given. -/
theorem pulled_step {s t : Pull0Fan} (h : step s .pullAny = some t) :
    t.pulled.map Prod.snd = s.pulled.map Prod.snd ++ given s.pullAny.1 := by
  rw [step] at h
  split at h
  · cases h
    have hpulled := recvLoop_pulled s (s.chan.items.length + 1)
    show s.poll.2.pulled.map Prod.snd = s.pulled.map Prod.snd ++ given (s.poll.1.map _)
    rw [poll, hpulled]
    cases (recvLoop (s.chan.items.length + 1) s).1 with
    | pending => rfl
    | ready answer => cases answer <;> rfl
  · cases h

/-! ## The fan forwards -/

/-- As long as a fan is alive, the messages handed out, queued and held are an
interleaving of what its readers received, each reader's in its order; no
failure keeps back the message of another reader; and an answer of `pull_any`
is the next message handed out. -/
theorem fan_forwards_once {w : PointerWidth} {s₀ s : Pull0Fan} {acts : List FanAct}
    (hstart : Started w s₀) (hrun : run step s₀ acts = some s)
    (halive : s.chan.receiver = true) :
    ForwardedOnce s ∧ NotSuppressed s ∧
      ∀ t, step s .pullAny = some t →
        t.pulled.map Prod.snd = s.pulled.map Prod.snd ++ given s.pullAny.1 :=
  ⟨forwardedOnce_of_accounted (accounted_run hstart hrun halive), notSuppressed s,
    fun _ => pulled_step⟩

/-! Two pushers in a fan that had none: the first fails while the second holds
a message. -/

def twoPushers : Pull0Fan := ⟨⟨64, [], 1, true⟩, [], 0, 0, []⟩

def firstFails : List FanAct :=
  [.addPusher, .addPusher, .received 0 (.ok ⟨[], [1]⟩), .received 1 (.ok ⟨[], [2]⟩), .sent 0,
    .received 0 (.error .connectionClosed), .pullAny, .sent 0]

def firstFailed : Pull0Fan :=
  ⟨⟨64, [⟨0, .error .connectionClosed⟩], 2, true⟩,
    [⟨.exited, [⟨[], [1]⟩]⟩, ⟨.sending (.ok ⟨[], [2]⟩), [⟨[], [2]⟩]⟩], 2, 0, [(0, ⟨[], [1]⟩)]⟩

theorem fan_forwards_once_first_failed :
    Pull0Fan.bind .w64 = some twoPushers ∧ run step twoPushers firstFails = some firstFailed ∧
      ForwardedOnce firstFailed ∧ NotSuppressed firstFailed ∧
      ∀ t, step firstFailed .pullAny = some t →
        t.pulled.map Prod.snd =
          firstFailed.pulled.map Prod.snd ++ given firstFailed.pullAny.1 :=
  have hstart : Pull0Fan.bind .w64 = some twoPushers := rfl
  have hrun : run step twoPushers firstFails = some firstFailed := rfl
  ⟨hstart, hrun, fan_forwards_once (.inl hstart) hrun rfl⟩

end NngCore.Proofs
