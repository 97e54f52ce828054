import NngCore.Spec.Pipeline

/-!
# A fan's caller is never told that the input has ended

`pull_any` gives `NoPeers`, and the stream ends, when the channel is closed,
which takes every sending handle to be gone. The readers' handles go as the
readers exit. The fan's own, kept to be cloned for the next pusher, goes with
the fan: as long as there is somebody to ask, the handles are the live readers
and one more.

So the calls say nothing wrong before the end, and nothing at all from then
on: in an ended state no reader moves, a poll changes nothing, and the call
waits for good. Every fan gets there, from wherever it is, once its pushers
have failed and the caller has taken what was queued.
-/

namespace NngCore.Proofs

open NngCore.Lib NngCore.Ref NngCore.Spec NngCore.Ref.Pull0Fan

theorem receiver_of_callable {s : Pull0Fan} (h : s.callable = true) :
    s.chan.receiver = true :=
  (Bool.and_eq_true_iff.mp h).1

/-! ## One poll -/

theorem recvLoop_open {s : Pull0Fan} (h : s.chan.items = []) (hs : s.chan.senders ≠ 0)
    (fuel : Nat) : recvLoop fuel s = (.pending, s) := by
  cases fuel with
  | zero => rfl
  | succ fuel => rw [recvLoop, Channel.pollRecv_open h hs]

theorem recvLoop_ok {s : Pull0Fan} {i : Nat} {msg : Message} {rest : List FanItem}
    (h : s.chan.items = ⟨i, .ok msg⟩ :: rest) (fuel : Nat) :
    recvLoop (fuel + 1) s = (.ready (some msg),
      { s with chan := { s.chan with items := rest }, pulled := s.pulled ++ [(i, msg)] }) := by
  rw [recvLoop, Channel.pollRecv_cons h]

theorem recvLoop_error {s : Pull0Fan} {i : Nat} {e : NngError} {rest : List FanItem}
    (h : s.chan.items = ⟨i, .error e⟩ :: rest) (fuel : Nat) :
    recvLoop (fuel + 1) s = recvLoop fuel
      { s with chan := { s.chan with items := rest } } := by
  rw [recvLoop, Channel.pollRecv_cons h]

/-- `t` is `s` after items were taken out of the channel. -/
structure Taken (s t : Pull0Fan) : Prop where
  readers : t.readers = s.readers
  n : t.n = s.n
  awaited : t.awaited = s.awaited
  chan : t.chan = { s.chan with items := t.chan.items }
  fewer : t.chan.items.length ≤ s.chan.items.length

theorem Taken.refl (s : Pull0Fan) : Taken s s := ⟨rfl, rfl, rfl, rfl, Nat.le_refl _⟩

theorem Taken.trans {s t u : Pull0Fan} (h : Taken s t) (h' : Taken t u) : Taken s u where
  readers := h'.readers.trans h.readers
  n := h'.n.trans h.n
  awaited := h'.awaited.trans h.awaited
  chan := by rw [h'.chan, h.chan]
  fewer := Nat.le_trans h'.fewer h.fewer

theorem Taken.callable {s t : Pull0Fan} (h : Taken s t) : t.callable = s.callable := by
  rw [Pull0Fan.callable, Pull0Fan.callable, h.n, h.awaited, h.chan]

/-- As long as a handle is left, a poll takes items out or waits; it never
finds the end. -/
theorem recvLoop_taken {s : Pull0Fan} (hs : s.chan.senders ≠ 0) (fuel : Nat) :
    Taken s (recvLoop fuel s).2 ∧ (recvLoop fuel s).1 ≠ .ready none := by
  induction fuel generalizing s with
  | zero => exact ⟨.refl s, nofun⟩
  | succ fuel ih =>
      match hitems : s.chan.items with
      | [] =>
          rw [recvLoop_open hitems hs]
          exact ⟨.refl s, nofun⟩
      | ⟨i, .ok msg⟩ :: rest =>
          rw [recvLoop_ok hitems]
          refine ⟨⟨rfl, rfl, rfl, rfl, ?_⟩, nofun⟩
          rw [hitems]
          exact Nat.le_succ _
      | ⟨i, .error e⟩ :: rest =>
          rw [recvLoop_error hitems]
          obtain ⟨h, hne⟩ := ih (s := { s with chan := { s.chan with items := rest } }) hs
          refine ⟨⟨h.readers, h.n, h.awaited, h.chan, ?_⟩, hne⟩
          rw [hitems]
          exact Nat.le_trans h.fewer (Nat.le_succ _)

theorem poll_taken {s : Pull0Fan} (hs : s.chan.senders ≠ 0) : Taken s s.poll.2 :=
  (recvLoop_taken hs _).1

/-- With something queued, a poll takes at least one item out. -/
theorem poll_takes {s : Pull0Fan} (hs : s.chan.senders ≠ 0) (hitems : s.chan.items ≠ []) :
    s.poll.2.chan.items.length < s.chan.items.length := by
  rw [poll]
  match h : s.chan.items with
  | [] => exact absurd h hitems
  | ⟨i, .ok msg⟩ :: rest =>
      rw [recvLoop_ok h]
      exact Nat.lt_succ_self _
  | ⟨i, .error e⟩ :: rest =>
      rw [recvLoop_error h]
      exact Nat.lt_succ_of_le
        (recvLoop_taken (s := { s with chan := { s.chan with items := rest } }) hs _).1.fewer

/-! ## The handles -/

/-- The channel's handles are those of the live readers, and the fan's. -/
structure Handles (s : Pull0Fan) : Prop where
  senders : s.chan.senders = s.readers.countP Reader.live + if s.chan.receiver then 1 else 0
  room : 0 < s.chan.capacity
  count : s.n = s.readers.length

theorem Handles.senders_ne {s : Pull0Fan} (h : Handles s) (hcall : s.callable = true) :
    s.chan.senders ≠ 0 := by
  rw [h.senders, if_pos (receiver_of_callable hcall)]
  exact Nat.succ_ne_zero _

theorem Handles.of_taken {s t : Pull0Fan} (h : Handles s) (ht : Taken s t) : Handles t where
  senders := by
    rw [ht.readers, ht.chan]
    exact h.senders
  room := by
    rw [ht.chan]
    exact h.room
  count := by rw [ht.n, ht.readers, h.count]

/-- A fan starts out with an empty channel and no readers. -/
theorem started_empty {w : PointerWidth} {s : Pull0Fan} (h : Started w s) :
    ∃ capacity awaited, 0 < capacity ∧ s = ⟨⟨capacity, [], 1, true⟩, [], 0, awaited, []⟩ := by
  have hempty : ∀ capacity awaited, Pull0Fan.empty w capacity awaited = some s →
      0 < capacity ∧ s = ⟨⟨capacity, [], 1, true⟩, [], 0, awaited, []⟩ := by
    intro capacity awaited hs
    rw [Pull0Fan.empty] at hs
    split at hs
    · cases hs
    · rename_i chan hchan
      cases hs
      obtain ⟨hpos, rfl⟩ := Channel.new_eq_some hchan
      exact ⟨hpos, rfl⟩
  rcases h with h | ⟨n, h⟩
  · exact ⟨_, _, hempty _ _ h⟩
  · exact ⟨_, _, hempty _ _ h⟩

theorem handles_start {w : PointerWidth} {s : Pull0Fan} (h : Started w s) : Handles s := by
  obtain ⟨capacity, awaited, hpos, rfl⟩ := started_empty h
  exact ⟨rfl, hpos, rfl⟩

/-- What a step does, and when. -/
inductive FanMoved (s : Pull0Fan) : FanAct → Pull0Fan → Prop
  | spawned (hopen : s.chan.receiver = true) : FanMoved s .addPusher s.spawnReader
  | received {i : Nat} {r : Reader} {result : Except NngError Message}
      (hr : s.readers[i]? = some r) (hp : r.phase = .receiving) :
      FanMoved s (.received i result) (s.received i r result)
  | forwarded {i : Nat} {r : Reader} {msg : Message} (hr : s.readers[i]? = some r)
      (hp : r.phase = .sending (.ok msg)) (hopen : s.chan.receiver = true)
      (hroom : s.chan.items.length < s.chan.capacity) :
      FanMoved s (.sent i)
        { s with
          chan := { s.chan with items := s.chan.items ++ [⟨i, .ok msg⟩] }
          readers := s.readers.set i { r with phase := .receiving } }
  | failed {i : Nat} {r : Reader} {e : NngError} (hr : s.readers[i]? = some r)
      (hp : r.phase = .sending (.error e)) (hopen : s.chan.receiver = true)
      (hroom : s.chan.items.length < s.chan.capacity) :
      FanMoved s (.sent i) (exitReader
        { s with chan := { s.chan with items := s.chan.items ++ [⟨i, .error e⟩] } } i r)
  | abandoned {i : Nat} {r : Reader} {result : Except NngError Message}
      (hr : s.readers[i]? = some r) (hp : r.phase = .sending result)
      (hgone : s.chan.receiver = false) : FanMoved s (.sent i) (s.exitReader i r)
  | cancelled {i : Nat} {r : Reader} (hr : s.readers[i]? = some r)
      (hp : r.phase = .receiving) (hgone : s.chan.receiver = false) :
      FanMoved s (.cancelled i) (s.exitReader i r)
  | polled {a : FanAct} (ha : a = .pullAny ∨ a = .pollNext) (hcall : s.callable = true) :
      FanMoved s a s.poll.2
  | dropped (hopen : s.chan.receiver = true) :
      FanMoved s .drop { s with chan := s.chan.dropReceiver.dropSender }

theorem sent_moved {s t : Pull0Fan} {i : Nat} {r : Reader}
    {result : Except NngError Message} (hr : s.readers[i]? = some r)
    (hp : r.phase = .sending result) (h : s.sent i r result = some t) :
    FanMoved s (.sent i) t := by
  rw [Pull0Fan.sent] at h
  cases hrecv : s.chan.receiver with
  | false =>
      rw [Channel.send_gone hrecv] at h
      cases h
      exact .abandoned hr hp hrecv
  | true =>
      rw [Channel.send_open hrecv] at h
      by_cases hroom : s.chan.items.length < s.chan.capacity
      · rw [if_pos hroom] at h
        cases result with
        | ok msg =>
            cases h
            exact .forwarded hr hp hrecv hroom
        | error e =>
            cases h
            exact .failed hr hp hrecv hroom
      · rw [if_neg hroom] at h
        cases h

theorem fan_moved {s t : Pull0Fan} {a : FanAct} (h : step s a = some t) : FanMoved s a t := by
  cases a with
  | addPusher =>
      rw [step] at h
      split at h
      · cases h
        exact .spawned ‹_›
      · cases h
  | received i result =>
      rw [step] at h
      split at h
      · rename_i r hr
        split at h
        · cases h
          exact .received hr ‹_›
        · cases h
      · cases h
  | sent i =>
      rw [step] at h
      split at h
      · rename_i r hr
        split at h
        · exact sent_moved hr ‹_› h
        · cases h
      · cases h
  | cancelled i =>
      rw [step] at h
      split at h
      · rename_i r hr
        split at h
        · rename_i hp
          split at h
          · cases h
          · cases h
            exact .cancelled hr hp (Bool.eq_false_iff.mpr ‹_›)
        · cases h
      · cases h
  | pullAny =>
      rw [step] at h
      split at h
      · cases h
        exact .polled (.inl rfl) ‹_›
      · cases h
  | pollNext =>
      rw [step] at h
      split at h
      · cases h
        exact .polled (.inr rfl) ‹_›
      · cases h
  | drop =>
      rw [step] at h
      split at h
      · cases h
        exact .dropped ‹_›
      · cases h

theorem Reader.live_of_ne {r : Reader} (h : r.phase ≠ .exited) : r.live = true := by
  rw [Reader.live]
  split
  · exact absurd ‹_› h
  · rfl

/-- A reader that goes on is counted as before. -/
theorem countLive_keep {readers : List Reader} {i : Nat} {r r' : Reader}
    (hr : readers[i]? = some r) (hlive : r.live = true) (hlive' : r'.live = true) :
    (readers.set i r').countP Reader.live = readers.countP Reader.live := by
  obtain ⟨hi, rfl⟩ := List.getElem?_eq_some_iff.mp hr
  have hone := List.boole_getElem_le_countP (p := Reader.live) hi
  rw [List.countP_set hi, hlive, hlive', if_pos rfl]
  rw [hlive, if_pos rfl] at hone
  omega

/-- A reader that exits is counted no more. -/
theorem countLive_exit {readers : List Reader} {i : Nat} {r r' : Reader}
    (hr : readers[i]? = some r) (hlive : r.live = true) (hdead : r'.live = false) :
    (readers.set i r').countP Reader.live + 1 = readers.countP Reader.live := by
  obtain ⟨hi, rfl⟩ := List.getElem?_eq_some_iff.mp hr
  have hone := List.boole_getElem_le_countP (p := Reader.live) hi
  rw [List.countP_set hi, hlive, hdead, if_pos rfl, if_neg Bool.false_ne_true]
  rw [hlive, if_pos rfl] at hone
  omega

theorem Handles.keep {s : Pull0Fan} {i : Nat} {r r' : Reader} (h : Handles s)
    (hlive : r.live = true) (hlive' : r'.live = true) (hr : s.readers[i]? = some r)
    (items : List FanItem) :
    Handles { s with
      chan := { s.chan with items := items }
      readers := s.readers.set i r' } where
  senders := by
    show s.chan.senders = (s.readers.set i r').countP Reader.live + _
    rw [h.senders, countLive_keep hr hlive hlive']
  room := h.room
  count := by
    show s.n = (s.readers.set i r').length
    rw [h.count, List.length_set]

theorem Handles.exit {s : Pull0Fan} {i : Nat} {r : Reader} (h : Handles s)
    (hlive : r.live = true) (hr : s.readers[i]? = some r) (items : List FanItem) :
    Handles (exitReader { s with chan := { s.chan with items := items } } i r) where
  senders := by
    show s.chan.senders - 1 = (s.readers.set i _).countP Reader.live + _
    have hcount : (s.readers.set i { r with phase := .exited }).countP Reader.live + 1 = _ :=
      countLive_exit hr hlive rfl
    rw [h.senders, ← hcount, Nat.add_right_comm]
    rfl
  room := h.room
  count := by
    show s.n = (s.readers.set i _).length
    rw [h.count, List.length_set]

theorem Handles.step {s t : Pull0Fan} {a : FanAct} (h : Handles s) (hmove : FanMoved s a t) :
    Handles t := by
  have hsenders := h.senders
  cases hmove with
  | spawned hopen =>
      refine ⟨?_, h.room, ?_⟩
      · show s.chan.senders + 1 = (s.readers ++ [Reader.spawned]).countP Reader.live + _
        rw [hsenders, List.countP_append]
        exact Nat.add_right_comm _ _ _
      · show s.n + 1 = (s.readers ++ [Reader.spawned]).length
        rw [h.count, List.length_append, List.length_singleton]
  | received hr hp => exact h.keep (Reader.live_of_ne (by simp [hp])) rfl hr _
  | forwarded hr hp hopen hroom => exact h.keep (Reader.live_of_ne (by simp [hp])) rfl hr _
  | failed hr hp hopen hroom => exact h.exit (Reader.live_of_ne (by simp [hp])) hr _
  | abandoned hr hp hgone => exact h.exit (Reader.live_of_ne (by simp [hp])) hr _
  | cancelled hr hp hgone => exact h.exit (Reader.live_of_ne (by simp [hp])) hr _
  | polled ha hcall => exact h.of_taken (poll_taken (h.senders_ne hcall))
  | dropped hopen =>
      refine ⟨?_, h.room, h.count⟩
      show s.chan.senders - 1 = s.readers.countP Reader.live + 0
      rw [hsenders, if_pos hopen]
      rfl

theorem handles_run {s t : Pull0Fan} {acts : List FanAct} (h : Handles s)
    (hrun : run step s acts = some t) : Handles t :=
  run_invariant h (fun _ _ _ hu hstep => hu.step (fan_moved hstep)) hrun

/-! ## What the caller is told -/

theorem end_not_reported {s : Pull0Fan} (h : Handles s) (hcall : s.callable = true) :
    s.pullAny.1 ≠ .ready (.error .noPeers) ∧ s.pollNext.1 ≠ .ready none := by
  have hne : s.poll.1 ≠ .ready none := (recvLoop_taken (h.senders_ne hcall) _).2
  refine ⟨?_, hne⟩
  show s.poll.1.map _ ≠ _
  match hpoll : s.poll.1 with
  | .pending => exact nofun
  | .ready none => exact absurd hpoll hne
  | .ready (some msg) => exact nofun

theorem poll_ended {s : Pull0Fan} (h : Handles s) (hcall : s.callable = true) (he : Ended s) :
    s.poll = (.pending, s) :=
  recvLoop_open he.drained (h.senders_ne hcall) _

/-- In an ended state nothing moves. -/
theorem ended_step {s t : Pull0Fan} {a : FanAct} (h : Handles s) (hcall : s.callable = true)
    (he : Ended s) (ha : a ≠ .addPusher ∧ a ≠ .drop) (hstep : step s a = some t) : t = s := by
  have hnone : ∀ {i : Nat} {r : Reader}, s.readers[i]? = some r → r.phase = .exited := by
    intro i r hr
    by_contra hp
    have := he.exited r (List.mem_of_getElem? hr)
    rw [Reader.live_of_ne hp] at this
    cases this
  cases fan_moved hstep with
  | spawned hopen => exact absurd rfl ha.1
  | received hr hp => rw [hnone hr] at hp; cases hp
  | forwarded hr hp => rw [hnone hr] at hp; cases hp
  | failed hr hp => rw [hnone hr] at hp; cases hp
  | abandoned hr hp hgone => rw [hnone hr] at hp; cases hp
  | cancelled hr hp hgone => rw [hnone hr] at hp; cases hp
  | polled _ _ => rw [poll_ended h hcall he]
  | dropped hopen => exact absurd rfl ha.2

theorem ended_hangs {s : Pull0Fan} (h : Handles s) (hcall : s.callable = true) (he : Ended s) :
    Hangs s := by
  have hstay : ∀ acts t, (∀ a ∈ acts, a ≠ .addPusher ∧ a ≠ .drop) →
      run step s acts = some t → t = s := by
    intro acts
    induction acts with
    | nil =>
        intro t _ hrun
        cases hrun
        rfl
    | cons a acts ih =>
        intro t hacts hrun
        obtain ⟨u, hu, hrest⟩ := run_cons.mp hrun
        obtain rfl := ended_step h hcall he (hacts a List.mem_cons_self) hu
        exact ih t (fun b hb => hacts b (List.mem_cons_of_mem a hb)) hrest
  intro acts t hacts hrun
  obtain rfl := hstay acts t hacts hrun
  have hpoll := poll_ended h hcall he
  refine ⟨?_, ?_⟩
  · show t.poll.1.map _ = _
    rw [hpoll]
    rfl
  · show t.poll.1 = _
    rw [hpoll]

/-! ## The end is always ahead -/

def Leads (s t : Pull0Fan) : Prop := ∃ more, run step s more = some t

theorem Leads.step {s t : Pull0Fan} {a : FanAct} (h : step s a = some t) : Leads s t :=
  ⟨[a], run_singleton.mpr h⟩

theorem Leads.trans {s t u : Pull0Fan} (h : Leads s t) (h' : Leads t u) : Leads s u := by
  obtain ⟨more, hrun⟩ := h
  obtain ⟨more', hrun'⟩ := h'
  exact ⟨more ++ more', run_append.mpr ⟨t, hrun, hrun'⟩⟩

/-- Asked often enough, a fan has handed out what was queued. -/
theorem drain {s : Pull0Fan} (h : Handles s) (hcall : s.callable = true) :
    ∃ t, Leads s t ∧ Taken s t ∧ t.chan.items = [] := by
  induction hlen : s.chan.items.length using Nat.strong_induction_on generalizing s with
  | _ k ih =>
      by_cases hitems : s.chan.items = []
      · exact ⟨s, ⟨[], rfl⟩, .refl s, hitems⟩
      · have htaken := poll_taken (h.senders_ne hcall)
        have hless := poll_takes (h.senders_ne hcall) hitems
        have hstep : Pull0Fan.step s .pullAny = some s.poll.2 := if_pos hcall
        obtain ⟨t, hlead, ht, hempty⟩ := ih _ (hlen ▸ hless) (h.of_taken htaken)
          (htaken.callable.trans hcall) rfl
        exact ⟨t, (Leads.step hstep).trans hlead, htaken.trans ht, hempty⟩

/-- `t` comes after `s` and has one live reader less. -/
def Retired (s t : Pull0Fan) : Prop :=
  Leads s t ∧ t.callable = true ∧ t.n = s.n ∧
    t.readers.countP Reader.live + 1 = s.readers.countP Reader.live

section

variable {s : Pull0Fan} {i : Nat} {r : Reader}

/-- The send of a reader gets through once there is room. -/
theorem sent_gets_through {result : Except NngError Message} (h : Handles s)
    (hcall : s.callable = true) (hr : s.readers[i]? = some r)
    (hp : r.phase = .sending result) :
    ∃ t u, Leads s t ∧ Taken s t ∧ t.sent i r result = some u ∧ Leads t u ∧
      t.chan.receiver = true ∧ t.chan.items.length < t.chan.capacity := by
  obtain ⟨t, hlead, ht, hempty⟩ := drain h hcall
  have hopen : t.chan.receiver = true := by
    rw [ht.chan]
    exact receiver_of_callable hcall
  have hroom : t.chan.items.length < t.chan.capacity := by
    rw [hempty]
    exact (h.of_taken ht).room
  have hsent : ∃ u, t.sent i r result = some u := by
    rw [Pull0Fan.sent, Channel.send_open hopen, if_pos hroom]
    cases result with
    | ok msg => exact ⟨_, rfl⟩
    | error e => exact ⟨_, rfl⟩
  obtain ⟨u, hu⟩ := hsent
  refine ⟨t, u, hlead, ht, hu, .step (a := .sent i) ?_, hopen, hroom⟩
  rw [Pull0Fan.step, ht.readers, hr]
  simp only [hp]
  exact hu

theorem retire_failed {e : NngError} (h : Handles s) (hcall : s.callable = true)
    (hr : s.readers[i]? = some r) (hp : r.phase = .sending (.error e)) :
    ∃ t, Retired s t := by
  obtain ⟨t, u, hlead, ht, hu, hlead', hopen, hroom⟩ := sent_gets_through h hcall hr hp
  rw [Pull0Fan.sent, Channel.send_open hopen, if_pos hroom] at hu
  cases hu
  refine ⟨_, hlead.trans hlead', ?_, ht.n, ?_⟩
  · exact ht.callable.trans hcall
  · show (t.readers.set i _).countP Reader.live + 1 = _
    rw [ht.readers]
    exact countLive_exit hr (Reader.live_of_ne (by simp [hp])) rfl

theorem retire_receiving (h : Handles s) (hcall : s.callable = true)
    (hr : s.readers[i]? = some r) (hp : r.phase = .receiving) : ∃ t, Retired s t := by
  have hstep : Pull0Fan.step s (.received i (.error .connectionClosed)) =
      some (s.received i r (.error .connectionClosed)) := by
    rw [Pull0Fan.step, hr]
    simp only [hp]
  have hi := (List.getElem?_eq_some_iff.mp hr).1
  obtain ⟨t, hlead, htcall, hn, hcount⟩ := retire_failed (i := i) (e := .connectionClosed)
    (h.step (fan_moved hstep)) hcall (List.getElem?_set_self hi) rfl
  refine ⟨t, (Leads.step hstep).trans hlead, htcall, hn, ?_⟩
  rw [hcount]
  exact countLive_keep hr (Reader.live_of_ne (by simp [hp])) rfl

theorem retire_sending {msg : Message} (h : Handles s) (hcall : s.callable = true)
    (hr : s.readers[i]? = some r) (hp : r.phase = .sending (.ok msg)) : ∃ t, Retired s t := by
  obtain ⟨t, u, hlead, ht, hu, hlead', hopen, hroom⟩ := sent_gets_through h hcall hr hp
  have hru : u.readers[i]? = some { r with phase := .receiving } ∧ u.callable = s.callable ∧
      u.n = s.n ∧ u.readers.countP Reader.live = s.readers.countP Reader.live := by
    rw [Pull0Fan.sent, Channel.send_open hopen, if_pos hroom] at hu
    cases hu
    have hi : i < t.readers.length := by
      rw [ht.readers]
      exact (List.getElem?_eq_some_iff.mp hr).1
    refine ⟨List.getElem?_set_self hi, ht.callable, ht.n, ?_⟩
    rw [← ht.readers] at hr ⊢
    exact countLive_keep hr (Reader.live_of_ne (by simp [hp])) rfl
  obtain ⟨hr', hcall', hn, hcount⟩ := hru
  obtain ⟨more, hrun⟩ := hlead.trans hlead'
  obtain ⟨v, hv, hvcall, hvn, hvcount⟩ :=
    retire_receiving (handles_run h hrun) (hcall'.trans hcall) hr' rfl
  exact ⟨v, .trans ⟨more, hrun⟩ hv, hvcall, hvn.trans hn, hvcount.trans hcount⟩

theorem retire (h : Handles s) (hcall : s.callable = true) (hr : s.readers[i]? = some r)
    (hlive : r.live = true) : ∃ t, Retired s t := by
  match hp : r.phase with
  | .receiving => exact retire_receiving h hcall hr hp
  | .sending (.ok msg) => exact retire_sending h hcall hr hp
  | .sending (.error e) => exact retire_failed h hcall hr hp
  | .exited =>
      rw [Reader.live, hp] at hlive
      cases hlive

end

/-- Wherever a fan with pushers is, it can run on to its end. -/
theorem end_ahead {s : Pull0Fan} (h : Handles s) (hcall : s.callable = true)
    (hn : 1 ≤ s.n) : ∃ t, Leads s t ∧ t.callable = true ∧ Ended t := by
  induction hlive : s.readers.countP Reader.live generalizing s with
  | zero =>
      obtain ⟨t, hlead, ht, hempty⟩ := drain h hcall
      refine ⟨t, hlead, ht.callable.trans hcall, le_of_le_of_eq hn ht.n.symm, ?_, hempty⟩
      intro r hr
      rw [ht.readers] at hr
      exact Bool.eq_false_iff.mpr (List.countP_eq_zero.mp hlive r hr)
  | succ k ih =>
      have hpos : 0 < s.readers.countP Reader.live := by omega
      obtain ⟨r, hmem, hr⟩ := List.countP_pos_iff.mp hpos
      obtain ⟨i, hi⟩ := List.mem_iff_getElem?.mp hmem
      obtain ⟨t, hlead, htcall, htn, hcount⟩ := retire h hcall hi hr
      obtain ⟨more, hrun⟩ := hlead
      obtain ⟨u, hu, hucall, hended⟩ := ih (handles_run h hrun) htcall
        (le_of_le_of_eq hn htn.symm) (by omega)
      exact ⟨u, .trans ⟨more, hrun⟩ hu, hucall, hended⟩

/-! ## The end of the input -/

/-- In every state a fan's caller can find it in, the end is reported as it
should be just when there is no end to report; a call made at the end hangs;
and the end is ahead of every such state. -/
theorem endReported_iff {w : PointerWidth} {s₀ s : Pull0Fan} {acts : List FanAct}
    (hstart : Started w s₀) (hrun : run step s₀ acts = some s) (hcall : s.callable = true) :
    (EndReported s ↔ ¬ Ended s) ∧ (Ended s → Hangs s) ∧
      ∃ more t, run step s more = some t ∧ t.callable = true ∧ Ended t := by
  have h := handles_run (handles_start hstart) hrun
  refine ⟨⟨?_, ?_⟩, ended_hangs h hcall, ?_⟩
  · intro hreport hended
    exact (end_not_reported h hcall).2 (hreport.atEnd hended).2
  · intro hgoing
    exact ⟨fun hended => absurd hended hgoing, fun _ => end_not_reported h hcall⟩
  · have hopen : s.chan.receiver = true := receiver_of_callable hcall
    have hstep : step s .addPusher = some s.spawnReader := if_pos hopen
    have hcall' : s.spawnReader.callable = true := by
      rw [callable, Bool.and_eq_true_iff, decide_eq_true_eq] at hcall ⊢
      exact ⟨hopen, Nat.le_succ_of_le hcall.2⟩
    obtain ⟨t, hlead, ht, hended⟩ :=
      end_ahead (h.step (fan_moved hstep)) hcall' (Nat.succ_pos s.n)
    obtain ⟨more, hmore⟩ := (Leads.step hstep).trans hlead
    exact ⟨more, t, hmore, ht, hended⟩

/-! A fan for one pusher, which connects, pushes one message and is gone. -/

def onePusher : Pull0Fan := ⟨⟨4, [], 1, true⟩, [], 0, 1, []⟩

def pushedOnce : List FanAct :=
  [.addPusher, .received 0 (.ok ⟨[], [7]⟩), .sent 0, .pullAny,
    .received 0 (.error .connectionClosed), .sent 0, .pullAny]

def pusherGone : Pull0Fan :=
  ⟨⟨4, [], 1, true⟩, [⟨.exited, [⟨[], [7]⟩]⟩], 1, 1, [(0, ⟨[], [7]⟩)]⟩

theorem endReported_iff_one_pusher :
    (EndReported pusherGone ↔ ¬ Ended pusherGone) ∧ (Ended pusherGone → Hangs pusherGone) ∧
      ∃ more t, run step pusherGone more = some t ∧ t.callable = true ∧ Ended t :=
  have hrun : run step onePusher pushedOnce = some pusherGone := rfl
  endReported_iff (w := .w64) (.inr ⟨1, rfl⟩) hrun rfl

theorem end_hidden_by_own_sender :
    listenAndAccept .w64 1 = some onePusher ∧
      run step onePusher pushedOnce = some pusherGone ∧ pusherGone.callable = true ∧
      Ended pusherGone ∧ ¬ EndReported pusherGone ∧
      pusherGone.pullAny.1 = .pending ∧ pusherGone.pollNext.1 = .pending := by
  have hended : Ended pusherGone := by
    refine ⟨Nat.le_refl 1, ?_, rfl⟩
    intro r hr
    rw [List.mem_singleton.mp hr]
    rfl
  refine ⟨rfl, rfl, rfl, hended, ?_, rfl, rfl⟩
  intro h
  exact nomatch (h.atEnd hended).2

end NngCore.Proofs
