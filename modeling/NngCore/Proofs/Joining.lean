import NngCore.Spec.Joining

/-!
# A loop is one operation

The books of a call that is under way do not depend on where exactly it stands,
only on the connection it holds (`JoinRunning`). A round ends in one place,
`JoinSocket.next`, and that is where the two atomic loops are extended by one
attempt: the first one by anything that is not an error, the second one by
anything at all as long as there are too few peers.
-/

namespace NngCore.Proofs

open NngCore.Lib NngCore.Ref NngCore.Spec

section

variable {behave : Nat → Behaviour}

/-! ## The atomic loops, one attempt at a time -/

theorem joinAll_append (h : Hub) (log : List Attempt) (a : Attempt) :
    joinAll behave h (log ++ [a]) = joinAll behave (joinAll behave h log) [a] := by
  rw [joinAll, List.foldl_append]
  rfl

/-- The attempt ends the first loop. -/
def endsPending : Attempt → Bool
  | .acceptFailed => true
  | .nodelayFailed _ => true
  | _ => false

variable (behave) in
theorem acceptPending_joinAll {log : List Attempt} (hlog : ∀ a ∈ log, endsPending a = false)
    (h : Hub) (rest : List Ref.Accepted) :
    h.acceptPending (log.map (outcome behave) ++ rest) =
      (joinAll behave h log).acceptPending rest := by
  induction log generalizing h with
  | nil => rfl
  | cons a log ih =>
      have ha := hlog a List.mem_cons_self
      have ih := ih (fun x hx => hlog x (List.mem_cons_of_mem a hx))
      cases a with
      | acceptFailed => cases ha
      | nodelayFailed conn => cases ha
      | refused conn => exact ih h
      | joined conn => exact ih (h.push (behave conn))

theorem acceptUntil_attempt {n : Nat} {h : Hub} (hlt : h.peers.length < n) (a : Attempt)
    (rest : List Ref.Accepted) :
    h.acceptUntil n (outcome behave a :: rest) =
      (joinAll behave h [a]).acceptUntil n rest := by
  cases a <;> simp only [outcome, Hub.acceptUntil, if_pos hlt] <;> rfl

theorem lt_of_acceptUntil_none {n : Nat} {h : Hub} {attempts : List Ref.Accepted}
    (hnone : h.acceptUntil n attempts = none) : h.peers.length < n := by
  by_contra hge
  cases attempts with
  | nil =>
      rw [Hub.acceptUntil, if_neg hge] at hnone
      cases hnone
  | cons a attempts =>
      cases a <;> simp only [Hub.acceptUntil, if_neg hge, reduceCtorEq] at hnone

theorem acceptUntil_extend {n : Nat} {log : List Attempt} (a : Attempt) {h : Hub}
    (hnone : h.acceptUntil n (log.map (outcome behave)) = none) :
    h.acceptUntil n ((log ++ [a]).map (outcome behave)) =
      if (joinAll behave h (log ++ [a])).peers.length < n then none
      else some (joinAll behave h (log ++ [a])) := by
  have hlt := lt_of_acceptUntil_none hnone
  induction log generalizing h with
  | nil => rw [List.nil_append, List.map_singleton, acceptUntil_attempt hlt, Hub.acceptUntil]
  | cons x log ih =>
      rw [List.map_cons, acceptUntil_attempt hlt] at hnone
      rw [List.cons_append, List.map_cons, acceptUntil_attempt hlt,
        ih hnone (lt_of_acceptUntil_none hnone)]
      rfl

/-! ## Calls -/

variable (behave)

/-- The books of a call that has not returned and holds `held`. -/
structure JoinRunning (s : JoinSocket) (held : Option Nat) : Prop where
  le : s.poppedAt ≤ s.popped
  order : s.log.filterMap attemptConn ++ held.toList =
    List.range' s.poppedAt (s.popped - s.poppedAt)
  joined : s.hub = joinAll behave s.hubAt s.log
  clean : s.loop = .pending → ∀ a ∈ s.log, endsPending a = false
  waiting : ∀ n, s.loop = .upTo n →
    s.hubAt.acceptUntil n (s.log.map (outcome behave)) = none
  quic : s.loop = .pending → s.listener = .quic → s.log = [] ∧ held = none

/-- The books of a call that has returned. -/
structure JoinDone (s : JoinSocket) : Prop where
  le : s.poppedAt ≤ s.popped
  order : s.log.filterMap attemptConn = List.range' s.poppedAt (s.popped - s.poppedAt)
  joined : s.hub = joinAll behave s.hubAt s.log
  pending : s.loop = .pending → s.hub = s.hubAt.acceptPending (s.log.map (outcome behave))
  enough : ∀ n, s.loop = .upTo n →
    s.hubAt.acceptUntil n (s.log.map (outcome behave)) = some s.hub
  quic : s.loop = .pending → s.listener = .quic → ∀ a ∈ s.log, a = .acceptFailed

def JoinInv (s : JoinSocket) : Prop :=
  match s.phase with
  | .returned => JoinDone behave s
  | .dropped lost => JoinRunning behave s lost
  | .running fut => JoinRunning behave s fut.conn ∧
      (s.loop = .pending → fut ≠ .accepting) ∧ (fut = .polling → s.loop = .pending)

variable {behave} {s : JoinSocket}

theorem next_hub (a : Attempt) : (s.next behave a).hub = joinAll behave s.hub [a] := by
  cases a <;> rfl

/-- The order of the queue, when the connection of a round goes into the log. -/
theorem JoinRunning.order_next {a : Attempt} (h : JoinRunning behave s (attemptConn a)) :
    (s.log ++ [a]).filterMap attemptConn = List.range' s.poppedAt (s.popped - s.poppedAt) := by
  rw [← h.order, List.filterMap_append]
  cases a <;> rfl

theorem JoinRunning.joined_next {a : Attempt} {held : Option Nat}
    (h : JoinRunning behave s held) :
    (s.next behave a).hub = joinAll behave s.hubAt (s.log ++ [a]) := by
  rw [next_hub, h.joined, joinAll_append]

/-- The first loop goes on. -/
theorem JoinRunning.next_pending {a : Attempt} (h : JoinRunning behave s (attemptConn a))
    (hloop : s.loop = .pending) (ha : endsPending a = false) :
    JoinRunning behave (s.next behave a) none where
  le := h.le
  order := by
    rw [Option.toList_none, List.append_nil]
    exact h.order_next
  joined := h.joined_next
  clean _ := forall_mem_concat (h.clean hloop) ha
  waiting n hn := by
    have hn : s.loop = .upTo n := hn
    rw [hloop] at hn
    cases hn
  quic _ hq := by
    -- a QUIC listener has nothing to go on with
    have hconn := (h.quic hloop hq).2
    cases a with
    | acceptFailed => cases ha
    | nodelayFailed conn => cases hconn
    | refused conn => cases hconn
    | joined conn => cases hconn

/-- The first loop ends with an error. -/
theorem JoinRunning.done_pending {a : Attempt} (h : JoinRunning behave s (attemptConn a))
    (hloop : s.loop = .pending) (ha : endsPending a = true) :
    JoinDone behave (s.next behave a) where
  le := h.le
  order := h.order_next
  joined := h.joined_next
  pending _ := by
    show (s.next behave a).hub = s.hubAt.acceptPending ((s.log ++ [a]).map (outcome behave))
    rw [List.map_append, acceptPending_joinAll behave (h.clean hloop),
      List.map_singleton, next_hub,
      h.joined]
    cases a with
    | acceptFailed => rfl
    | nodelayFailed conn => rfl
    | refused conn => cases ha
    | joined conn => cases ha
  enough n hn := by
    have hn : s.loop = .upTo n := hn
    rw [hloop] at hn
    cases hn
  quic _ hq := by
    obtain ⟨hlog, hconn⟩ := h.quic hloop hq
    intro x hx
    have hx : x ∈ s.log ++ [a] := hx
    rw [hlog, List.nil_append, List.mem_singleton] at hx
    cases a with
    | acceptFailed => exact hx
    | nodelayFailed conn => cases hconn
    | refused conn => cases hconn
    | joined conn => cases hconn

/-- The second loop goes on, or has enough peers. -/
theorem JoinRunning.next_until {a : Attempt} {n : Nat}
    (h : JoinRunning behave s (attemptConn a))
    (hloop : s.loop = .upTo n) : JoinInv behave (s.next behave a) := by
  have hext := acceptUntil_extend a (h.waiting n hloop)
  have hjoined : (s.next behave a).hub = joinAll behave s.hubAt (s.log ++ [a]) := h.joined_next
  have hne : s.loop ≠ .pending := by
    rw [hloop]
    exact JoinLoop.noConfusion
  have hsame : ∀ m, s.loop = .upTo m → m = n := fun m hm => by
    rw [hloop] at hm
    cases hm
    rfl
  rw [← hjoined] at hext
  by_cases hlt : (s.next behave a).hub.peers.length < n
  · have hphase : (s.next behave a).phase = .running .accepting := by
      simp only [JoinSocket.next, hloop] at hlt ⊢
      rw [if_pos hlt]
    rw [if_pos hlt] at hext
    rw [JoinInv, hphase]
    refine ⟨⟨h.le, ?_, hjoined, fun hp => absurd hp hne, fun m hm => hsame m hm ▸ hext,
      fun hp => absurd hp hne⟩, fun hp => absurd hp hne, JoinFut.noConfusion⟩
    rw [JoinFut.conn, Option.toList_none, List.append_nil]
    exact h.order_next
  · have hphase : (s.next behave a).phase = .returned := by
      simp only [JoinSocket.next, hloop] at hlt ⊢
      rw [if_neg hlt]
    rw [if_neg hlt] at hext
    rw [JoinInv, hphase]
    exact ⟨h.le, h.order_next, hjoined, fun hp => absurd hp hne,
      fun m hm => hsame m hm ▸ hext, fun hp => absurd hp hne⟩

/-- The end of a round. -/
theorem JoinRunning.next {a : Attempt} (h : JoinRunning behave s (attemptConn a)) :
    JoinInv behave (s.next behave a) := by
  cases hloop : s.loop with
  | upTo n => exact h.next_until hloop
  | pending =>
      cases ha : endsPending a with
      | false =>
          have hphase : (s.next behave a).phase = .running .polling := by
            cases a <;> simp only [endsPending, reduceCtorEq] at ha <;>
              simp only [JoinSocket.next, hloop]
          rw [JoinInv, hphase]
          exact ⟨h.next_pending hloop ha, fun _ => JoinFut.noConfusion, fun _ => hloop⟩
      | true =>
          have hphase : (s.next behave a).phase = .returned := by
            cases a <;> simp only [endsPending, reduceCtorEq] at ha <;>
              simp only [JoinSocket.next, hloop]
          rw [JoinInv, hphase]
          exact h.done_pending hloop ha

/-! ## Connections -/

theorem JoinRunning.hold {conn : Nat} (h : JoinRunning behave s (some conn)) {fut : JoinFut}
    (hfut : fut.conn = some conn) : JoinInv behave { s with phase := .running fut } := by
  refine ⟨⟨h.le, hfut ▸ h.order, h.joined, h.clean, h.waiting, hfut ▸ h.quic⟩, ?_, ?_⟩
  · rintro - rfl
    cases hfut
  · rintro rfl
    cases hfut

theorem JoinRunning.settle {conn : Nat} (h : JoinRunning behave s (some conn))
    (poll : ConnectPoll) : JoinInv behave (s.settle behave conn poll) := by
  rcases poll with fut | (e | _)
  · exact h.hold rfl
  · exact JoinRunning.next (a := .refused conn) h
  · exact JoinRunning.next (a := .joined conn) h

theorem JoinRunning.bringUp {conn : Nat} (h : JoinRunning behave s (some conn))
    (lower : List LowerHandshake) : JoinInv behave (s.bringUp behave conn lower) := by
  cases lower with
  | cons now rest => exact h.hold rfl
  | nil =>
      rw [JoinSocket.bringUp]
      split
      · exact h.settle _
      · exact JoinRunning.next (a := .joined conn) h

/-- A connection leaves the queue. -/
theorem JoinRunning.pop (h : JoinRunning behave s none)
    (hquic : s.loop = .pending → s.listener ≠ .quic) (nodelay : Except String Unit) :
    JoinInv behave (s.pop behave nodelay) := by
  have htaken : JoinRunning behave { s with queued := s.queued - 1, popped := s.popped + 1 }
      (some s.popped) := by
    refine ⟨Nat.le_succ_of_le h.le, ?_, h.joined, h.clean, h.waiting,
      fun hp hq => absurd hq (hquic hp)⟩
    have horder := h.order
    rw [Option.toList_none, List.append_nil] at horder
    show s.log.filterMap attemptConn ++ [s.popped] =
      List.range' s.poppedAt (s.popped + 1 - s.poppedAt)
    rw [horder, Nat.succ_sub h.le, List.range'_1_concat, Nat.add_sub_cancel' h.le]
  cases nodelay with
  | ok u => exact htaken.bringUp _
  | error e =>
      rw [JoinSocket.pop]
      split
      · exact JoinRunning.next (a := .nodelayFailed s.popped) htaken
      · exact htaken.bringUp _

/-! ## Calls, steps and runs -/

theorem joinInv_begin (s : JoinSocket) (loop : JoinLoop) :
    JoinInv behave (s.begin loop) := by
  have horder : List.range' s.popped (s.popped - s.popped) = [] := by
    rw [Nat.sub_self]
    rfl
  cases loop with
  | pending =>
      refine ⟨⟨Nat.le_refl _, horder.symm, rfl, fun _ _ hm => ?_, fun n hn => ?_,
        fun _ _ => ?_⟩,
        fun _ => JoinFut.noConfusion, fun _ => rfl⟩
      · cases hm
      · cases hn
      · exact ⟨rfl, rfl⟩
  | upTo n =>
      by_cases hlt : s.hub.peers.length < n
      · have hphase : (s.begin (.upTo n)).phase = .running .accepting := if_pos hlt
        rw [JoinInv, hphase]
        refine ⟨⟨Nat.le_refl _, horder.symm, rfl, fun hp => ?_, fun m hm => ?_, fun hp => ?_⟩,
          fun hp => ?_, JoinFut.noConfusion⟩
        · cases hp
        · cases hm
          exact if_pos hlt
        · cases hp
        · cases hp
      · have hphase : (s.begin (.upTo n)).phase = .returned := if_neg hlt
        rw [JoinInv, hphase]
        refine ⟨Nat.le_refl _, horder.symm, rfl, fun hp => ?_, fun m hm => ?_, fun hp => ?_⟩
        · cases hp
        · cases hm
          exact if_neg hlt
        · cases hp

/-- Nothing has been done yet. -/
theorem joinInv_idle {s : JoinSocket} (hlog : s.log = []) (hhub : s.hub = s.hubAt)
    (hpop : s.popped = s.poppedAt) (hloop : s.loop = .pending) (hphase : s.phase = .returned) :
    JoinInv behave s := by
  rw [JoinInv, hphase]
  refine ⟨Nat.le_of_eq hpop.symm, ?_, ?_, fun _ => ?_, fun n hn => ?_, fun _ _ a ha => ?_⟩
  · rw [hlog, hpop, Nat.sub_self]
    rfl
  · rw [hlog, hhub]
    rfl
  · rw [hlog, hhub]
    rfl
  · rw [hloop] at hn
    cases hn
  · rw [hlog] at ha
    cases ha

/-- The other branch of the `select!`. -/
theorem JoinRunning.idle (h : JoinRunning behave s none) (hloop : s.loop = .pending) :
    JoinInv behave { s with phase := .returned } := by
  have horder := h.order
  rw [Option.toList_none, List.append_nil] at horder
  refine ⟨h.le, horder, h.joined, fun _ => ?_, fun n hn => ?_, fun _ hq a ha => ?_⟩
  · have hpend := acceptPending_joinAll behave (h.clean hloop) s.hubAt []
    rw [List.append_nil] at hpend
    exact h.joined.trans hpend.symm
  · have hn : s.loop = .upTo n := hn
    rw [hloop] at hn
    cases hn
  · have ha : a ∈ s.log := ha
    rw [(h.quic hloop hq).1] at ha
    cases ha

theorem JoinInv.returned (h : JoinInv behave s) (hphase : s.phase = .returned) :
    JoinDone behave s := by
  rwa [JoinInv, hphase] at h

theorem JoinInv.dropped {lost : Option Nat} (h : JoinInv behave s)
    (hphase : s.phase = .dropped lost) : JoinRunning behave s lost := by
  rwa [JoinInv, hphase] at h

theorem JoinInv.running {fut : JoinFut} (h : JoinInv behave s)
    (hphase : s.phase = .running fut) :
    JoinRunning behave s fut.conn ∧ (s.loop = .pending → fut ≠ .accepting) ∧
      (fut = .polling → s.loop = .pending) := by
  rwa [JoinInv, hphase] at h

/-- The books say nothing of what is still in the queue. -/
theorem JoinInv.arrive (h : JoinInv behave s) :
    JoinInv behave { s with queued := s.queued + 1 } := by
  rw [JoinInv]
  cases hphase : s.phase with
  | returned =>
      have hd := h.returned hphase
      exact ⟨hd.le, hd.order, hd.joined, hd.pending, hd.enough, hd.quic⟩
  | dropped lost =>
      have hr := h.dropped hphase
      exact ⟨hr.le, hr.order, hr.joined, hr.clean, hr.waiting, hr.quic⟩
  | running fut =>
      obtain ⟨hr, hfut⟩ := h.running hphase
      exact ⟨⟨hr.le, hr.order, hr.joined, hr.clean, hr.waiting, hr.quic⟩, hfut⟩

theorem JoinInv.step {t : JoinSocket} {a : JoinAct} (h : JoinInv behave s)
    (hstep : s.step behave a = some t) : JoinInv behave t := by
  unfold JoinSocket.step at hstep
  split at hstep
  · -- arrive
    cases hstep
    exact h.arrive
  · cases hstep
  · -- meanwhile
    cases hstep
    exact joinInv_idle rfl rfl rfl rfl rfl
  · cases hstep
  · -- call
    cases hstep
    exact joinInv_begin s _
  · next hphase =>
      -- idle
      obtain ⟨hr, -, hpend⟩ := h.running hphase
      split at hstep
      · cases hstep
      · cases hstep
        exact hr.idle (hpend rfl)
  · next nodelay hphase =>
      split at hstep
      · cases hstep
      · next hok =>
          cases hstep
          exact (h.running hphase).1.pop (fun _ hq => hok (.inl hq)) nodelay
  · next nodelay hphase =>
      obtain ⟨hr, hacc, -⟩ := h.running hphase
      split at hstep
      · cases hstep
      · cases hstep
        exact hr.pop (fun hp => absurd rfl (hacc hp)) nodelay
  · next hphase =>
      cases hstep
      exact JoinRunning.next (a := .acceptFailed) (h.running hphase).1
  · next hphase =>
      cases hstep
      exact JoinRunning.next (a := .acceptFailed) (h.running hphase).1
  · next conn now rest hphase =>
      cases hstep
      exact (h.running hphase).1.bringUp rest
  · next e conn now rest hphase =>
      cases hstep
      exact JoinRunning.next (a := .refused conn) (h.running hphase).1
  · next r conn k hphase =>
      cases hstep
      exact (h.running hphase).1.settle _
  · next r conn rx read hphase =>
      cases hstep
      exact (h.running hphase).1.settle _
  · cases hstep
  · next fut _ hphase =>
      -- drop
      cases hstep
      have hr := (h.running hphase).1
      exact ⟨hr.le, hr.order, hr.joined, hr.clean, hr.waiting, hr.quic⟩
  · cases hstep

/-! ## The operation -/

theorem popped_of_range_nil {m n : Nat} (hle : m ≤ n) (h : List.range' m (n - m) = []) :
    n = m := by
  rw [List.range'_eq_nil_iff] at h
  omega

variable (behave) in
theorem joinAll_failed {log : List Attempt} (hlog : ∀ a ∈ log, a = .acceptFailed) (h : Hub) :
    joinAll behave h log = h ∧ log.filterMap attemptConn = [] := by
  induction log with
  | nil => exact ⟨rfl, rfl⟩
  | cons a log ih =>
      cases hlog a List.mem_cons_self
      exact ih fun x hx => hlog x (List.mem_cons_of_mem _ hx)

theorem JoinRunning.oneOperation {held : Option Nat} (h : JoinRunning behave s held)
    (hheld : inHand s = held) (hphase : s.phase ≠ .returned)
    (hprompt : s.loop = .pending → s.phase ≠ .running .accepting) :
    OneOperation behave s where
  order := hheld ▸ h.order
  joined := h.joined
  pending hloop := by
    have hpend := acceptPending_joinAll behave (h.clean hloop) s.hubAt []
    rw [List.append_nil] at hpend
    exact h.joined.trans hpend.symm
  enough _ _ hret := absurd hret hphase
  waiting n hn _ := h.waiting n hn
  prompt := hprompt
  quic hloop hq := by
    obtain ⟨hlog, hnone⟩ := h.quic hloop hq
    have horder := h.order
    have hjoined := h.joined
    rw [hlog, hnone] at horder
    rw [hlog] at hjoined
    exact ⟨hjoined, popped_of_range_nil h.le horder.symm⟩

theorem JoinDone.oneOperation (h : JoinDone behave s) (hphase : s.phase = .returned) :
    OneOperation behave s where
  order := by
    rw [inHand, hphase, Option.toList_none, List.append_nil]
    exact h.order
  joined := h.joined
  pending := h.pending
  enough n hn _ := h.enough n hn
  waiting _ _ hne := absurd hphase hne
  prompt _ hrun := by
    rw [hphase] at hrun
    cases hrun
  quic hloop hq := by
    obtain ⟨hsame, hnone⟩ := joinAll_failed behave (h.quic hloop hq) s.hubAt
    exact ⟨h.joined.trans hsame, popped_of_range_nil h.le (h.order.symm.trans hnone)⟩

theorem JoinInv.oneOperation (h : JoinInv behave s) : OneOperation behave s := by
  cases hphase : s.phase with
  | returned => exact (h.returned hphase).oneOperation hphase
  | dropped lost =>
      refine (h.dropped hphase).oneOperation (by rw [inHand, hphase]) ?_ fun _ => ?_
      · rw [hphase]
        exact JoinPhase.noConfusion
      · rw [hphase]
        exact JoinPhase.noConfusion
  | running fut =>
      obtain ⟨hr, hacc, -⟩ := h.running hphase
      refine hr.oneOperation (by rw [inHand, hphase]) ?_ fun hloop => ?_
      · rw [hphase]
        exact JoinPhase.noConfusion
      · rw [hphase]
        exact fun heq => hacc hloop (JoinPhase.running.inj heq)

/-- In every state of every run, the call that is under way or was the last one has
done to the vector of peers what the atomic loop does with its attempts. -/
theorem loop_one_operation (behave : Nat → Behaviour) (proto : ProtocolId)
    (listener : AnyListener) (hub : Hub) (acts : List JoinAct) {s : JoinSocket}
    (hrun : run (JoinSocket.step behave) (.bound proto listener hub) acts = some s) :
    OneOperation behave s :=
  (run_invariant (I := JoinInv behave) (joinInv_idle rfl rfl rfl rfl rfl)
    (fun _ _ _ h hstep => h.step hstep) hrun).oneOperation

/-- A bus takes in a peer that was waiting, and one that arrives during the first
handshake is refused. -/
theorem loop_one_operation_bus :
    ∃ s, run (JoinSocket.step fun _ => ⟨.tcp, fun _ => .ok 8, fun _ => .pending⟩)
        (.bound .bus0 .tcp .empty)
        [.arrive, .call .pending, .accepted (.ok ()), .arrive, .written (.ok 8),
          .got (.ok (encodeHandshake .bus0).toList), .accepted (.ok ()), .written (.ok 8),
          .got (.ok (encodeHandshake .sub0).toList), .idle] = some s ∧
      s.log = [.joined 0, .refused 1] ∧ s.phase = .returned ∧
      OneOperation (fun _ => ⟨.tcp, fun _ => .ok 8, fun _ => .pending⟩) s :=
  Exists.imp (fun s (hs : _ = some s ∧ _ ∧ _) =>
    ⟨hs.1, hs.2.1, hs.2.2, loop_one_operation _ .bus0 .tcp .empty _ hs.1⟩) ⟨_, rfl, rfl, rfl⟩

end

end NngCore.Proofs
