import NngCore.Spec.Accept

/-!
# When an accept stream loses a connection

A connection that is being brought up is a local variable of the call, and the
stream has no place for it. So every step accounts for the connections as long
as calls are dropped while they wait for one, and a call that is dropped with
one takes it along (`lost_of_drop`).
-/

namespace NngCore.Proofs

open NngCore.Lib NngCore.Ref NngCore.Spec

/-- The books of an accept stream: every connection is accounted for, the one
held is nowhere else, and none is known that has not left the queue. -/
structure AcceptBooks (s : AcceptStream) : Prop where
  accounted : Accounted s
  heldOnce : ∀ conn, heldConn s = some conn → conn < s.popped ∧ conn ∉ s.returned ∧
    conn ∉ s.failed.map Prod.fst
  returned : ∀ conn ∈ s.returned, conn < s.popped
  failed : ∀ conn ∈ s.failed.map Prod.fst, conn < s.popped

/-- The stream with its call put aside: `conn` is the one open connection. -/
structure Open (s : AcceptStream) (conn : Nat) : Prop where
  others : ∀ c < s.popped, c = conn ∨ c ∈ s.returned ∨ c ∈ s.failed.map Prod.fst
  popped : conn < s.popped
  notReturned : conn ∉ s.returned
  notFailed : conn ∉ s.failed.map Prod.fst
  returned : ∀ c ∈ s.returned, c < s.popped
  failed : ∀ c ∈ s.failed.map Prod.fst, c < s.popped

theorem open_of_held {s : AcceptStream} {conn : Nat} (h : AcceptBooks s)
    (hheld : heldConn s = some conn) : Open s conn := by
  obtain ⟨hpop, hret, hfail⟩ := h.heldOnce conn hheld
  refine ⟨fun c hc => ?_, hpop, hret, hfail, h.returned, h.failed⟩
  rcases h.accounted c hc with hc | hc | hc
  · exact Or.inr (Or.inl hc)
  · exact Or.inr (Or.inr hc)
  · rw [hheld] at hc
    exact Or.inl (Option.some.inj hc).symm

section

variable {s : AcceptStream} {conn : Nat}

/-! ## What becomes of an open connection -/

theorem Open.hold (h : Open s conn) {fut : AcceptFut}
    (hfut : heldConn { s with live := some fut } = some conn) :
    AcceptBooks { s with live := some fut } := by
  refine ⟨fun c hc => ?_, fun c hc => ?_, h.returned, h.failed⟩
  · rcases h.others c hc with rfl | hret | hfail
    · exact Or.inr (Or.inr hfut)
    · exact Or.inl hret
    · exact Or.inr (Or.inl hfail)
  · rw [hfut] at hc
    cases hc
    exact ⟨h.popped, h.notReturned, h.notFailed⟩

theorem Open.finish (h : Open s conn) : AcceptBooks (s.finish conn) := by
  refine ⟨fun c hc => ?_, nofun, ?_, h.failed⟩
  · rcases h.others c hc with rfl | hret | hfail
    · exact Or.inl (List.mem_append_right _ (List.mem_singleton_self c))
    · exact Or.inl (List.mem_append_left _ hret)
    · exact Or.inr (Or.inl hfail)
  · exact forall_mem_concat h.returned h.popped

theorem Open.fail (h : Open s conn) (e : NngError) : AcceptBooks (s.fail conn e) := by
  have hmap : (s.failed ++ [(conn, e)]).map Prod.fst = s.failed.map Prod.fst ++ [conn] := by
    rw [List.map_append]
    rfl
  refine ⟨fun c hc => ?_, nofun, h.returned, ?_⟩
  · show c ∈ s.returned ∨ c ∈ (s.failed ++ [(conn, e)]).map Prod.fst ∨ _
    rw [hmap]
    rcases h.others c hc with rfl | hret | hfail
    · exact Or.inr (Or.inl (List.mem_append_right _ (List.mem_singleton_self c)))
    · exact Or.inl hret
    · exact Or.inr (Or.inl (List.mem_append_left _ hfail))
  · show ∀ c ∈ (s.failed ++ [(conn, e)]).map Prod.fst, c < s.popped
    rw [hmap]
    exact forall_mem_concat h.failed h.popped

theorem Open.settle (h : Open s conn) (poll : ConnectPoll) :
    AcceptBooks (s.settle conn poll) := by
  match poll with
  | .pending fut => exact h.hold rfl
  | .ready (.ok ()) => exact h.finish
  | .ready (.error e) => exact h.fail _

theorem Open.bringUp (h : Open s conn) (lower : List LowerHandshake) :
    AcceptBooks (s.bringUp conn lower) := by
  cases lower with
  | cons now rest => exact h.hold rfl
  | nil =>
      rw [AcceptStream.bringUp]
      split
      · exact h.settle _
      · exact h.finish

/-- A connection leaves the queue of a stream that holds none. -/
theorem AcceptBooks.pop (h : AcceptBooks s) (hheld : heldConn s = none)
    (nodelay : Except String Unit) : AcceptBooks (s.pop nodelay) := by
  have hopen : Open { s with queued := s.queued - 1, popped := s.popped + 1 } s.popped := by
    refine ⟨fun c hc => ?_, Nat.lt_succ_self _, ?_, ?_, ?_, ?_⟩
    · rcases Nat.lt_succ_iff_lt_or_eq.mp hc with hc | hc
      · rcases h.accounted c hc with hret | hfail | hlive
        · exact Or.inr (Or.inl hret)
        · exact Or.inr (Or.inr hfail)
        · rw [hheld] at hlive
          cases hlive
      · exact Or.inl hc
    · exact fun hmem => Nat.lt_irrefl _ (h.returned _ hmem)
    · exact fun hmem => Nat.lt_irrefl _ (h.failed _ hmem)
    · exact fun c hc => Nat.lt_succ_of_lt (h.returned c hc)
    · exact fun c hc => Nat.lt_succ_of_lt (h.failed c hc)
  cases nodelay with
  | ok u => exact hopen.bringUp _
  | error e =>
      rw [AcceptStream.pop]
      split
      · exact hopen.fail _
      · exact hopen.bringUp _

/-- A stream whose call holds nothing, with another call that holds nothing. -/
theorem AcceptBooks.idle (h : AcceptBooks s) (hheld : heldConn s = none) {t : AcceptStream}
    (ht : heldConn t = none) (hpop : t.popped = s.popped) (hret : t.returned = s.returned)
    (hfail : t.failed = s.failed) : AcceptBooks t := by
  refine ⟨fun c hc => ?_, fun c hc => ?_, ?_, ?_⟩
  · rw [hpop] at hc
    rw [hret, hfail]
    rcases h.accounted c hc with hc | hc | hc
    · exact Or.inl hc
    · exact Or.inr (Or.inl hc)
    · rw [hheld] at hc
      cases hc
  · rw [ht] at hc
    cases hc
  · rw [hret, hpop]
    exact h.returned
  · rw [hfail, hpop]
    exact h.failed

end

theorem acceptBooks_bind (socket : AcceptSocket) (listener : AnyListener) :
    AcceptBooks (.bind socket listener) :=
  ⟨nofun, nofun, nofun, nofun⟩

/-! ## Steps and runs -/

/-- Every step keeps the books, unless it drops a call that holds a connection. -/
theorem AcceptBooks.step {s t : AcceptStream} {a : AcceptAct} (h : AcceptBooks s)
    (hadm : NotDroppedHolding s a) (hstep : s.step a = some t) : AcceptBooks t := by
  unfold AcceptStream.step at hstep
  split at hstep
  · -- arrive
    cases hstep
    exact ⟨h.accounted, h.heldOnce, h.returned, h.failed⟩
  · next hlive =>
      cases hstep
      exact h.idle (by rw [heldConn, hlive]) rfl rfl rfl rfl
  · next nodelay hlive =>
      split at hstep
      · cases hstep
      · cases hstep
        exact h.pop (by rw [heldConn, hlive]) nodelay
  · next hlive =>
      cases hstep
      exact h.idle (by rw [heldConn, hlive]) rfl rfl rfl rfl
  · next conn now rest hlive =>
      cases hstep
      exact (open_of_held h (by rw [heldConn, hlive])).bringUp rest
  · next e conn now rest hlive =>
      cases hstep
      exact (open_of_held h (by rw [heldConn, hlive])).fail e
  · next r conn k hlive =>
      cases hstep
      exact (open_of_held h (by rw [heldConn, hlive])).settle _
  · next r conn rx read hlive =>
      cases hstep
      exact (open_of_held h (by rw [heldConn, hlive])).settle _
  · next fut hlive =>
      cases hstep
      exact h.idle (hadm rfl) rfl rfl rfl rfl
  · cases hstep

/-- A call dropped with a connection takes it along. -/
theorem lost_of_drop {s : AcceptStream} {conn : Nat} (h : AcceptBooks s)
    (hheld : heldConn s = some conn) :
    ∃ t, s.step .drop = some t ∧ ¬ Accounted t := by
  obtain ⟨hpop, hret, hfail⟩ := h.heldOnce conn hheld
  cases hlive : s.live with
  | none =>
      rw [heldConn, hlive] at hheld
      cases hheld
  | some fut =>
      refine ⟨{ s with live := none }, by simp only [AcceptStream.step, hlive], fun hall => ?_⟩
      rcases hall conn hpop with hc | hc | hc
      · exact hret hc
      · exact hfail hc
      · cases hc

theorem notDropped_of_accounted {s : AcceptStream} {acts : List AcceptAct} (h : AcceptBooks s)
    (hall : EveryState AcceptStream.step Accounted s acts) :
    EveryStep AcceptStream.step NotDroppedHolding s acts := by
  induction acts generalizing s with
  | nil => trivial
  | cons a acts ih =>
      have hadm : NotDroppedHolding s a := by
        rintro rfl
        cases hheld : heldConn s with
        | none => rfl
        | some conn =>
            obtain ⟨t, ht, hlost⟩ := lost_of_drop h hheld
            exact absurd (hall.2 t ht).here hlost
      exact ⟨hadm, fun t ht => ih (h.step hadm ht) (hall.2 t ht)⟩

/-- Along every run of an accept stream, every connection is accounted for exactly
as long as no call is dropped with one. -/
theorem accept_accounted_iff (socket : AcceptSocket) (listener : AnyListener)
    (acts : List AcceptAct) :
    EveryState AcceptStream.step Accounted (.bind socket listener) acts ↔
      EveryStep AcceptStream.step NotDroppedHolding (.bind socket listener) acts := by
  have hbind := acceptBooks_bind socket listener
  constructor
  · exact notDropped_of_accounted hbind
  · intro hadm
    have hbooks : EveryState AcceptStream.step AcceptBooks (.bind socket listener) acts :=
      everyState_of_everyStep (fun _ _ _ h hadm hstep => h.step hadm hstep) hbind hadm
    exact hbooks.imp fun _ h => h.accounted

/-- One connection, taken out of the queue of a bus over TCP by a call that is
dropped in its first write. -/
theorem connection_lost_by_drop :
    ∃ s, run AcceptStream.step (.bind .bus0 .tcp)
        [.arrive, .call, .accepted (.ok ()), .drop] = some s ∧ ¬ Accounted s :=
  ⟨⟨.bus0, .tcp, 0, 1, none, [], []⟩, by decide, by decide⟩

end NngCore.Proofs
