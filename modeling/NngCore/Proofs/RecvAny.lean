import NngCore.Proofs.HubLoops

/-!
# What `recv_any` returns is what its peers gave

The books of a bus (`Ledger`) say of every peer ever admitted that the messages
returned under its number are the `Ok` results taken from it, and that it was
given up if and only if a poll of it failed. They are kept up to the order of
the peers, so a pass is no more than its polls, one after the other: a poll
without result changes nothing, a message is booked under the number of the
peer it came from, and a failure moves the peer to the other side of the books.
Nothing is lost when a call is dropped at its yield, because the books are
square there.
-/

namespace NngCore.Proofs

open NngCore.Lib NngCore.Ref NngCore.Spec

/-! ## One peer -/

theorem consumed_poll (p : Peer) : consumed p.poll.2 = consumed p ++ [p.poll.1] := by
  show (List.range (p.polled + 1)).map p.behaviour.polls = _
  rw [List.range_succ, List.map_append]
  rfl

theorem SamePeer.consumed {p q : Peer} (h : SamePeer p q) : consumed q = consumed p := by
  rw [Spec.consumed, Spec.consumed, h.polled, h.behaviour]

theorem failed_poll (p : Peer) : Failed p.poll.2 ↔ Failed p ∨ isErr p.poll.1 = true := by
  rw [Failed, consumed_poll]
  constructor
  · rintro ⟨x, hx, herr⟩
    rcases List.mem_append.mp hx with hx | hx
    · exact Or.inl ⟨x, hx, herr⟩
    · rw [List.mem_singleton.mp hx] at herr
      exact Or.inr herr
  · rintro (⟨x, hx, herr⟩ | herr)
    · exact ⟨x, List.mem_append_left _ hx, herr⟩
    · exact ⟨_, List.mem_append_right _ (List.mem_singleton_self _), herr⟩

/-! ## The books -/

/-- Of all peers ever admitted: their numbers, and the messages returned. -/
structure Books (all : List Peer) (admitted : Nat) (returned : List (Nat × Message)) :
    Prop where
  ids : (all.map Peer.id).Nodup
  fresh : ∀ p ∈ all, p.id < admitted
  known : ∀ x ∈ returned, ∃ p ∈ all, p.id = x.1
  taken : ∀ p ∈ all, source p.id returned = (consumed p).filterMap okOf

section

variable {all all' : List Peer} {n : Nat} {returned : List (Nat × Message)}

theorem Books.perm (h : Books all n returned) (hall : all.Perm all') :
    Books all' n returned := by
  refine ⟨(hall.map _).nodup_iff.mp h.ids, ?_, ?_, ?_⟩
  · exact fun p hp => h.fresh p (hall.mem_iff.mpr hp)
  · intro x hx
    obtain ⟨p, hp, hid⟩ := h.known x hx
    exact ⟨p, hall.mem_iff.mp hp, hid⟩
  · exact fun p hp => h.taken p (hall.mem_iff.mpr hp)

theorem books_empty : Books [] 0 [] := ⟨.nil, nofun, nofun, nofun⟩

/-- A peer joins under a number nobody has had. -/
theorem Books.newcomer (h : Books all n returned) (b : Behaviour) (since : Nat) :
    Books (.admitted b n since :: all) (n + 1) returned := by
  refine ⟨?_, ?_, ?_, ?_⟩
  · refine List.nodup_cons.mpr ⟨fun hmem => ?_, h.ids⟩
    obtain ⟨p, hp, hid⟩ := List.mem_map.mp hmem
    have hlt := h.fresh p hp
    rw [hid] at hlt
    exact Nat.lt_irrefl n hlt
  · intro p hp
    rcases List.mem_cons.mp hp with rfl | hp
    · exact Nat.lt_succ_self n
    · exact Nat.lt_succ_of_lt (h.fresh p hp)
  · intro x hx
    obtain ⟨p, hp, hid⟩ := h.known x hx
    exact ⟨p, List.mem_cons_of_mem _ hp, hid⟩
  · intro p hp
    rcases List.mem_cons.mp hp with rfl | hp
    · refine List.filterMap_eq_nil_iff.mpr fun x hx => if_neg fun hid => ?_
      obtain ⟨p, hp, hpid⟩ := h.known x hx
      have hlt := h.fresh p hp
      rw [hpid, hid] at hlt
      exact Nat.lt_irrefl n hlt
    · exact h.taken p hp

/-- What is done to peers short of polling them does not show. -/
theorem Books.map {xs ys : List Peer} (h : Books (xs ++ ys) n returned)
    {f : Peer → Peer} (hf : ∀ p, (f p).id = p.id ∧ consumed (f p) = consumed p) :
    Books (xs.map f ++ ys) n returned := by
  have hids : (xs.map f ++ ys).map Peer.id = (xs ++ ys).map Peer.id := by
    rw [List.map_append, List.map_append, List.map_map]
    exact congrArg (· ++ _) (List.map_congr_left fun p _ => (hf p).1)
  have hfrom : ∀ q ∈ xs.map f ++ ys, ∃ p ∈ xs ++ ys,
      q.id = p.id ∧ consumed q = consumed p := by
    intro q hq
    rcases List.mem_append.mp hq with hq | hq
    · obtain ⟨p, hp, rfl⟩ := List.mem_map.mp hq
      exact ⟨p, List.mem_append_left _ hp, hf p⟩
    · exact ⟨q, List.mem_append_right _ hq, rfl, rfl⟩
  refine ⟨hids ▸ h.ids, ?_, ?_, ?_⟩
  · intro q hq
    obtain ⟨p, hp, hid, -⟩ := hfrom q hq
    rw [hid]
    exact h.fresh p hp
  · intro x hx
    obtain ⟨p, hp, hid⟩ := h.known x hx
    rcases List.mem_append.mp hp with hp | hp
    · exact ⟨f p, List.mem_append_left _ (List.mem_map_of_mem hp), (hf p).1.trans hid⟩
    · exact ⟨p, List.mem_append_right _ hp, hid⟩
  · intro q hq
    obtain ⟨p, hp, hid, hc⟩ := hfrom q hq
    rw [hid, hc]
    exact h.taken p hp

/-- A poll, and the message it gave, if any, booked under the peer's number. -/
theorem Books.poll {p : Peer} (h : Books (p :: all) n returned) :
    Books (p.poll.2 :: all) n
      (returned ++ (okOf p.poll.1).toList.map fun msg => (p.id, msg)) := by
  refine ⟨h.ids, ?_, ?_, ?_⟩
  · intro q hq
    rcases List.mem_cons.mp hq with rfl | hq
    · exact h.fresh p List.mem_cons_self
    · exact h.fresh q (List.mem_cons_of_mem _ hq)
  · intro x hx
    rcases List.mem_append.mp hx with hx | hx
    · obtain ⟨q, hq, hid⟩ := h.known x hx
      rcases List.mem_cons.mp hq with rfl | hq
      · exact ⟨q.poll.2, List.mem_cons_self, hid⟩
      · exact ⟨q, List.mem_cons_of_mem _ hq, hid⟩
    · obtain ⟨msg, -, rfl⟩ := List.mem_map.mp hx
      exact ⟨p.poll.2, List.mem_cons_self, rfl⟩
  · intro q hq
    rw [source_append, source_tagged]
    rcases List.mem_cons.mp hq with rfl | hq
    · have hid : p.poll.2.id = p.id := rfl
      have hone : [p.poll.1].filterMap okOf = (okOf p.poll.1).toList := by
        cases hok : okOf p.poll.1 with
        | none => exact List.filterMap_cons_none hok
        | some msg => exact List.filterMap_cons_some hok
      rw [hid, if_pos rfl, consumed_poll, List.filterMap_append, hone,
        h.taken p List.mem_cons_self]
    · have hne : p.id ≠ q.id := by
        intro hid
        have hnot := (List.nodup_cons.mp h.ids).1
        rw [hid] at hnot
        exact hnot (List.mem_map_of_mem hq)
      rw [if_neg hne, List.append_nil]
      exact h.taken q (List.mem_cons_of_mem _ hq)

end

/-- The books, with the peers no poll of which has failed apart from the others. -/
structure Ledger (alive lost : List Peer) (admitted : Nat) (returned : List (Nat × Message)) :
    Prop extends Books (alive ++ lost) admitted returned where
  sound : ∀ p ∈ alive, ¬ Failed p
  failed : ∀ p ∈ lost, Failed p

section

variable {alive alive' lost lost' : List Peer} {n : Nat} {returned : List (Nat × Message)}

theorem Ledger.perm (h : Ledger alive lost n returned) (ha : alive.Perm alive')
    (hl : lost.Perm lost') : Ledger alive' lost' n returned :=
  ⟨h.toBooks.perm (ha.append hl), fun p hp => h.sound p (ha.mem_iff.mpr hp),
    fun p hp => h.failed p (hl.mem_iff.mpr hp)⟩

/-- One visit of `recv_any`. -/
theorem Ledger.visit {p : Peer} (h : Ledger (p :: alive) lost n returned) :
    Ledger ((Bus0.visit p).kept.toList ++ alive) (lost ++ (Bus0.visit p).removed.toList) n
      (returned ++ (Bus0.visit p).answer.toList) := by
  have hbooks := h.toBooks.poll
  have hanswer : (Bus0.visit p).answer.toList =
      (okOf p.poll.1).toList.map fun msg => (p.id, msg) := by
    rw [recvVisit_answer]
    cases okOf p.poll.1 <;> rfl
  have halive : ∀ q ∈ alive, ¬ Failed q := fun q hq => h.sound q (List.mem_cons_of_mem _ hq)
  rw [hanswer, recvVisit_kept, recvVisit_removed]
  split
  · next herr =>
      refine ⟨hbooks.perm ?_, halive, ?_⟩
      · exact (List.perm_append_singleton p.poll.2 (alive ++ lost)).symm.trans
          (.of_eq (List.append_assoc _ _ _))
      · refine forall_mem_concat h.failed ?_
        rw [failed_poll]
        exact Or.inr herr
  · next hfine =>
      rw [Option.toList_none, List.append_nil]
      refine ⟨hbooks, ?_, h.failed⟩
      intro q hq
      rcases List.mem_cons.mp hq with rfl | hq
      · rw [failed_poll]
        rintro (hfailed | herr)
        · exact h.sound p List.mem_cons_self hfailed
        · exact hfine herr
      · exact halive q hq

/-- All visits of a pass, one after the other. -/
theorem Ledger.visits {visited : List Peer}
    (h : Ledger (visited ++ alive) lost n returned) :
    Ledger (visited.filterMap (fun p => (Bus0.visit p).kept) ++ alive)
      (lost ++ visited.filterMap fun p => (Bus0.visit p).removed) n
      (returned ++ visited.filterMap fun p => (Bus0.visit p).answer) := by
  induction visited generalizing alive lost returned with
  | nil => simpa using h
  | cons p visited ih =>
      have hcons : ∀ {γ : Type} (f : Peer → Option γ),
          (p :: visited).filterMap f = (f p).toList ++ visited.filterMap f := by
        intro γ f
        cases hf : f p with
        | none => exact List.filterMap_cons_none hf
        | some x => exact List.filterMap_cons_some hf
      -- the peer kept waits behind those still to be visited
      have hfirst := h.visit.perm (List.perm_append_comm.trans
        (.of_eq (List.append_assoc _ _ _))) (.refl _)
      have hrest := ih hfirst
      rw [hcons, hcons, hcons, ← List.append_assoc lost, ← List.append_assoc returned]
      refine hrest.perm ?_ (.refl _)
      rw [← List.append_assoc, List.append_assoc (Bus0.visit p).kept.toList]
      exact List.perm_append_comm

end

/-! ## Runs -/

/-- The books of a bus are square. -/
structure BusInv (s : Bus0) : Prop where
  ledger : Ledger (s.hub.peers ++ s.hub.dropped) s.lost s.hub.admitted s.returned
  messages : s.returned.map Prod.snd = s.results.filterMap Except.toOption

theorem hub_push_ledger {h : Hub} {lost : List Peer} {returned : List (Nat × Message)}
    (hl : Ledger (h.peers ++ h.dropped) lost h.admitted returned) (b : Behaviour) :
    Ledger ((h.push b).peers ++ (h.push b).dropped) lost (h.push b).admitted returned := by
  have hnew : Ledger (.admitted b h.admitted h.sent.length :: (h.peers ++ h.dropped)) lost
      (h.admitted + 1) returned := by
    refine ⟨hl.toBooks.newcomer b _, ?_, hl.failed⟩
    intro p hp
    rcases List.mem_cons.mp hp with rfl | hp
    · rintro ⟨x, hx, -⟩
      cases hx
    · exact hl.sound p hp
  refine hnew.perm ?_ (.refl _)
  show List.Perm _ (h.peers ++ [.admitted b h.admitted h.sent.length] ++ h.dropped)
  rw [List.append_assoc]
  exact List.perm_middle.symm

theorem hub_sendAll_ledger {h : Hub} {lost : List Peer} {returned : List (Nat × Message)}
    (hl : Ledger (h.peers ++ h.dropped) lost h.admitted returned) (msg : Message) :
    Ledger ((h.sendAll msg).peers ++ (h.sendAll msg).dropped) lost (h.sendAll msg).admitted
      returned := by
  have hsame : ∀ p, (sentTo msg p).id = p.id ∧ consumed (sentTo msg p) = consumed p :=
    fun p => ⟨(send_spec p msg).1.id, (send_spec p msg).1.consumed⟩
  have hnew : Ledger (h.peers.map (sentTo msg) ++ h.dropped) lost h.admitted returned := by
    refine ⟨?_, ?_, hl.failed⟩
    · have hbooks := hl.toBooks
      rw [List.append_assoc] at hbooks ⊢
      exact hbooks.map hsame
    · intro q hq
      rcases List.mem_append.mp hq with hq | hq
      · obtain ⟨p, hp, rfl⟩ := List.mem_map.mp hq
        rw [Failed, (hsame p).2]
        exact hl.sound p (List.mem_append_left _ hp)
      · exact hl.sound q (List.mem_append_right _ hq)
  exact hnew.perm (sendAll_oneEach h msg).attempted.symm (.refl _)

theorem RecvPassed.ledger {s t : Bus0} {visited unvisited : List Peer}
    {result : Option (Nat × Message)} (h : RecvPassed s t visited unvisited result)
    (hl : Ledger (s.hub.peers ++ s.hub.dropped) s.lost s.hub.admitted s.returned) :
    Ledger (t.hub.peers ++ t.hub.dropped) t.lost t.hub.admitted t.returned := by
  have hdropped : t.hub.dropped = s.hub.dropped := by rw [h.hub]
  have hadmitted : t.hub.admitted = s.hub.admitted := by rw [h.hub]
  have hbefore := hl.perm (h.all.symm.append_right s.hub.dropped) (.refl _)
  rw [List.append_assoc] at hbefore
  have hafter := hbefore.visits
  rw [h.answers, ← h.returned, ← h.lost, ← List.append_assoc] at hafter
  rw [hdropped, hadmitted]
  exact hafter.perm (h.peers.symm.append_right _) (.refl _)

theorem RecvPassed.messages {s t : Bus0} {visited unvisited : List Peer}
    {result : Option (Nat × Message)} (h : RecvPassed s t visited unvisited result)
    (hm : s.returned.map Prod.snd = s.results.filterMap Except.toOption) :
    t.returned.map Prod.snd = t.results.filterMap Except.toOption := by
  cases h.ends with
  | noPeers _ hresults hreturned _ =>
      rw [hresults, hreturned, List.filterMap_append, hm]
      exact (List.append_nil _).symm
  | message _ hresults hreturned _ =>
      rw [hresults, hreturned, List.filterMap_append, List.map_append, hm]
      rfl
  | yields _ hresults hreturned _ => rw [hresults, hreturned, hm]

theorem busInv_run {s₀ s : Bus0} {acts : List Bus0Act} (hstart : BusStarted s₀)
    (hrun : run Bus0.step s₀ acts = some s) : BusInv s := by
  refine run_invariant ?_ ?_ hrun
  · have hempty : Ledger (Hub.empty.peers ++ Hub.empty.dropped) [] Hub.empty.admitted [] :=
      ⟨books_empty, nofun, nofun⟩
    obtain ⟨hledger, hfresh⟩ := busStarted_induction
      (P := fun h => Ledger (h.peers ++ h.dropped) [] h.admitted []) hempty
      (fun _ b hu => hub_push_ledger hu b) hstart
    rw [hfresh]
    exact ⟨hledger, rfl⟩
  · intro u a v hu hstep
    rcases bus_moved hstep with ⟨b, rfl, rfl⟩ | ⟨queue, rfl, rfl⟩ | ⟨msg, rfl, rfl⟩ |
      ⟨-, rfl⟩ | ⟨rfl, rfl⟩
    · exact ⟨hub_push_ledger hu.ledger b, hu.messages⟩
    · rw [Bus0.acceptPending]
      split
      · refine ⟨?_, hu.messages⟩
        exact acceptPending_induction
          (P := fun h => Ledger (h.peers ++ h.dropped) u.lost h.admitted u.returned)
          (fun _ b hh => hub_push_ledger hh b) hu.ledger queue
      · exact hu
    · exact ⟨hub_sendAll_ledger hu.ledger msg, hu.messages⟩
    · obtain ⟨visited, unvisited, result, hp⟩ := recvPass_spec u
      exact ⟨hp.ledger hu.ledger, hp.messages hu.messages⟩
    · exact ⟨hu.ledger, hu.messages⟩

/-! ## What the caller sees -/

theorem everyone_perm (s : Bus0) :
    (everyone s).Perm (s.hub.peers ++ s.hub.dropped ++ s.lost) := by
  rw [everyone, List.append_assoc, List.append_assoc]
  exact List.perm_append_comm.append_left _

theorem BusInv.receivedExactly {s : Bus0} (h : BusInv s) : ReceivedExactly s := by
  have hbooks := h.ledger.toBooks.perm (everyone_perm s).symm
  refine ⟨hbooks.ids, hbooks.known, h.messages, hbooks.taken, ?_⟩
  intro p hp
  refine ⟨h.ledger.failed p, fun hfailed => ?_⟩
  rcases List.mem_append.mp ((everyone_perm s).mem_iff.mp hp) with hp | hp
  · exact absurd hfailed (h.ledger.sound p hp)
  · exact hp

/-- Only a send drops a peer that no poll has failed of. -/
theorem dropped_empty {s₀ s : Bus0} {acts : List Bus0Act} (hstart : BusStarted s₀)
    (hrun : run Bus0.step s₀ acts = some s) (hquiet : ∀ msg, .broadcast msg ∉ acts) :
    s.hub.dropped = [] := by
  have hpush : ∀ (h : Hub) b, h.dropped = [] → (h.push b).dropped = [] := fun _ _ hd => hd
  refine run_invariant_of_labels (P := fun a => ∀ msg, a ≠ .broadcast msg)
    (I := fun u => u.hub.dropped = [])
    (busStarted_induction (P := fun h => h.dropped = []) rfl hpush hstart).1 ?_ hrun
    (fun a ha msg heq => hquiet msg (heq ▸ ha))
  intro u a v hother hbefore hstep
  rcases bus_moved hstep with ⟨b, rfl, rfl⟩ | ⟨queue, rfl, rfl⟩ | ⟨msg, rfl, rfl⟩ |
    ⟨-, rfl⟩ | ⟨rfl, rfl⟩
  · exact hbefore
  · rw [Bus0.acceptPending]
    split
    · exact acceptPending_induction (P := fun h => h.dropped = []) hpush hbefore queue
    · exact hbefore
  · exact absurd rfl (hother msg)
  · obtain ⟨visited, unvisited, result, hp⟩ := recvPass_spec u
    rw [hp.hub]
    exact hbefore
  · exact hbefore

/-- A peer that was visited is kept or goes. -/
theorem kept_removed_perm (visited : List Peer) :
    (visited.filterMap (fun p => (Bus0.visit p).kept) ++
      visited.filterMap fun p => (Bus0.visit p).removed).Perm
        (visited.map fun p => p.poll.2) := by
  induction visited with
  | nil => exact .nil
  | cons p visited ih =>
      cases herr : isErr p.poll.1 with
      | true =>
          rw [List.filterMap_cons_none (by rw [recvVisit_kept, herr]; rfl),
            List.filterMap_cons_some (b := p.poll.2) (by rw [recvVisit_removed, herr]; rfl)]
          exact List.perm_middle.trans (ih.cons _)
      | false =>
          rw [List.filterMap_cons_some (b := p.poll.2) (by rw [recvVisit_kept, herr]; rfl),
            List.filterMap_cons_none (by rw [recvVisit_removed, herr]; rfl)]
          exact ih.cons _

theorem RecvPassed.polledOnce {s t : Bus0} {visited unvisited : List Peer}
    {result : Option (Nat × Message)} (h : RecvPassed s t visited unvisited result) :
    PolledOnce s t := by
  refine ⟨visited, unvisited, h.all, ?_, fun hsame => h.done ?_⟩
  · rw [h.lost]
    refine (h.peers.append_right _).trans ?_
    -- kept, unvisited, lost before, removed: the last goes to the front
    refine .trans ?_ (((kept_removed_perm visited).append_right unvisited).append_right s.lost)
    simp only [List.append_assoc]
    refine List.Perm.append_left _ ?_
    rw [← List.append_assoc, ← List.append_assoc, List.append_assoc _ unvisited]
    exact List.perm_append_comm
  · rw [h.returned] at hsame
    exact Option.toList_eq_nil_iff.mp (List.self_eq_append_right.mp hsame.symm)

/-- In every state of every run of a bus: the messages returned are, peer by
peer and in order, the `Ok` results taken from it, and a peer has been lost if
and only if a poll of it failed; without broadcasts no other peer has left. A
poll of `recv_any` polls each peer once at most, and once unless it returns a
message, and it returns `NoPeers` if and only if no peer is left. -/
theorem recv_any_exact {s₀ s : Bus0} {acts : List Bus0Act} (hstart : BusStarted s₀)
    (hrun : run Bus0.step s₀ acts = some s) :
    ReceivedExactly s ∧
      ((∀ msg, .broadcast msg ∉ acts) →
        ∀ p ∈ everyone s, p ∉ s.hub.peers ↔ Failed p) ∧
      ∀ a t, a = .recvAny ∨ a = .resume → s.step a = some t →
        PolledOnce s t ∧ PassEnd s t ∧
          (t.results = s.results ++ [.error .noPeers] ↔ s.hub.peers = []) := by
  have hinv := busInv_run hstart hrun
  refine ⟨hinv.receivedExactly, ?_, ?_⟩
  · intro hquiet p hp
    have hdropped := dropped_empty hstart hrun hquiet
    constructor
    · intro hgone
      rw [everyone, hdropped, List.append_nil] at hp
      rcases List.mem_append.mp hp with hp | hp
      · exact absurd hp hgone
      · exact hinv.ledger.failed p hp
    · intro hfailed hpeer
      exact hinv.ledger.sound p (List.mem_append_left _ hpeer) hfailed
  · intro a t ha hstep
    rcases bus_moved hstep with ⟨b, rfl, -⟩ | ⟨queue, rfl, -⟩ | ⟨msg, rfl, -⟩ |
      ⟨-, rfl⟩ | ⟨rfl, -⟩
    · rcases ha with h | h <;> cases h
    · rcases ha with h | h <;> cases h
    · rcases ha with h | h <;> cases h
    · obtain ⟨visited, unvisited, result, hp⟩ := recvPass_spec s
      refine ⟨hp.polledOnce, hp.ends, ?_⟩
      cases hp.ends with
      | noPeers hnone hresults _ _ => exact ⟨fun _ => hnone, fun _ => hresults⟩
      | message hsome hresults _ _ =>
          rw [hresults]
          exact ⟨fun heq => by simp at heq, fun hnone => absurd hnone hsome⟩
      | yields hsome hresults _ _ =>
          rw [hresults]
          exact ⟨fun heq => by simp at heq, fun hnone => absurd hnone hsome⟩
    · rcases ha with h | h <;> cases h

/-! Three peers: the first has nothing, the second fails and the third, which takes
its place, has a message at its second poll. The first call is dropped at its
yield. -/

def silent : Behaviour := ⟨.tcp, fun _ => .ok 1, fun _ => .pending⟩

def hangingUp : Behaviour :=
  ⟨.tcp, fun _ => .ok 1, fun _ => .ready (.error .connectionClosed)⟩

def speaking : Behaviour :=
  ⟨.tcp, fun _ => .ok 1, fun k => if k = 0 then .pending else .ready (.ok ⟨[], [7]⟩)⟩

def droppedOnce : List Bus0Act :=
  [.addPeer silent, .addPeer hangingUp, .addPeer speaking, .recvAny, .drop, .recvAny]

def droppedOnceSeen (s : Bus0) : List (Nat × Message) × List Nat × List Nat :=
  (s.returned, s.hub.peers.map Peer.id, s.lost.map Peer.id)

theorem recv_any_exact_dropped_once :
    ∃ s, run Bus0.step .bind droppedOnce = some s ∧
      droppedOnceSeen s = ([(2, ⟨[], [7]⟩)], [0, 2], [1]) ∧ ReceivedExactly s := by
  have hseen : (run Bus0.step .bind droppedOnce).map droppedOnceSeen =
      some ([(2, ⟨[], [7]⟩)], [0, 2], [1]) := by decide +kernel
  obtain ⟨s, hrun, hs⟩ := Option.map_eq_some_iff.mp hseen
  exact ⟨s, hrun, hs, (recv_any_exact (.inr (.inr rfl)) hrun).1⟩

end NngCore.Proofs
