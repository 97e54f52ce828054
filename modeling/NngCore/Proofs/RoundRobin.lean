import NngCore.Proofs.RecvAny

/-!
# Whose turn it is

Every call of `recv_any` starts its pass at index zero, and a message found
ends the call. A first peer that always has one is therefore all that is ever
polled: the calls return its messages and nobody else's, however many calls
are made, and they take turns only in a vector of one.
-/

namespace NngCore.Proofs

open NngCore.Lib NngCore.Ref NngCore.Spec

/-- A pass that finds a message at the first peer polls nobody else. -/
theorem pass_first {s : Bus0} {p : Peer} {ps : List Peer} {msg : Message}
    (hpeers : s.hub.peers = p :: ps) (hready : p.behaviour.polls p.polled = .ready (.ok msg)) :
    s.pass =
      { s with
        hub := { s.hub with peers := p.poll.2 :: ps }
        lost := s.lost ++ []
        live := false
        returned := s.returned ++ [(p.id, msg)]
        results := s.results ++ [.ok msg] } := by
  have hvisit : Bus0.visit p = .stop p.poll.2 (p.id, msg) := by
    simp only [Bus0.visit, Peer.poll, hready]
  have hsweep : sweep Bus0.visit (p :: ps).length 0 (p :: ps) =
      ⟨p.poll.2 :: ps, [], some (p.id, msg)⟩ := by
    simp only [List.length_cons, sweep, List.getElem?_cons_zero, hvisit, List.set_cons_zero]
  simp only [Bus0.pass, hpeers, hsweep]

/-- However often `recv_any` is called, the first peer is served. -/
theorem firstServed {s : Bus0} {p : Peer} {ps : List Peer} (hlive : s.live = false)
    (hpeers : s.hub.peers = p :: ps) (hready : EverReady p) (k : Nat) :
    ∃ t, ∃ msgs : List Message, msgs.length = k ∧
      run Bus0.step s (List.replicate k .recvAny) = some t ∧
      t.returned = s.returned ++ msgs.map (fun msg => (p.id, msg)) := by
  induction k generalizing s p with
  | zero => exact ⟨s, [], rfl, rfl, (List.append_nil _).symm⟩
  | succ k ih =>
      obtain ⟨msg, hmsg⟩ := hready p.polled
      have hpass := pass_first hpeers hmsg
      have hstep : s.step .recvAny = some s.pass := by simp only [Bus0.step, hlive]
      -- the peer polled is the same peer, one poll later
      obtain ⟨t, msgs, hlen, hrun, hret⟩ := ih (s := s.pass) (p := p.poll.2) (by rw [hpass])
        (by rw [hpass]) hready
      refine ⟨t, msg :: msgs, by rw [List.length_cons, hlen], ?_, ?_⟩
      · rw [List.replicate_succ]
        exact run_cons.mpr ⟨s.pass, hstep, hrun⟩
      · rw [hret, hpass, List.append_assoc]
        rfl

/-- Nobody else's message is among those returned. -/
theorem served_first {s t : Bus0} {p : Peer} {ps : List Peer} {k : Nat}
    {served : List (Nat × Message)} (hlive : s.live = false) (hpeers : s.hub.peers = p :: ps)
    (hready : EverReady p) (hrun : run Bus0.step s (List.replicate k .recvAny) = some t)
    (hret : t.returned = s.returned ++ served) : ∀ x ∈ served, x.1 = p.id := by
  intro x hx
  obtain ⟨t', msgs, -, hrun', hret'⟩ := firstServed hlive hpeers hready k
  rw [hrun] at hrun'
  cases hrun'
  rw [hret] at hret'
  rw [List.append_cancel_left hret'] at hx
  obtain ⟨msg, -, rfl⟩ := List.mem_map.mp hx
  rfl

section Second

variable {s : Bus0} {p q : Peer} {qs : List Peer}

theorem not_nobodyStarves (hlive : s.live = false) (hpeers : s.hub.peers = p :: q :: qs)
    (hready : EverReady p) (hne : p.id ≠ q.id) : ¬ NobodyStarves s := by
  intro hfair
  have hq : q ∈ s.hub.peers := by
    rw [hpeers]
    exact List.mem_cons_of_mem p List.mem_cons_self
  obtain ⟨k, t, served, msg, hrun, hret, hmem⟩ := hfair q hq
  exact hne (served_first hlive hpeers hready hrun hret _ hmem).symm

theorem not_oneTurnEach (hlive : s.live = false) (hpeers : s.hub.peers = p :: q :: qs)
    (hready : EverReady p) (hne : p.id ≠ q.id) : ¬ OneTurnEach s := by
  rintro ⟨t, served, hrun, hret, hperm⟩
  have hq : q.id ∈ served.map Prod.fst := by
    rw [hperm.mem_iff, hpeers]
    exact List.mem_cons_of_mem p.id List.mem_cons_self
  obtain ⟨x, hx, hid⟩ := List.mem_map.mp hq
  exact hne ((served_first hlive hpeers hready hrun hret x hx).symm.trans hid)

end Second

/-- A bus of peers that are always ready serves them in turn exactly when it has
only one. -/
theorem recvAny_round_robin_iff {s₀ s : Bus0} {acts : List Bus0Act} (hstart : BusStarted s₀)
    (hrun : run Bus0.step s₀ acts = some s) (hlive : s.live = false)
    (hpeers : s.hub.peers ≠ []) (hready : ∀ p ∈ s.hub.peers, EverReady p) :
    OneTurnEach s ∧ NobodyStarves s ↔ s.hub.peers.length = 1 := by
  have hids : (s.hub.peers.map Peer.id).Nodup := by
    have hall := (busInv_run hstart hrun).receivedExactly.ids
    rw [everyone, List.append_assoc, List.map_append] at hall
    exact (List.nodup_append.mp hall).1
  obtain ⟨p, ps, hcons⟩ := List.exists_cons_of_ne_nil hpeers
  have hp : EverReady p := hready p (hcons ▸ List.mem_cons_self)
  constructor
  · rintro ⟨-, hfair⟩
    cases ps with
    | nil => rw [hcons]; rfl
    | cons q qs =>
        have hne : p.id ≠ q.id := by
          rw [hcons] at hids
          intro hsame
          exact (List.nodup_cons.mp hids).1 (hsame ▸ List.mem_cons_self)
        exact absurd hfair (not_nobodyStarves hlive hcons hp hne)
  · intro hone
    have hnil : ps = [] := by
      rw [hcons] at hone
      exact List.length_eq_zero_iff.mp (Nat.succ.inj hone)
    subst hnil
    obtain ⟨t, msgs, hlen, hrun', hret⟩ := firstServed hlive hcons hp 1
    obtain ⟨msg, rfl⟩ := List.length_eq_one_iff.mp hlen
    refine ⟨⟨t, [(p.id, msg)], ?_, hret, ?_⟩, ?_⟩
    · rw [hone]
      exact hrun'
    · rw [hcons]
      exact .refl _
    · intro q hq
      rw [hcons, List.mem_singleton] at hq
      subst hq
      exact ⟨1, t, [(q.id, msg)], msg, hrun', hret, List.mem_singleton_self _⟩

/-- A peer that sends without end. -/
def flooding : Behaviour := ⟨.tcp, fun _ => .ok 1, fun _ => .ready (.ok ⟨[], [7]⟩)⟩

theorem recvAny_round_robin_single :
    OneTurnEach (.dial flooding) ∧ NobodyStarves (.dial flooding) := by
  have hrun : run Bus0.step (.dial flooding) [] = some (.dial flooding) := rfl
  refine (recvAny_round_robin_iff (.inr (.inl ⟨flooding, rfl⟩)) hrun rfl
    (List.cons_ne_nil _ _) ?_).mpr rfl
  intro p hp k
  rw [List.mem_singleton.mp hp]
  exact ⟨_, rfl⟩

/-- Two peers that send without end: the second gets no turn. -/
theorem second_peer_starves :
    ∃ s, run Bus0.step .bind [.addPeer flooding, .addPeer flooding] = some s ∧
      ¬ OneTurnEach s ∧ ¬ NobodyStarves s := by
  have hready : EverReady (.admitted flooding 0 0) := fun _ => ⟨_, rfl⟩
  refine ⟨_, rfl, ?_, ?_⟩
  · exact not_oneTurnEach (p := .admitted flooding 0 0) (q := .admitted flooding 1 0) rfl rfl
      hready Nat.zero_ne_one
  · exact not_nobodyStarves (p := .admitted flooding 0 0) (q := .admitted flooding 1 0) rfl rfl
      hready Nat.zero_ne_one

end NngCore.Proofs
