import NngCore.Proofs.HubLoops

/-!
# A message to every peer, once

A peer that is still there has the frames of all that was sent since it joined:
joining adds one with nothing to show for nothing sent, a loop of sends adds a
frame to each that is kept, and what `recv_any` does to the vector changes
nothing a peer was sent.
-/

namespace NngCore.Proofs

open NngCore.Lib NngCore.Ref NngCore.Spec

/-! ## Runs -/

/-- Every peer still there has what was sent since it joined. -/
structure HubInv (h : Hub) : Prop extends InOrder h where
  joined : ∀ p ∈ h.peers ++ h.dropped, p.since ≤ h.sent.length

theorem hubInv_empty : HubInv .empty := ⟨⟨nofun, nofun, nofun⟩, nofun⟩

theorem HubInv.push {h : Hub} (hi : HubInv h) (b : Behaviour) : HubInv (h.push b) := by
  have hnew : h.sent.drop h.sent.length = [] := List.drop_length
  refine ⟨⟨?_, ?_, hi.dropped⟩, ?_⟩
  · exact forall_mem_concat hi.attempts hnew.symm
  · refine forall_mem_concat hi.wires ?_
    show [] = (h.sent.drop h.sent.length).flatMap _
    rw [hnew]
    rfl
  · intro p hp
    rcases List.mem_append.mp hp with hp | hp
    · rcases List.mem_append.mp hp with hp | hp
      · exact hi.joined p (List.mem_append_left _ hp)
      · rw [List.mem_singleton.mp hp]
        exact Nat.le_refl _
    · exact hi.joined p (List.mem_append_right _ hp)

theorem HubInv.acceptPending {h : Hub} (hi : HubInv h) (queue : List Accepted) :
    HubInv (h.acceptPending queue) :=
  acceptPending_induction (fun _ b hu => hu.push b) hi queue

/-- A peer that was just sent `msg` was sent all since it joined. -/
theorem HubInv.sentTo_attempts {h : Hub} {p : Peer} {msg : Message} (hi : HubInv h)
    (hp : p ∈ h.peers) :
    (sentTo msg p).attempts = (h.sent ++ [msg]).drop (sentTo msg p).since := by
  have hsame := (send_spec p msg).1
  have hjoined := hi.joined p (List.mem_append_left _ hp)
  rw [hsame.attempts, hsame.since, List.drop_append_of_le_length hjoined]
  exact congrArg (· ++ [msg]) (hi.attempts p hp)

theorem HubInv.sendAll {h : Hub} (hi : HubInv h) (msg : Message) : HubInv (h.sendAll msg) := by
  obtain ⟨hkept, gone, hdropped, hgone⟩ := sendAll_spec h msg
  have hpeer : ∀ q ∈ (h.sendAll msg).peers,
      ∃ p ∈ h.peers, accepts msg p = true ∧ sentTo msg p = q := by
    intro q hq
    obtain ⟨p, hp, hpq⟩ := List.mem_map.mp (hkept.mem_iff.mp hq)
    exact ⟨p, (List.mem_filter.mp hp).1, (List.mem_filter.mp hp).2, hpq⟩
  have hgonePeer : ∀ q ∈ gone, ∃ p ∈ h.peers, sentTo msg p = q := by
    intro q hq
    obtain ⟨p, hp, hpq⟩ := List.mem_map.mp (hgone.mem_iff.mp hq)
    exact ⟨p, (List.mem_filter.mp hp).1, hpq⟩
  have hsince : ∀ p ∈ h.peers, (sentTo msg p).since ≤ (h.sent ++ [msg]).length := by
    intro p hp
    rw [(send_spec p msg).1.since, List.length_append]
    exact Nat.le_add_right_of_le (hi.joined p (List.mem_append_left _ hp))
  refine ⟨⟨?_, ?_, ?_⟩, ?_⟩
  · intro q hq
    obtain ⟨p, hp, -, rfl⟩ := hpeer q hq
    exact hi.sentTo_attempts hp
  · intro q hq
    obtain ⟨p, hp, hacc, rfl⟩ := hpeer q hq
    have hsame := (send_spec p msg).1
    have hjoined := hi.joined p (List.mem_append_left _ hp)
    show (sentTo msg p).wire = ((h.sent ++ [msg]).drop (sentTo msg p).since).flatMap
      (frameBytes (sentTo msg p).behaviour.fmt)
    rw [(send_spec p msg).2 hacc, hsame.since, hsame.behaviour,
      List.drop_append_of_le_length hjoined, List.flatMap_append, List.flatMap_singleton]
    exact congrArg (· ++ _) (hi.wires p hp)
  · intro q hq
    rw [hdropped] at hq
    show q.attempts <+: (h.sent ++ [msg]).drop q.since
    rcases List.mem_append.mp hq with hq | hq
    · rw [List.drop_append_of_le_length (hi.joined q (List.mem_append_right _ hq))]
      exact (hi.dropped q hq).trans (List.prefix_append _ _)
    · obtain ⟨p, hp, rfl⟩ := hgonePeer q hq
      rw [hi.sentTo_attempts hp]
  · intro q hq
    rcases List.mem_append.mp hq with hq | hq
    · obtain ⟨p, hp, -, rfl⟩ := hpeer q hq
      exact hsince p hp
    · rw [hdropped] at hq
      rcases List.mem_append.mp hq with hq | hq
      · show q.since ≤ (h.sent ++ [msg]).length
        rw [List.length_append]
        exact Nat.le_add_right_of_le (hi.joined q (List.mem_append_right _ hq))
      · obtain ⟨p, hp, rfl⟩ := hgonePeer q hq
        exact hsince p hp

theorem HubInv.passed {s t : Bus0} {visited unvisited : List Peer}
    {result : Option (Nat × Message)} (hi : HubInv s.hub)
    (h : RecvPassed s t visited unvisited result) : HubInv t.hub := by
  have hsent : t.hub.sent = s.hub.sent := by rw [h.hub]
  have hdropped : t.hub.dropped = s.hub.dropped := by rw [h.hub]
  refine ⟨⟨?_, ?_, ?_⟩, ?_⟩
  · intro q hq
    rw [hsent]
    obtain ⟨p, hp, rfl | rfl⟩ := h.mem_peers hq
    · exact hi.attempts q hp
    · exact hi.attempts p hp
  · intro q hq
    rw [hsent]
    obtain ⟨p, hp, rfl | rfl⟩ := h.mem_peers hq
    · exact hi.wires q hp
    · exact hi.wires p hp
  · rw [hsent, hdropped]
    exact hi.dropped
  · intro q hq
    rw [hsent]
    rcases List.mem_append.mp hq with hq | hq
    · obtain ⟨p, hp, rfl | rfl⟩ := h.mem_peers hq
      · exact hi.joined q (List.mem_append_left _ hp)
      · exact hi.joined p (List.mem_append_left _ hp)
    · rw [hdropped] at hq
      exact hi.joined q (List.mem_append_right _ hq)

theorem bus_inOrder {s₀ s : Bus0} {acts : List Bus0Act} (hstart : BusStarted s₀)
    (hrun : run Bus0.step s₀ acts = some s) : HubInv s.hub := by
  refine run_invariant (I := fun u => HubInv u.hub) ?_ ?_ hrun
  · exact (busStarted_induction hubInv_empty (fun _ b hu => hu.push b) hstart).1
  · intro u a v hu hstep
    rcases bus_moved hstep with ⟨b, rfl, rfl⟩ | ⟨queue, rfl, rfl⟩ | ⟨msg, rfl, rfl⟩ |
      ⟨-, rfl⟩ | ⟨rfl, rfl⟩
    · exact hu.push b
    · rw [Bus0.acceptPending]
      split
      · exact hu.acceptPending queue
      · exact hu
    · exact hu.sendAll msg
    · obtain ⟨visited, unvisited, result, hp⟩ := recvPass_spec u
      exact hu.passed hp
    · exact hu

theorem pub_inOrder {s : Pub0} {acts : List Pub0Act}
    (hrun : run Pub0.step .listen acts = some s) : HubInv s.subscribers := by
  refine run_invariant (I := fun u => HubInv u.subscribers) hubInv_empty ?_ hrun
  intro u a v hu hstep
  cases a with
  | waitForSubscribers n attempts =>
      obtain ⟨hub, hdone, rfl⟩ := Option.map_eq_some_iff.mp hstep
      exact acceptUntil_induction (fun _ b hu => hu.push b) hu hdone
  | publish queue msg =>
      cases hstep
      exact (hu.acceptPending queue).sendAll msg

/-! ## Fan-out -/

/-- Whatever the peers' streams do, and whoever joins in between: each call
sends its message once to every peer there is when its loop starts and keeps
those that took it, and every peer still there has been sent, and has, exactly
the messages since it joined. -/
theorem fan_out_exact :
    (∀ s₀ acts s, BusStarted s₀ → run Bus0.step s₀ acts = some s → InOrder s.hub ∧
      ∀ msg t, s.step (.broadcast msg) = some t → OneSendEach msg s.hub t.hub) ∧
    (∀ acts s, run Pub0.step .listen acts = some s → InOrder s.subscribers ∧
      ∀ queue msg t, s.step (.publish queue msg) = some t →
        OneSendEach msg (s.subscribers.acceptPending queue) t.subscribers) := by
  constructor
  · intro s₀ acts s hstart hrun
    refine ⟨(bus_inOrder hstart hrun).toInOrder, fun msg t hstep => ?_⟩
    rcases bus_moved hstep with ⟨b, h, -⟩ | ⟨queue, h, -⟩ | ⟨msg', h, rfl⟩ |
      ⟨h | h, -⟩ | ⟨h, -⟩
    · cases h
    · cases h
    · cases h
      exact sendAll_oneEach s.hub msg
    · cases h
    · cases h
    · cases h
  · intro acts s hrun
    refine ⟨(pub_inOrder hrun).toInOrder, fun queue msg t hstep => ?_⟩
    cases hstep
    exact sendAll_oneEach _ msg

/-! Three peers, the second of which fails inside its first frame: the third takes
its place and is sent the message all the same. -/

def willing : Behaviour := ⟨.tcp, fun _ => .ok 8, fun _ => .pending⟩

def failing : Behaviour :=
  ⟨.ipc, fun k => if k = 0 then .ok 1 else .err "reset", fun _ => .pending⟩

def oneFails : List Bus0Act :=
  [.addPeer willing, .addPeer failing, .addPeer willing, .broadcast ⟨[], [7]⟩]

theorem fan_out_exact_one_fails :
    ∃ s, run Bus0.step .bind oneFails = some s ∧
      s.hub.peers.map (fun p => (p.id, p.wire)) =
        [(0, [0, 0, 0, 0, 0, 0, 0, 1, 7]), (2, [0, 0, 0, 0, 0, 0, 0, 1, 7])] ∧
      s.hub.dropped.map (fun p => (p.id, p.wire)) = [(1, [1])] ∧ InOrder s.hub :=
  ⟨_, rfl, by decide +kernel, by decide +kernel,
    (fan_out_exact.1 .bind oneFails _ (.inr (.inr rfl)) rfl).1⟩

end NngCore.Proofs
