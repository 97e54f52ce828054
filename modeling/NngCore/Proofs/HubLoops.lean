import NngCore.Proofs.Send
import NngCore.Spec.Hub

/-!
# One loop over the peers

The loop of `broadcast` and `publish` and the pass of `recv_any` are sweeps, so
each peer present at the start is sent the message once, or polled once,
however many of them go and wherever they stand. A send leaves a peer as it was
but for what was written, and one that succeeds has written the whole frame.
-/

namespace NngCore.Proofs

open NngCore.Lib NngCore.Ref NngCore.Spec

/-! ## One peer -/

/-- `q` is `p` but for what was written on its stream. -/
structure SamePeer (p q : Peer) : Prop where
  behaviour : q.behaviour = p.behaviour
  polled : q.polled = p.polled
  id : q.id = p.id
  since : q.since = p.since
  attempts : q.attempts = p.attempts

theorem SamePeer.refl (p : Peer) : SamePeer p p := ⟨rfl, rfl, rfl, rfl, rfl⟩

theorem SamePeer.trans {p q r : Peer} (h : SamePeer p q) (h' : SamePeer q r) :
    SamePeer p r where
  behaviour := h'.behaviour.trans h.behaviour
  polled := h'.polled.trans h.polled
  id := h'.id.trans h.id
  since := h'.since.trans h.since
  attempts := h'.attempts.trans h.attempts

theorem sendLoop_ready (fuel : Nat) (r : Except TransportError Unit) (p : Peer) :
    Peer.sendLoop fuel (.ready r) p = (r.mapError .ofTransport, p) := by
  cases fuel <;> rfl

/-- A write takes bytes off what the send still has to write. -/
theorem pollLeft_resume {fut : SendFut} {n : Nat} (hle : n ≤ fut.offered.length)
    (hoff : fut.offered ≠ []) :
    (pollLeft (fut.resume (.ok n))).length + 1 ≤ fut.left.length := by
  cases n with
  | zero => exact List.length_pos_iff.mpr (left_ne_nil hoff)
  | succ n =>
      have hleft := congrArg List.length (resume_left (n := n + 1) (by omega) hle)
      rw [List.length_append, List.length_take] at hleft
      omega

theorem write_wire (p : Peer) (offered : List UInt8) :
    SamePeer p (p.write offered).2 ∧
      ((∃ n, n ≤ offered.length ∧ (p.write offered).1 = .ok n ∧
          (p.write offered).2.wire = p.wire ++ offered.take n) ∨
        ∃ e, (p.write offered).1 = .err e ∧ (p.write offered).2.wire = p.wire) := by
  rw [Peer.write]
  cases p.behaviour.writes p.written with
  | ok n => exact ⟨⟨rfl, rfl, rfl, rfl, rfl⟩, Or.inl ⟨_, Nat.min_le_right _ _, rfl, rfl⟩⟩
  | err e => exact ⟨⟨rfl, rfl, rfl, rfl, rfl⟩, Or.inr ⟨e, rfl, rfl⟩⟩

/-- A send that stands at `poll` with `sent` behind it goes on to its end, and
if that is `Ok`, all of the frame is on the wire. -/
theorem sendLoop_spec {frame sent wire : List UInt8} {fuel : Nat} {poll : SendPoll}
    {p : Peer} (hwire : p.wire = wire ++ sent) (hat : SendAt frame sent poll)
    (hfuel : (pollLeft poll).length ≤ fuel) :
    SamePeer p (Peer.sendLoop fuel poll p).2 ∧
      ((Peer.sendLoop fuel poll p).1.isOk = true →
        (Peer.sendLoop fuel poll p).2.wire = wire ++ frame) := by
  match poll with
  | .ready (.error e) =>
      rw [sendLoop_ready]
      exact ⟨.refl p, nofun⟩
  | .ready (.ok ()) =>
      have hall : sent = frame := hat
      rw [sendLoop_ready, ← hall]
      exact ⟨.refl p, fun _ => hwire⟩
  | .pending fut =>
      match fuel with
      | 0 =>
          have hnil := List.length_eq_zero_iff.mp (Nat.le_zero.mp hfuel)
          exact absurd hnil (left_ne_nil hat.2)
      | fuel + 1 =>
          obtain ⟨hsame, hwrite⟩ := write_wire p fut.offered
          simp only [Peer.sendLoop]
          rcases hwrite with ⟨n, hle, hr, hw⟩ | ⟨e, hr, hw⟩
          · have hless := pollLeft_resume hle hat.2
            have hfuel' : (pollLeft (fut.resume (.ok n))).length ≤ fuel :=
              Nat.le_of_succ_le_succ (Nat.le_trans hless hfuel)
            rw [hr]
            obtain ⟨hpeer, hdone⟩ := sendLoop_spec (p := (p.write fut.offered).2)
              (by rw [hw, hwire, List.append_assoc]) (sendAt_written hat hle) hfuel'
            exact ⟨hsame.trans hpeer, hdone⟩
          · rw [hr]
            obtain ⟨hpeer, hdone⟩ := sendLoop_spec (p := (p.write fut.offered).2)
              (hw.trans hwire) (sendAt_error hat e) (Nat.zero_le fuel)
            exact ⟨hsame.trans hpeer, hdone⟩

/-- What a send does to its peer. -/
theorem send_spec (p : Peer) (msg : Message) :
    SamePeer { p with attempts := p.attempts ++ [msg] } (sentTo msg p) ∧
      (accepts msg p = true →
        (sentTo msg p).wire = p.wire ++ frameBytes p.behaviour.fmt msg) := by
  refine sendLoop_spec (List.append_nil p.wire).symm (sendAt_start p.behaviour.fmt msg) ?_
  rw [sendStart_left]

/-! ## One loop of sends -/

theorem sendVisit_eq (msg : Message) (p : Peer) :
    Hub.visit msg p =
      if accepts msg p then .keep (sentTo msg p) else .remove (sentTo msg p) := by
  rw [Hub.visit, accepts, sentTo]
  match p.send msg with
  | (.error e, q) => rfl
  | (.ok (), q) => rfl

theorem sendVisit_kept (msg : Message) (ps : List Peer) :
    ps.filterMap (fun p => (Hub.visit msg p).kept) =
      (ps.filter (accepts msg)).map (sentTo msg) := by
  induction ps with
  | nil => rfl
  | cons p ps ih =>
      rw [List.filter_cons]
      split
      · next h =>
          rw [List.filterMap_cons_some (b := sentTo msg p)
            (by rw [sendVisit_eq, if_pos h]; rfl), ih]
          rfl
      · next h => rw [List.filterMap_cons_none (by rw [sendVisit_eq, if_neg h]; rfl), ih]

theorem sendVisit_removed (msg : Message) (ps : List Peer) :
    ps.filterMap (fun p => (Hub.visit msg p).removed) =
      (ps.filter (fun p => !accepts msg p)).map (sentTo msg) := by
  induction ps with
  | nil => rfl
  | cons p ps ih =>
      rw [List.filter_cons]
      cases h : accepts msg p with
      | true => rw [List.filterMap_cons_none (by rw [sendVisit_eq, h]; rfl), ih]; rfl
      | false =>
          rw [List.filterMap_cons_some (b := sentTo msg p) (by rw [sendVisit_eq, h]; rfl), ih]
          rfl

/-- No visit ends the loop early. -/
theorem sendVisit_answer (msg : Message) (ps : List Peer) :
    ps.filterMap (fun p => (Hub.visit msg p).answer) = [] := by
  refine List.filterMap_eq_nil_iff.mpr fun p _ => ?_
  rw [sendVisit_eq]
  split <;> rfl

/-- The peers kept and the peers that went, up to order. -/
theorem sendAll_spec (h : Hub) (msg : Message) :
    (h.sendAll msg).peers.Perm ((h.peers.filter (accepts msg)).map (sentTo msg)) ∧
      ∃ gone, (h.sendAll msg).dropped = h.dropped ++ gone ∧
        gone.Perm ((h.peers.filter (fun p => !accepts msg p)).map (sentTo msg)) := by
  obtain ⟨visited, unvisited, hc⟩ :=
    sweep_spec (Hub.visit msg) [] (Nat.le_refl h.peers.length)
  have hdone : unvisited = [] := by
    refine hc.done ?_
    have hnone := hc.answers
    rw [sendVisit_answer] at hnone
    exact Option.toList_eq_nil_iff.mp hnone.symm
  subst hdone
  have hall : visited.Perm h.peers := (List.append_nil visited).symm ▸ hc.all
  refine ⟨?_, _, rfl, ?_⟩
  · have hlist := hc.list
    rw [List.append_nil, sendVisit_kept] at hlist
    exact hlist.trans ((hall.filter _).map _)
  · have hgone := hc.gone
    rw [sendVisit_removed] at hgone
    exact (List.Perm.of_eq hgone).trans ((hall.filter _).map _)

theorem sendAll_oneEach (h : Hub) (msg : Message) : OneSendEach msg h (h.sendAll msg) := by
  obtain ⟨hkept, gone, hdropped, hgone⟩ := sendAll_spec h msg
  refine ⟨?_, hkept, fun p => (send_spec p msg).1.attempts⟩
  have hsplit : ((h.peers.filter (accepts msg)).map (sentTo msg) ++
      (h.peers.filter (fun p => !accepts msg p)).map (sentTo msg)).Perm
        (h.peers.map (sentTo msg)) := by
    rw [← List.map_append]
    exact (List.filter_append_perm (accepts msg) h.peers).map _
  rw [hdropped]
  have hcomm : ((h.sendAll msg).peers ++ (h.dropped ++ gone)).Perm
      ((h.sendAll msg).peers ++ gone ++ h.dropped) := by
    rw [List.append_assoc]
    exact List.perm_append_comm.append_left _
  exact hcomm.trans (((hkept.append hgone).trans hsplit).append_right _)

/-! ## One pass of polls -/

theorem recvVisit_kept (p : Peer) :
    (Bus0.visit p).kept = if isErr p.poll.1 then none else some p.poll.2 := by
  rw [Bus0.visit]
  match p.poll with
  | (.pending, q) => rfl
  | (.ready (.ok msg), q) => rfl
  | (.ready (.error e), q) => rfl

theorem recvVisit_removed (p : Peer) :
    (Bus0.visit p).removed = if isErr p.poll.1 then some p.poll.2 else none := by
  rw [Bus0.visit]
  match p.poll with
  | (.pending, q) => rfl
  | (.ready (.ok msg), q) => rfl
  | (.ready (.error e), q) => rfl

theorem recvVisit_answer (p : Peer) :
    (Bus0.visit p).answer = (okOf p.poll.1).map fun msg => (p.id, msg) := by
  have hid : p.poll.2.id = p.id := rfl
  rw [Bus0.visit, ← hid]
  match p.poll with
  | (.pending, q) => rfl
  | (.ready (.ok msg), q) => rfl
  | (.ready (.error e), q) => rfl

/-- A pass from `s` to `t` that polled `visited` and came to `result`. -/
structure RecvPassed (s t : Bus0) (visited unvisited : List Peer)
    (result : Option (Nat × Message)) :
    Prop where
  all : (visited ++ unvisited).Perm s.hub.peers
  peers : t.hub.peers.Perm (visited.filterMap (fun p => (Bus0.visit p).kept) ++ unvisited)
  lost : t.lost = s.lost ++ visited.filterMap fun p => (Bus0.visit p).removed
  hub : t.hub = { s.hub with peers := t.hub.peers }
  answers : visited.filterMap (fun p => (Bus0.visit p).answer) = result.toList
  done : result = none → unvisited = []
  returned : t.returned = s.returned ++ result.toList
  ends : PassEnd s t

theorem recvPass_spec (s : Bus0) :
    ∃ visited unvisited result, RecvPassed s s.pass visited unvisited result := by
  obtain ⟨visited, unvisited, hc⟩ :=
    sweep_spec Bus0.visit [] (Nat.le_refl s.hub.peers.length)
  rw [List.nil_append] at hc
  unfold Bus0.pass
  split
  · next hnone =>
      refine ⟨[], [], none, ?_, ?_, ?_, rfl, rfl, fun _ => rfl, ?_, ?_⟩
      · rw [hnone]
        exact .nil
      · show s.hub.peers.Perm []
        rw [hnone]
      · exact (List.append_nil _).symm
      · exact (List.append_nil _).symm
      · exact .noPeers hnone rfl rfl rfl
  · next hsome =>
      generalize sweep Bus0.visit s.hub.peers.length 0 s.hub.peers = out at hc
      obtain ⟨list, gone, result⟩ := out
      have hgone : gone = _ := hc.gone
      subst hgone
      cases result with
      | none =>
          exact ⟨visited, unvisited, none, hc.all, hc.list, rfl, rfl, hc.answers, hc.done,
            (List.append_nil _).symm, .yields hsome rfl rfl rfl⟩
      | some x =>
          obtain ⟨i, msg⟩ := x
          exact ⟨visited, unvisited, some (i, msg), hc.all, hc.list, rfl, rfl, hc.answers,
            hc.done, rfl, .message hsome rfl rfl rfl⟩

/-- A peer that is there after a pass was there before, and was polled or not. -/
theorem RecvPassed.mem_peers {s t : Bus0} {visited unvisited : List Peer}
    {result : Option (Nat × Message)} (h : RecvPassed s t visited unvisited result) {q : Peer}
    (hq : q ∈ t.hub.peers) : ∃ p ∈ s.hub.peers, q = p ∨ q = p.poll.2 := by
  rcases List.mem_append.mp (h.peers.mem_iff.mp hq) with hq | hq
  · obtain ⟨p, hp, hkept⟩ := List.mem_filterMap.mp hq
    refine ⟨p, h.all.mem_iff.mp (List.mem_append_left _ hp), Or.inr ?_⟩
    rw [recvVisit_kept] at hkept
    split at hkept
    · cases hkept
    · exact (Option.some.inj hkept).symm
  · exact ⟨q, h.all.mem_iff.mp (List.mem_append_right _ hq), Or.inl rfl⟩

/-! ## Joining

The accept loops only ever push, and so do the constructors. -/

theorem acceptPending_induction {P : Hub → Prop} (hpush : ∀ h b, P h → P (h.push b)) {h : Hub}
    (hp : P h) (queue : List Accepted) : P (h.acceptPending queue) := by
  induction queue generalizing h with
  | nil => exact hp
  | cons a queue ih =>
      cases a with
      | failed => exact hp
      | refused => exact ih hp
      | peer b => exact ih (hpush h b hp)

theorem acceptUntil_induction {P : Hub → Prop} (hpush : ∀ h b, P h → P (h.push b))
    {h h' : Hub} {n : Nat} {attempts : List Accepted} (hp : P h)
    (hdone : h.acceptUntil n attempts = some h') : P h' := by
  induction attempts generalizing h with
  | nil =>
      unfold Hub.acceptUntil at hdone
      split at hdone
      · cases hdone
      · cases hdone
        exact hp
  | cons a attempts ih =>
      unfold Hub.acceptUntil at hdone
      split at hdone
      · cases a with
        | failed => exact ih hp hdone
        | refused => exact ih hp hdone
        | peer b => exact ih (hpush h b hp) hdone
      · cases hdone
        exact hp

theorem busStarted_induction {P : Hub → Prop} (hempty : P .empty)
    (hpush : ∀ h b, P h → P (h.push b)) {s : Bus0} (hstart : BusStarted s) :
    P s.hub ∧ s = .ofHub s.listener s.hub := by
  rcases hstart with ⟨n, attempts, h⟩ | ⟨b, rfl⟩ | rfl
  · obtain ⟨hub, hdone, rfl⟩ := Option.map_eq_some_iff.mp h
    exact ⟨acceptUntil_induction hpush hempty hdone, rfl⟩
  · exact ⟨hpush .empty b hempty, rfl⟩
  · exact ⟨hempty, rfl⟩

/-! ## Steps of a bus -/

/-- Everything a step of a bus can do. -/
theorem bus_moved {s t : Bus0} {a : Bus0Act} (h : s.step a = some t) :
    (∃ b, a = .addPeer b ∧ t = { s with hub := s.hub.push b }) ∨
    (∃ queue, a = .acceptPending queue ∧ t = s.acceptPending queue) ∨
    (∃ msg, a = .broadcast msg ∧ t = { s with hub := s.hub.sendAll msg }) ∨
    ((a = .recvAny ∨ a = .resume) ∧ t = s.pass) ∨
    (a = .drop ∧ t = { s with live := false }) := by
  unfold Bus0.step at h
  split at h
  · cases h
    exact Or.inl ⟨_, rfl, rfl⟩
  · cases h
    exact Or.inr (Or.inl ⟨_, rfl, rfl⟩)
  · cases h
    exact Or.inr (Or.inr (Or.inl ⟨_, rfl, rfl⟩))
  · cases h
    exact Or.inr (Or.inr (Or.inr (Or.inl ⟨Or.inl rfl, rfl⟩)))
  · cases h
    exact Or.inr (Or.inr (Or.inr (Or.inl ⟨Or.inr rfl, rfl⟩)))
  · cases h
    exact Or.inr (Or.inr (Or.inr (Or.inr ⟨rfl, rfl⟩)))
  · cases h

end NngCore.Proofs
