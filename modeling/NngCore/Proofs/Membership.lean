import Mathlib.Data.List.Nodup
import NngCore.Proofs.FanOut
import NngCore.Ref.PubSubNet

/-!
# A hub over time

Peers are numbered in the order they are admitted, and a peer that was admitted
keeps its number, the place in the sequence of messages it joined at, and what
was written to it, whether it is still in the vector or not. So of two states
of one hub, everything the earlier one knows is a beginning of what the later
one knows (`Later`), and a peer that is new in the later one joined after all
the messages of the earlier.
-/

namespace NngCore.Proofs

open NngCore.Lib NngCore.Ref NngCore.Spec

/-! ## What a send leaves on the stream -/

theorem sendAt_begins {frame sent : List UInt8} {poll : SendPoll}
    (h : SendAt frame sent poll) :
    sent <+: frame := by
  match poll with
  | .pending fut => exact ⟨fut.left, h.1⟩
  | .ready (.ok ()) =>
      have hall : sent = frame := h
      rw [hall]
  | .ready (.error e) =>
      obtain ⟨rest, -, hrest⟩ := h
      exact ⟨rest, hrest⟩

theorem sendLoop_wire (fuel : Nat) {frame sent wire : List UInt8} {poll : SendPoll} {p : Peer}
    (hwire : p.wire = wire ++ sent) (hat : SendAt frame sent poll) :
    p.wire <+: (Peer.sendLoop fuel poll p).2.wire ∧
      (Peer.sendLoop fuel poll p).2.wire <+: wire ++ frame := by
  have hhere : p.wire <+: wire ++ frame := by
    rw [hwire]
    exact (List.prefix_append_right_inj wire).mpr (sendAt_begins hat)
  match poll with
  | .ready r =>
      rw [sendLoop_ready]
      exact ⟨List.prefix_rfl, hhere⟩
  | .pending fut =>
      match fuel with
      | 0 => exact ⟨List.prefix_rfl, hhere⟩
      | fuel + 1 =>
          obtain ⟨-, hwrite⟩ := write_wire p fut.offered
          simp only [Peer.sendLoop]
          rcases hwrite with ⟨n, hle, hr, hw⟩ | ⟨e, hr, hw⟩
          · rw [hr]
            obtain ⟨hmore, hend⟩ := sendLoop_wire fuel (p := (p.write fut.offered).2)
              (by rw [hw, hwire, List.append_assoc]) (sendAt_written hat hle)
            rw [hw] at hmore
            exact ⟨(List.prefix_append _ _).trans hmore, hend⟩
          · rw [hr]
            obtain ⟨hmore, hend⟩ := sendLoop_wire fuel (p := (p.write fut.offered).2)
              (hw.trans hwire) (sendAt_error hat e)
            rw [hw] at hmore
            exact ⟨hmore, hend⟩

/-- A send adds to the stream, and no more than its frame. -/
theorem sentTo_wire (msg : Message) (p : Peer) :
    p.wire <+: (sentTo msg p).wire ∧
      (sentTo msg p).wire <+: p.wire ++ frameBytes p.behaviour.fmt msg :=
  sendLoop_wire _ (p := { p with attempts := p.attempts ++ [msg] })
    (List.append_nil p.wire).symm (sendAt_start p.behaviour.fmt msg)

/-! ## Everyone who was admitted -/

/-- Looking a peer up by its number. -/
theorem find_peer_iff {ps : List Peer} (hids : (ps.map Peer.id).Nodup) {id : Nat} {p : Peer} :
    ps.find? (fun p => p.id == id) = some p ↔ p ∈ ps ∧ p.id = id := by
  constructor
  · intro h
    have hid : (p.id == id) = true := List.find?_some (p := fun p : Peer => p.id == id) h
    exact ⟨List.mem_of_find?_eq_some h, beq_iff_eq.mp hid⟩
  · rintro ⟨hp, rfl⟩
    have hsome : (ps.find? fun q => q.id == p.id).isSome :=
      List.find?_isSome.mpr ⟨p, hp, beq_iff_eq.mpr rfl⟩
    obtain ⟨q, hq⟩ := Option.isSome_iff_exists.mp hsome
    have hqid : (q.id == p.id) = true := List.find?_some (p := fun q : Peer => q.id == p.id) hq
    rw [hq, List.inj_on_of_nodup_map hids (List.mem_of_find?_eq_some hq) hp
      (beq_iff_eq.mp hqid)]

structure Numbered (h : Hub) : Prop extends HubInv h where
  ids : (h.everyone.map Peer.id).Perm (List.range h.admitted)
  streams : ∀ p ∈ h.everyone,
    p.wire <+: (h.sent.drop p.since).flatMap (frameBytes p.behaviour.fmt)

theorem numbered_empty : Numbered .empty :=
  ⟨hubInv_empty, .refl _, fun _ hp => absurd hp List.not_mem_nil⟩

theorem Numbered.id_lt {h : Hub} (hn : Numbered h) {p : Peer} (hp : p ∈ h.everyone) :
    p.id < h.admitted :=
  List.mem_range.mp (hn.ids.mem_iff.mp (List.mem_map_of_mem hp))

/-- What a later state of a hub still knows, and what is new in it. -/
structure Later (h h' : Hub) : Prop where
  sent : h.sent <+: h'.sent
  admitted : h.admitted ≤ h'.admitted
  known : ∀ p ∈ h.everyone, ∃ p' ∈ h'.everyone, p'.id = p.id ∧ p'.since = p.since ∧
    p'.behaviour = p.behaviour ∧ p.wire <+: p'.wire
  news : ∀ p' ∈ h'.everyone,
    (∃ p ∈ h.everyone, p.id = p'.id ∧ p.since = p'.since) ∨ h.sent.length ≤ p'.since

theorem Later.refl (h : Hub) : Later h h where
  sent := List.prefix_rfl
  admitted := Nat.le_refl _
  known p hp := ⟨p, hp, rfl, rfl, rfl, List.prefix_rfl⟩
  news p hp := Or.inl ⟨p, hp, rfl, rfl⟩

theorem Later.trans {h₁ h₂ h₃ : Hub} (h : Later h₁ h₂) (h' : Later h₂ h₃) : Later h₁ h₃ where
  sent := h.sent.trans h'.sent
  admitted := Nat.le_trans h.admitted h'.admitted
  known p hp := by
    obtain ⟨q, hq, hid, hsince, hb, hw⟩ := h.known p hp
    obtain ⟨r, hr, hid', hsince', hb', hw'⟩ := h'.known q hq
    exact ⟨r, hr, hid'.trans hid, hsince'.trans hsince, hb'.trans hb, hw.trans hw'⟩
  news p hp := by
    rcases h'.news p hp with ⟨q, hq, hid, hsince⟩ | hle
    · rcases h.news q hq with ⟨r, hr, hid', hsince'⟩ | hle
      · exact Or.inl ⟨r, hr, hid'.trans hid, hsince'.trans hsince⟩
      · exact Or.inr (hsince ▸ hle)
    · exact Or.inr (Nat.le_trans h.sent.length_le hle)

/-! ## Joining -/

theorem everyone_push (h : Hub) (b : Behaviour) :
    (h.push b).everyone.Perm (h.everyone ++ [.admitted b h.admitted h.sent.length]) := by
  show (h.peers ++ [_] ++ h.dropped).Perm (h.peers ++ h.dropped ++ [_])
  rw [List.append_assoc, List.append_assoc]
  exact List.perm_append_comm.append_left _

theorem Numbered.push {h : Hub} (hn : Numbered h) (b : Behaviour) : Numbered (h.push b) := by
  refine ⟨hn.toHubInv.push b, ?_, ?_⟩
  · show ((h.push b).everyone.map Peer.id).Perm (List.range (h.admitted + 1))
    refine ((everyone_push h b).map _).trans ?_
    rw [List.map_append, List.range_succ]
    exact hn.ids.append_right _
  · intro p hp
    rcases List.mem_append.mp ((everyone_push h b).mem_iff.mp hp) with hp | hp
    · exact hn.streams p hp
    · rw [List.mem_singleton.mp hp]
      exact List.nil_prefix

theorem later_push (h : Hub) (b : Behaviour) : Later h (h.push b) where
  sent := List.prefix_rfl
  admitted := Nat.le_succ _
  known p hp := ⟨p, (everyone_push h b).mem_iff.mpr (List.mem_append_left _ hp), rfl, rfl, rfl,
    List.prefix_rfl⟩
  news p hp := by
    rcases List.mem_append.mp ((everyone_push h b).mem_iff.mp hp) with hp | hp
    · exact Or.inl ⟨p, hp, rfl, rfl⟩
    · rw [List.mem_singleton.mp hp]
      exact Or.inr (Nat.le_refl _)

/-! ## Sending -/

theorem everyone_sendAll (h : Hub) (msg : Message) :
    (h.sendAll msg).everyone.Perm (h.peers.map (sentTo msg) ++ h.dropped) :=
  (sendAll_oneEach h msg).attempted

theorem id_sentTo (msg : Message) (p : Peer) : (sentTo msg p).id = p.id :=
  (send_spec p msg).1.id

theorem Numbered.sendAll {h : Hub} (hn : Numbered h) (msg : Message) :
    Numbered (h.sendAll msg) := by
  have hsent : (h.sendAll msg).sent = h.sent ++ [msg] := rfl
  refine ⟨hn.toHubInv.sendAll msg, ?_, ?_⟩
  · refine ((everyone_sendAll h msg).map _).trans ?_
    rw [List.map_append, List.map_map]
    have hids : h.peers.map (Peer.id ∘ sentTo msg) = h.peers.map Peer.id :=
      List.map_congr_left fun p _ => id_sentTo msg p
    rw [hids, ← List.map_append]
    exact hn.ids
  · intro p hp
    rw [hsent]
    rcases List.mem_append.mp ((everyone_sendAll h msg).mem_iff.mp hp) with hp | hp
    · obtain ⟨q, hq, rfl⟩ := List.mem_map.mp hp
      have hmem : q ∈ h.everyone := List.mem_append_left _ hq
      have hsame := (send_spec q msg).1
      have hjoined := hn.joined q hmem
      refine (sentTo_wire msg q).2.trans ?_
      rw [hsame.since, hsame.behaviour, List.drop_append_of_le_length hjoined,
        List.flatMap_append, List.flatMap_singleton, hn.wires q hq]
    · have hmem : p ∈ h.everyone := List.mem_append_right _ hp
      rw [List.drop_append_of_le_length (hn.joined p hmem), List.flatMap_append]
      exact (hn.streams p hmem).trans (List.prefix_append _ _)

theorem later_sendAll (h : Hub) (msg : Message) : Later h (h.sendAll msg) where
  sent := List.prefix_append _ _
  admitted := Nat.le_refl _
  known p hp := by
    rcases List.mem_append.mp hp with hp | hp
    · have hsame := (send_spec p msg).1
      exact ⟨sentTo msg p, (everyone_sendAll h msg).mem_iff.mpr
        (List.mem_append_left _ (List.mem_map_of_mem hp)), hsame.id, hsame.since,
        hsame.behaviour, (sentTo_wire msg p).1⟩
    · exact ⟨p, (everyone_sendAll h msg).mem_iff.mpr (List.mem_append_right _ hp),
        rfl, rfl, rfl,
        List.prefix_rfl⟩
  news p hp := by
    rcases List.mem_append.mp ((everyone_sendAll h msg).mem_iff.mp hp) with hp | hp
    · obtain ⟨q, hq, rfl⟩ := List.mem_map.mp hp
      have hsame := (send_spec q msg).1
      exact Or.inl ⟨q, List.mem_append_left _ hq, hsame.id.symm, hsame.since.symm⟩
    · exact Or.inl ⟨p, List.mem_append_right _ hp, rfl, rfl⟩

/-- A step of the publisher. -/
theorem Numbered.pubStep {s t : Pub0} {a : Pub0Act} (hn : Numbered s.subscribers)
    (hstep : s.step a = some t) :
    Numbered t.subscribers ∧ Later s.subscribers t.subscribers := by
  have hpush : ∀ h b, (Numbered h ∧ Later s.subscribers h) →
      Numbered (h.push b) ∧ Later s.subscribers (h.push b) :=
    fun h b hh => ⟨hh.1.push b, hh.2.trans (later_push h b)⟩
  cases a with
  | waitForSubscribers n attempts =>
      obtain ⟨hub, hdone, rfl⟩ := Option.map_eq_some_iff.mp hstep
      exact acceptUntil_induction hpush ⟨hn, .refl _⟩ hdone
  | publish queue msg =>
      cases hstep
      obtain ⟨hacc, hlater⟩ := acceptPending_induction hpush ⟨hn, .refl _⟩ queue
      exact ⟨hacc.sendAll msg, hlater.trans (later_sendAll _ msg)⟩

end NngCore.Proofs
