import NngCore.Proofs.Membership
import NngCore.Proofs.RecvAny
import NngCore.Proofs.Wire
import NngCore.Spec.BusNet

/-!
# From bus to bus

A bus adds to what it has written to a peer and never takes from it, so what was
read on a link stays a beginning of what was written, whatever either end does
next. What was written is frames of what was broadcast since the peer was
admitted, and what the reader returned is what its polls gave: that is already
known of one bus, and a bus in a network does what a bus does.
-/

namespace NngCore.Proofs

open NngCore.Lib NngCore.Ref NngCore.Spec

/-! ## A bus over time -/

/-- `q` is what became of `p`. -/
structure Onward (p q : Peer) : Prop where
  id : q.id = p.id
  since : q.since = p.since
  behaviour : q.behaviour = p.behaviour
  wire : p.wire <+: q.wire

theorem Onward.refl (p : Peer) : Onward p p := ⟨rfl, rfl, rfl, List.prefix_rfl⟩

theorem Onward.trans {p q r : Peer} (h : Onward p q) (h' : Onward q r) : Onward p r :=
  ⟨h'.id.trans h.id, h'.since.trans h.since, h'.behaviour.trans h.behaviour,
    h.wire.trans h'.wire⟩

theorem onward_sentTo (msg : Message) (p : Peer) : Onward p (sentTo msg p) :=
  have hsame := (send_spec p msg).1
  ⟨hsame.id, hsame.since, hsame.behaviour, (sentTo_wire msg p).1⟩

/-- Nobody who was admitted is forgotten. -/
def Remembers (s t : Bus0) : Prop := ∀ p ∈ s.everyone, ∃ q ∈ t.everyone, Onward p q

theorem Remembers.refl (s : Bus0) : Remembers s s := fun p hp => ⟨p, hp, .refl p⟩

theorem Remembers.trans {s t u : Bus0} (h : Remembers s t) (h' : Remembers t u) :
    Remembers s u := by
  intro p hp
  obtain ⟨q, hq, hpq⟩ := h p hp
  obtain ⟨r, hr, hqr⟩ := h' q hq
  exact ⟨r, hr, hpq.trans hqr⟩

/-- What was written to a peer is of what was broadcast since it joined. -/
structure Streams (s : Bus0) : Prop where
  joined : ∀ p ∈ s.everyone, p.since ≤ s.hub.sent.length
  wires : ∀ p ∈ s.everyone,
    p.wire <+: (s.hub.sent.drop p.since).flatMap (frameBytes p.behaviour.fmt)

theorem streams_empty (listener : Bool) : Streams (.ofHub listener .empty) :=
  ⟨fun _ hp => absurd hp List.not_mem_nil, fun _ hp => absurd hp List.not_mem_nil⟩

/-! ### Joining -/

theorem mem_everyone_push {s : Bus0} {b : Behaviour} {p : Peer} :
    p ∈ { s with hub := s.hub.push b }.everyone ↔
      p ∈ s.everyone ∨ p = .admitted b s.hub.admitted s.hub.sent.length := by
  simp only [Bus0.everyone, Hub.push, List.mem_append, List.mem_singleton]
  grind

theorem Streams.push {s : Bus0} (h : Streams s) (b : Behaviour) :
    Streams { s with hub := s.hub.push b } := by
  refine ⟨fun p hp => ?_, fun p hp => ?_⟩
  · rcases mem_everyone_push.mp hp with hp | rfl
    · exact h.joined p hp
    · exact Nat.le_refl _
  · rcases mem_everyone_push.mp hp with hp | rfl
    · exact h.wires p hp
    · exact List.nil_prefix

theorem remembers_push (s : Bus0) (b : Behaviour) :
    Remembers s { s with hub := s.hub.push b } :=
  fun p hp => ⟨p, mem_everyone_push.mpr (Or.inl hp), .refl p⟩

theorem acceptPending_streams {s : Bus0} (h : Streams s) (queue : List Accepted) :
    Streams { s with hub := s.hub.acceptPending queue } ∧
      Remembers s { s with hub := s.hub.acceptPending queue } :=
  acceptPending_induction
    (P := fun hub => Streams { s with hub := hub } ∧ Remembers s { s with hub := hub })
    (fun hub b hh => ⟨hh.1.push b, hh.2.trans (remembers_push { s with hub := hub } b)⟩)
    ⟨h, .refl s⟩ queue

theorem streams_started {s : Bus0} (hstart : BusStarted s) : Streams s := by
  obtain ⟨hhub, hfresh⟩ := busStarted_induction
    (P := fun hub => ∀ listener, Streams (.ofHub listener hub)) streams_empty
    (fun hub b hh listener => (hh listener).push b) hstart
  rw [hfresh]
  exact hhub s.listener

/-! ### Broadcasting -/

theorem mem_everyone_sendAll {s : Bus0} {msg : Message} {q : Peer} :
    q ∈ { s with hub := s.hub.sendAll msg }.everyone ↔
      (∃ p ∈ s.hub.peers, q = sentTo msg p) ∨ q ∈ s.lost ∨ q ∈ s.hub.dropped := by
  have hmem := (sendAll_oneEach s.hub msg).attempted.mem_iff (a := q)
  simp only [List.mem_append, List.mem_map] at hmem
  simp only [Bus0.everyone, List.mem_append]
  grind

theorem Streams.sendAll {s : Bus0} (h : Streams s) (hi : HubInv s.hub) (msg : Message) :
    Streams { s with hub := s.hub.sendAll msg } := by
  have hlonger {p : Peer} (hp : p ∈ s.everyone) :
      p.wire <+:
        ((s.hub.sent ++ [msg]).drop p.since).flatMap (frameBytes p.behaviour.fmt) := by
    rw [List.drop_append_of_le_length (h.joined p hp), List.flatMap_append]
    exact (h.wires p hp).trans (List.prefix_append _ _)
  have hpeer {p : Peer} (hp : p ∈ s.hub.peers) : p ∈ s.everyone :=
    List.mem_append_left _ (List.mem_append_left _ hp)
  have hlost {p : Peer} (hp : p ∈ s.lost) : p ∈ s.everyone :=
    List.mem_append_left _ (List.mem_append_right _ hp)
  have hdropped {p : Peer} (hp : p ∈ s.hub.dropped) : p ∈ s.everyone :=
    List.mem_append_right _ hp
  have hlen : s.hub.sent.length ≤ (s.hub.sent ++ [msg]).length := by
    rw [List.length_append]
    exact Nat.le_add_right _ _
  refine ⟨fun q hq => ?_, fun q hq => ?_⟩
  · rcases mem_everyone_sendAll.mp hq with ⟨p, hp, rfl⟩ | hq | hq
    · rw [(onward_sentTo msg p).since]
      exact (h.joined p (hpeer hp)).trans hlen
    · exact (h.joined q (hlost hq)).trans hlen
    · exact (h.joined q (hdropped hq)).trans hlen
  · rcases mem_everyone_sendAll.mp hq with ⟨p, hp, rfl⟩ | hq | hq
    · have honward := onward_sentTo msg p
      show _ <+: ((s.hub.sent ++ [msg]).drop _).flatMap _
      rw [honward.since, honward.behaviour,
        List.drop_append_of_le_length (h.joined p (hpeer hp)),
        List.flatMap_append, List.flatMap_singleton, ← hi.wires p hp]
      exact (sentTo_wire msg p).2
    · exact hlonger (hlost hq)
    · exact hlonger (hdropped hq)

theorem remembers_sendAll (s : Bus0) (msg : Message) :
    Remembers s { s with hub := s.hub.sendAll msg } := by
  intro p hp
  rcases List.mem_append.mp hp with hp | hp
  · rcases List.mem_append.mp hp with hp | hp
    · exact ⟨_, mem_everyone_sendAll.mpr (Or.inl ⟨p, hp, rfl⟩), onward_sentTo msg p⟩
    · exact ⟨p, mem_everyone_sendAll.mpr (Or.inr (Or.inl hp)), .refl p⟩
  · exact ⟨p, mem_everyone_sendAll.mpr (Or.inr (Or.inr hp)), .refl p⟩

/-! ### Receiving -/

/-- A pass polls some peers and moves some; nothing is written. -/
theorem RecvPassed.everyone {s t : Bus0} {visited unvisited : List Peer}
    {result : Option (Nat × Message)} (h : RecvPassed s t visited unvisited result) :
    Remembers s t ∧ ∀ q ∈ t.everyone, ∃ p ∈ s.everyone, Onward p q ∧ q.wire = p.wire := by
  obtain ⟨visited, unvisited, hall, hkept, -⟩ := h.polledOnce
  have hdropped : t.hub.dropped = s.hub.dropped := by rw [h.hub]
  have hpoll (p : Peer) : Onward p p.poll.2 := ⟨rfl, rfl, rfl, List.prefix_rfl⟩
  refine ⟨fun p hp => ?_, fun q hq => ?_⟩
  · rcases List.mem_append.mp hp with hp | hp
    · have hthere {q : Peer}
        (hq : q ∈ visited.map (fun p => p.poll.2) ++ unvisited ++ s.lost) :
          q ∈ t.everyone := List.mem_append_left _ (hkept.mem_iff.mpr hq)
      rcases List.mem_append.mp hp with hp | hp
      · rcases List.mem_append.mp (hall.mem_iff.mpr hp) with hp | hp
        · exact ⟨p.poll.2, hthere (List.mem_append_left _ (List.mem_append_left _
            (List.mem_map_of_mem hp))), hpoll p⟩
        · exact ⟨p, hthere (List.mem_append_left _ (List.mem_append_right _ hp)), .refl p⟩
      · exact ⟨p, hthere (List.mem_append_right _ hp), .refl p⟩
    · exact ⟨p, List.mem_append_right _ (hdropped ▸ hp), .refl p⟩
  · rcases List.mem_append.mp hq with hq | hq
    · have hpeer {p : Peer} (hp : p ∈ visited ++ unvisited) : p ∈ s.everyone :=
        List.mem_append_left _ (List.mem_append_left _ (hall.mem_iff.mp hp))
      rcases List.mem_append.mp (hkept.mem_iff.mp hq) with hq | hq
      · rcases List.mem_append.mp hq with hq | hq
        · obtain ⟨p, hp, rfl⟩ := List.mem_map.mp hq
          exact ⟨p, hpeer (List.mem_append_left _ hp), hpoll p, rfl⟩
        · exact ⟨q, hpeer (List.mem_append_right _ hq), .refl q, rfl⟩
      · exact ⟨q, List.mem_append_left _ (List.mem_append_right _ hq), .refl q, rfl⟩
    · exact ⟨q, List.mem_append_right _ (hdropped ▸ hq), .refl q, rfl⟩

theorem Streams.passed {s t : Bus0} (h : Streams s) {visited unvisited : List Peer}
    {result : Option (Nat × Message)} (hp : RecvPassed s t visited unvisited result) :
    Streams t := by
  have hsent : t.hub.sent = s.hub.sent := by rw [hp.hub]
  refine ⟨fun q hq => ?_, fun q hq => ?_⟩
  · obtain ⟨p, hmem, honward, -⟩ := hp.everyone.2 q hq
    rw [hsent, honward.since]
    exact h.joined p hmem
  · obtain ⟨p, hmem, honward, hwire⟩ := hp.everyone.2 q hq
    rw [hsent, honward.since, honward.behaviour, hwire]
    exact h.wires p hmem

/-! ### Any step -/

theorem bus_onward {s t : Bus0} {a : Bus0Act} (h : Streams s) (hi : HubInv s.hub)
    (hstep : s.step a = some t) : Streams t ∧ Remembers s t := by
  rcases bus_moved hstep with ⟨b, -, rfl⟩ | ⟨queue, -, rfl⟩ | ⟨msg, -, rfl⟩ |
    ⟨-, rfl⟩ | ⟨-, rfl⟩
  · exact ⟨h.push b, remembers_push s b⟩
  · rw [Bus0.acceptPending]
    split
    · exact acceptPending_streams h queue
    · exact ⟨h, .refl s⟩
  · exact ⟨h.sendAll hi msg, remembers_sendAll s msg⟩
  · obtain ⟨visited, unvisited, result, hp⟩ := recvPass_spec s
    exact ⟨h.passed hp, hp.everyone.1⟩
  · exact ⟨⟨h.joined, h.wires⟩, .refl s⟩

/-- A bus as some run of it leaves it. -/
def BusReached (b : Bus0) : Prop :=
  ∃ b₀ acts, BusStarted b₀ ∧ run Bus0.step b₀ acts = some b

theorem BusReached.step {b c : Bus0} {a : Bus0Act} (h : BusReached b)
    (hstep : b.step a = some c) :
    BusReached c := by
  obtain ⟨b₀, acts, hstart, hrun⟩ := h
  exact ⟨b₀, acts ++ [a], hstart, run_append.mpr ⟨b, hrun, run_singleton.mpr hstep⟩⟩

theorem BusReached.hubInv {b : Bus0} (h : BusReached b) : HubInv b.hub := by
  obtain ⟨b₀, acts, hstart, hrun⟩ := h
  exact bus_inOrder hstart hrun

theorem BusReached.received {b : Bus0} (h : BusReached b) : ReceivedExactly b := by
  obtain ⟨b₀, acts, hstart, hrun⟩ := h
  exact (busInv_run hstart hrun).receivedExactly

theorem BusReached.streams {b : Bus0} (h : BusReached b) : Streams b := by
  obtain ⟨b₀, acts, hstart, hrun⟩ := h
  have hboth : BusReached b ∧ Streams b :=
    run_invariant (I := fun b => BusReached b ∧ Streams b)
      ⟨⟨b₀, [], hstart, rfl⟩, streams_started hstart⟩
      (fun u a v hu hstep => ⟨hu.1.step hstep, (bus_onward hu.2 hu.1.hubInv hstep).1⟩) hrun
  exact hboth.2

/-! ## Links -/

variable {w : PointerWidth}

/-- A link between peer `p` of `src` and peer `q` of `dst`. -/
structure LinkAt (w : PointerWidth) (src dst : Bus0) (p q : Peer) (l : BusLink) : Prop where
  writer : p ∈ src.everyone ∧ p.id = l.srcId
  reader : q ∈ dst.everyone ∧ q.id = l.dstId
  fmt : p.behaviour.fmt = q.behaviour.fmt
  conn : ∃ items part, FramedAt w q.behaviour.fmt l.conn items part
  carries : l.conn.took <+: p.wire
  hands : q.handed <+: l.results

theorem handed_messages (q : Peer) :
    q.handed.filterMap Except.toOption = (consumed q).filterMap okOf := by
  rw [Peer.handed, consumed, List.filterMap_filterMap, List.filterMap_map]
  refine List.filterMap_congr fun k _ => ?_
  show (_ : Option _) = okOf (q.behaviour.polls k)
  cases q.behaviour.polls k with
  | pending => rfl
  | ready r => cases r <;> rfl

theorem results_messages (l : BusLink) :
    l.results.filterMap Except.toOption = l.conn.recv.results.filterMap Except.toOption :=
  messages_framed l.conn

theorem LinkAt.heard {src dst : Bus0} {p q : Peer} {l : BusLink} (h : LinkAt w src dst p q l)
    (hsrc : BusReached src) (hdst : BusReached dst)
    (hfit : ∀ m ∈ src.hub.sent, m.len ≤ maxFrameBytes) : LinkHeard src dst p q l := by
  obtain ⟨items, part, hat⟩ := h.conn
  have hread := h.carries.trans (hsrc.streams.wires p h.writer.1)
  rw [h.fmt, ← List.append_nil (List.flatMap _ _)] at hread
  obtain ⟨hbegin, hall⟩ := messages_of_wire hat.ownFrames
    (fun m hm => hfit m (List.mem_of_mem_drop hm)) (Or.inl rfl) hread
  have hreturned := hdst.received.inOrder q h.reader.1
  rw [← handed_messages] at hreturned
  rw [← results_messages] at hbegin hall
  refine ⟨?_, fun hpeer htook hhanded => ?_⟩
  · rw [hreturned]
    exact (h.hands.filterMap _).trans hbegin
  · rw [hreturned, hhanded]
    refine hall ?_
    rw [htook, hsrc.hubInv.wires p hpeer, h.fmt, List.append_nil]

/-- The writer's bus has made a step. -/
theorem LinkAt.writes {src src' dst : Bus0} {p q : Peer} {l : BusLink}
    (h : LinkAt w src dst p q l) (hremembers : Remembers src src') :
    ∃ p', LinkAt w src' dst p' q l := by
  obtain ⟨p', hp', honward⟩ := hremembers p h.writer.1
  exact ⟨p', ⟨hp', honward.id.trans h.writer.2⟩, h.reader, honward.behaviour ▸ h.fmt, h.conn,
    h.carries.trans honward.wire, h.hands⟩

/-- The reader's bus has made a step, and its polls gave what the link had for them. -/
theorem LinkAt.polls {src dst dst' : Bus0} {p q : Peer} {l : BusLink}
    (h : LinkAt w src dst p q l) (hremembers : Remembers dst dst')
    (hhands : ∀ q' ∈ dst'.everyone, q'.id = l.dstId → q'.handed <+: l.results) :
    ∃ q', LinkAt w src dst' p q' l := by
  obtain ⟨q', hq', honward⟩ := hremembers q h.reader.1
  have hid := honward.id.trans h.reader.2
  exact ⟨q', h.writer, ⟨hq', hid⟩, by rw [honward.behaviour]; exact h.fmt,
    by rw [honward.behaviour]; exact h.conn, h.carries, hhands q' hq' hid⟩

/-! ## The network -/

def LinkIn (w : PointerWidth) (s : BusNet) (l : BusLink) : Prop :=
  ∃ src dst p q, s.buses[l.src]? = some src ∧ s.buses[l.dst]? = some dst ∧
    LinkAt w src dst p q l

structure BusNetInv (w : PointerWidth) (s : BusNet) : Prop where
  buses : ∀ b ∈ s.buses, BusReached b
  links : ∀ l ∈ s.links, LinkIn w s l

theorem BusNetInv.peer?_iff {s : BusNet} (h : BusNetInv w s) {n : Nat} {b : Bus0}
    (hb : s.buses[n]? = some b) {id : Nat} {p : Peer} :
    s.peer? n id = some p ↔ p ∈ b.everyone ∧ p.id = id := by
  have hreached := h.buses b (List.mem_of_getElem? hb)
  simp only [BusNet.peer?, hb]
  exact find_peer_iff hreached.received.ids

theorem BusNetInv.bus_of_peer? {s : BusNet} {n id : Nat} {p : Peer}
    (h : s.peer? n id = some p) :
    ∃ b, s.buses[n]? = some b := by
  unfold BusNet.peer? at h
  split at h
  · cases h
  · next b hb => exact ⟨b, hb⟩

/-- The two ends of a link are who they are. -/
theorem BusNetInv.ends {s : BusNet} (h : BusNetInv w s) {src dst : Bus0} {p q : Peer}
    {l : BusLink} (hsrc : s.buses[l.src]? = some src) (hdst : s.buses[l.dst]? = some dst)
    (hl : LinkAt w src dst p q l) :
    s.peer? l.src l.srcId = some p ∧ s.peer? l.dst l.dstId = some q :=
  ⟨(h.peer?_iff hsrc).mpr hl.writer, (h.peer?_iff hdst).mpr hl.reader⟩

theorem getElem?_bus_set {s : BusNet} {n : Nat} {b b' : Bus0} (hb : s.buses[n]? = some b)
    (hremembers : Remembers b b') {k : Nat} {c : Bus0} (hc : s.buses[k]? = some c) :
    ∃ c', (s.buses.set n b')[k]? = some c' ∧ Remembers c c' ∧ (k ≠ n → c' = c) := by
  by_cases hkn : n = k
  · subst hkn
    cases hb.symm.trans hc
    exact ⟨b', List.getElem?_set_self (List.getElem?_eq_some_iff.mp hb).1, hremembers,
      fun hne => absurd rfl hne⟩
  · exact ⟨c, by rw [List.getElem?_set_ne hkn, hc], .refl c, fun _ => rfl⟩

theorem BusNetInv.bus {s : BusNet} (h : BusNetInv w s) {n : Nat} {b b' : Bus0} {a : Bus0Act}
    (hb : s.buses[n]? = some b) (hstep : b.step a = some b')
    (hhands : ∀ l ∈ s.links, l.dst = n →
      BusNet.hands { s with buses := s.buses.set n b' } l = true) :
    BusNetInv w { s with buses := s.buses.set n b' } := by
  have hreached := h.buses b (List.mem_of_getElem? hb)
  have hremembers := (bus_onward hreached.streams hreached.hubInv hstep).2
  have hbuses : ∀ c ∈ s.buses.set n b', BusReached c := by
    intro c hc
    rcases List.mem_or_eq_of_mem_set hc with hc | rfl
    · exact h.buses c hc
    · exact hreached.step hstep
  refine ⟨hbuses, fun l hl => ?_⟩
  obtain ⟨src, dst, p, q, hsrc, hdst, hat⟩ := h.links l hl
  obtain ⟨src', hsrc', hrem, -⟩ := getElem?_bus_set hb hremembers hsrc
  obtain ⟨dst', hdst', hrem', hsame⟩ := getElem?_bus_set hb hremembers hdst
  obtain ⟨p', hat'⟩ := hat.writes hrem
  obtain ⟨q', hat''⟩ := hat'.polls hrem' fun q' hq' hid => by
    have hids := (hbuses dst' (List.mem_of_getElem? hdst')).received.ids
    by_cases hdstn : l.dst = n
    · have hfound :
          BusNet.peer? { s with buses := s.buses.set n b' } l.dst l.dstId = some q' := by
        simp only [BusNet.peer?, hdst']
        exact (find_peer_iff hids).mpr ⟨hq', hid⟩
      have hguard := hhands l hl hdstn
      simp only [BusNet.hands, hfound] at hguard
      exact List.isPrefixOf_iff_prefix.mp hguard
    · cases hsame hdstn
      rw [List.inj_on_of_nodup_map hids hq' hat.reader.1 (hid.trans hat.reader.2.symm)]
      exact hat.hands
  exact ⟨src', dst', p', q', hsrc', hdst', hat''⟩

theorem BusNetInv.link {s t : BusNet} (h : BusNetInv w s) {src srcId dst dstId : Nat}
    (hstep : s.connect src srcId dst dstId = some t) : BusNetInv w t := by
  unfold BusNet.connect at hstep
  split at hstep
  · next p q hp hq =>
      dsimp only at hstep
      split at hstep
      · next hguard =>
          cases hstep
          refine ⟨h.buses, forall_mem_concat h.links ?_⟩
          obtain ⟨b, hb⟩ := BusNetInv.bus_of_peer? hp
          obtain ⟨c, hc⟩ := BusNetInv.bus_of_peer? hq
          refine ⟨b, c, p, q, hb, hc, (h.peer?_iff hb).mp hp, (h.peer?_iff hc).mp hq, hguard.1,
            ⟨[], [], framedAt_fresh⟩, List.nil_prefix, ?_⟩
          have hhands := hguard.2
          simp only [BusNet.hands, hq] at hhands
          exact List.isPrefixOf_iff_prefix.mp hhands
      · cases hstep
  · cases hstep

/-- The receiving half of a link has made a step. -/
theorem LinkAt.receives {src dst : Bus0} {p q : Peer} {l : BusLink} {c : FramedConn}
    {a : RecvAct Unit} (h : LinkAt w src dst p q l)
    (hstep : l.conn.step w q.behaviour.fmt a = some c) (hcarries : c.took <+: p.wire) :
    LinkAt w src dst p q { l with conn := c } := by
  obtain ⟨items, part, hat⟩ := h.conn
  refine ⟨h.writer, h.reader, h.fmt, hat.step hstep, hcarries, h.hands.trans ?_⟩
  obtain ⟨hrecv, -⟩ := framedConn_step hstep
  obtain ⟨part', rs, -, -, hres⟩ := hat.sound.step sized_vecZeroed hrecv
  show l.conn.recv.results.map _ <+: c.recv.results.map _
  rw [hres, List.map_append]
  exact List.prefix_append _ _

theorem BusNetInv.receive {s t : BusNet} (h : BusNetInv w s) {i : Nat} {a : RecvAct Unit}
    (hstep : s.step w (.receive i a) = some t) : BusNetInv w t := by
  simp only [BusNet.step] at hstep
  split at hstep
  · cases hstep
  · next l hl =>
      obtain ⟨src, dst, p, q, hsrc, hdst, hat⟩ := h.links l (List.mem_of_getElem? hl)
      obtain ⟨hp, hq⟩ := h.ends hsrc hdst hat
      rw [hq] at hstep
      dsimp only at hstep
      split at hstep
      · cases hstep
      · next c hc =>
          split at hstep
          · next hguard =>
              cases hstep
              simp only [BusNet.carries, hp] at hguard
              have hcarries := List.isPrefixOf_iff_prefix.mp hguard
              refine ⟨h.buses, fun l' hl' => ?_⟩
              rcases List.mem_or_eq_of_mem_set hl' with hl' | rfl
              · exact h.links l' hl'
              · exact ⟨src, dst, p, q, hsrc, hdst, hat.receives hc hcarries⟩
          · cases hstep

theorem BusNetInv.step {s t : BusNet} {a : BusNetAct} (h : BusNetInv w s)
    (hstep : s.step w a = some t) : BusNetInv w t := by
  cases a with
  | bus n a =>
      simp only [BusNet.step] at hstep
      split at hstep
      · cases hstep
      · next b hb =>
          split at hstep
          · cases hstep
          · next b' hb' =>
              split at hstep
              · next hguard =>
                  cases hstep
                  refine h.bus hb hb' fun l hl hdst => ?_
                  have hall := List.all_eq_true.mp hguard l hl
                  simpa only [hdst, bne_self_eq_false, Bool.false_or] using hall
              · cases hstep
  | link src srcId dst dstId => exact h.link hstep
  | receive i a => exact h.receive hstep

/-- Whoever joins, broadcasts, receives and fails, and whatever is read when. -/
theorem mesh_heard (w : PointerWidth) {s₀ s : BusNet} (hstart : ∀ b ∈ s₀.buses, BusStarted b)
    (hlinks : s₀.links = []) {acts : List BusNetAct}
    (hrun : run (BusNet.step w) s₀ acts = some s)
    (hfit : ∀ b ∈ s.buses, ∀ m ∈ b.hub.sent, m.len ≤ maxFrameBytes) : MeshHeard s := by
  have hinit : BusNetInv w s₀ :=
    ⟨fun b hb => ⟨b, [], hstart b hb, rfl⟩, hlinks ▸ fun _ hl => absurd hl List.not_mem_nil⟩
  have hinv : BusNetInv w s := run_invariant hinit (fun _ _ _ h hstep => h.step hstep) hrun
  intro l hl
  obtain ⟨src, dst, p, q, hsrc, hdst, hat⟩ := hinv.links l hl
  have hsrc' := List.mem_of_getElem? hsrc
  exact ⟨src, dst, p, q, hsrc, hdst, hat.writer.1, hat.writer.2, hat.reader.1, hat.reader.2,
    hat.heard (hinv.buses src hsrc') (hinv.buses dst (List.mem_of_getElem? hdst))
      (hfit src hsrc')⟩

/-- A stream that takes eight bytes at a time, and has `msgs` to give. -/
def talking (msgs : List Message) : Behaviour where
  fmt := .tcp
  writes _ := .ok 8
  polls k := (msgs[k]?).elim .pending fun m => .ready (.ok m)

/-- Two buses talk to each other; the second has read and polled for what the first
said before it was heard itself. -/
theorem mesh_heard_two :
    ∃ s, run (BusNet.step .w64) ⟨[.dial (talking [⟨[], [6]⟩]), .bind], []⟩
        [.bus 1 (.addPeer (talking [⟨[], [5]⟩])), .link 0 0 1 0, .link 1 0 0 0,
          .bus 0 (.broadcast ⟨[], [5]⟩), .receive 0 (.call ()),
          .receive 0 (.read (.ok [0, 0, 0, 0, 0, 0, 0, 1])), .bus 1 (.broadcast ⟨[], [6]⟩),
          .receive 0 (.read (.ok [5])), .bus 1 .recvAny] = some s ∧
      (s.buses.map Bus0.results = [[], [.ok ⟨[], [5]⟩]] ∧
        ∀ b ∈ s.buses, ∀ m ∈ b.hub.sent, m.len ≤ maxFrameBytes) ∧
      MeshHeard s :=
  Exists.imp (fun s (hs : _ = some s ∧ _ ∧ _) =>
      ⟨hs.1, hs.2, mesh_heard .w64 (by
        intro b hb
        rcases List.mem_cons.mp hb with rfl | hb
        · exact Or.inr (Or.inl ⟨_, rfl⟩)
        · rw [List.mem_singleton.mp hb]
          exact Or.inr (Or.inr rfl)) rfl hs.1 hs.2.2⟩)
    ⟨_, rfl, rfl, by decide⟩

end NngCore.Proofs
