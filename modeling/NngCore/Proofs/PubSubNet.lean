import NngCore.Proofs.Membership
import NngCore.Proofs.Wire
import NngCore.Spec.PubSubNet

/-!
# From the publisher to the subscriber

The subscriber's connections lie one behind the other in the sequence of
published messages. A message received on one was published before the next
was dialled; the publisher admits the next one's peer after that; and a peer is
sent what is published after it was admitted. So where the next connection
begins, all that was received before is behind it: `floor`, for the present
connection, and `reach`, while a dial is under way for the one to come.
-/

namespace NngCore.Proofs

open NngCore.Lib NngCore.Ref NngCore.Spec

variable {w : PointerWidth} {fmt : FrameFormat}

/-! ## The subscriber's steps, as the network sees them -/

/-- A dial is under way. -/
def Dialing (s : Sub0) : Prop :=
  ∃ loop r, s.live = some (.redialing loop) ∧ loop.phase = .redial r ∧ r.dialing = true

theorem not_dialing {s : Sub0} (h : ∀ loop, s.live ≠ some (.redialing loop)) : ¬ Dialing s :=
  fun ⟨loop, _, hlive, _⟩ => h loop hlive

theorem received_conn (s : Sub0) (r : Except NngError Message) :
    (s.received r).conn = s.conn ∧ (s.received r).past = s.past ∧
      ¬ Dialing (s.received r) := by
  cases r with
  | ok msg =>
      simp only [Sub0.received]
      split
      · exact ⟨rfl, rfl, not_dialing fun _ h => by cases h⟩
      · exact ⟨rfl, rfl, not_dialing fun _ h => by cases h⟩
  | error e =>
      rcases received_error s e with ⟨addr, opts, -, -, heq⟩ | heq
      · rw [heq]
        refine ⟨rfl, rfl, ?_⟩
        rintro ⟨loop, r, hlive, hphase, hdial⟩
        cases hlive
        cases hphase
        cases hdial
      · rw [heq]
        exact ⟨rfl, rfl, not_dialing fun _ h => by cases h⟩

theorem settle_conn (s : Sub0) (conn : SubConn) :
    (s.settle conn).conn = conn ∧ (s.settle conn).past = s.past ∧
      ¬ Dialing (s.settle conn) := by
  unfold Sub0.settle
  dsimp only
  split
  · exact ⟨rfl, rfl, not_dialing fun _ h => by cases h⟩
  · split
    · exact received_conn { s with conn := conn } _
    · exact ⟨rfl, rfl, not_dialing fun _ h => by cases h⟩

/-- The redial loop, where it goes on or gives up. -/
theorem redialed_conn (s : Sub0) {loop : Reconnect SubConn} (h : loop.phase ≠ .done (.ok ())) :
    (s.redialed loop).conn = s.conn ∧ (s.redialed loop).past = s.past ∧
      (Dialing (s.redialed loop) → ∃ r, loop.phase = .redial r ∧ r.dialing = true) := by
  unfold Sub0.redialed
  split
  · refine ⟨rfl, rfl, ?_⟩
    rintro ⟨loop', r, hlive, hphase, hdial⟩
    cases hlive
    exact ⟨r, hphase, hdial⟩
  · next hdone => exact absurd hdone h
  · exact ⟨rfl, rfl, fun hd => absurd hd (not_dialing fun _ h => by cases h)⟩
  · exact ⟨rfl, rfl, fun hd => absurd hd (not_dialing fun _ h => by cases h)⟩

/-- After a failed dial the loop sleeps. -/
theorem pause_of_again {opts : ReconnectOptions} {r r' : Redial}
    (h : r.failed opts = .again r') : r'.dialing = false := by
  unfold Redial.failed at h
  dsimp only at h
  split at h
  · split at h
    · cases h
    · split at h
      · cases h
        rfl
      · cases h
  · split at h
    · cases h
      rfl
    · cases h

theorem pause_of_failed {loop : Reconnect SubConn} {r r' : Redial}
    (h : (loop.failed r).phase = .redial r') : r'.dialing = false := by
  simp only [Reconnect.failed] at h
  split at h
  · next hagain =>
      cases h
      exact pause_of_again hagain
  · cases h
  · cases h

/-- What a step of the subscriber does to its connections: put a new one in the
place of the present one, which only a dial does, or go on with that. -/
theorem sub_moved {s s' : Sub0} {a : Sub0Act} (h : s.step w fmt a = some s') :
    (a = .dialed true ∧ Dialing s ∧ s'.conn = .fresh s.conn.kind ∧
      s'.past = s.past ++ [s.conn] ∧ ¬ Dialing s') ∨
    (a ≠ .dialed true ∧ s'.past = s.past ∧
      (s'.conn = s.conn ∨ ∃ ca, s.conn.step w fmt ca = some s'.conn) ∧
      (Dialing s' → a = .slept ∧ s'.conn = s.conn)) := by
  have hgoes : ∀ {b : Sub0Act} {ca : SubConnAct}, b ≠ .dialed true →
      (s.conn.step w fmt ca).map s.settle = some s' →
      b ≠ .dialed true ∧ s'.past = s.past ∧
        (s'.conn = s.conn ∨ ∃ ca, s.conn.step w fmt ca = some s'.conn) ∧
        (Dialing s' → b = .slept ∧ s'.conn = s.conn) := by
    intro b ca hb hmap
    obtain ⟨conn, hconn, rfl⟩ := Option.map_eq_some_iff.mp hmap
    obtain ⟨hc, hp, hd⟩ := settle_conn s conn
    exact ⟨hb, hp, Or.inr ⟨ca, by rw [hc]; exact hconn⟩, fun h => absurd h hd⟩
  unfold Sub0.step at h
  split at h
  · next hlive =>
      cases h
      exact Or.inr ⟨nofun, rfl, Or.inl rfl,
        fun hd => absurd hd (not_dialing fun _ hl => by cases hlive.symm.trans hl)⟩
  · split at h
    · cases h
    · cases h
      exact Or.inr ⟨nofun, rfl, Or.inl rfl,
        fun hd => absurd hd (not_dialing fun _ hl => by cases hl)⟩
  · exact Or.inr (hgoes nofun h)
  · exact Or.inr (hgoes nofun h)
  · exact Or.inr (hgoes nofun h)
  · next loop hlive =>
      obtain ⟨loop', hloop, rfl⟩ := Option.map_eq_some_iff.mp h
      obtain ⟨hc, hp, -⟩ := redialed_conn s fun hdone => by cases dialed_of_done hloop hdone
      exact Or.inr ⟨nofun, hp, Or.inl hc, fun _ => ⟨rfl, hc⟩⟩
  · next ok loop hlive =>
      obtain ⟨loop', hloop, rfl⟩ := Option.map_eq_some_iff.mp h
      obtain ⟨r, hphase, ⟨-, ha, -⟩ | ⟨hdial, t, ha, rfl⟩ | ⟨hdial, ha, rfl⟩⟩ :=
        reconnect_moved hloop
      · cases ha
      · cases ok with
        | false => cases ha
        | true =>
            cases ha
            exact Or.inl ⟨rfl, ⟨loop, r, hlive, hphase, hdial⟩, rfl, rfl,
              not_dialing fun _ hl => by cases hl⟩
      · cases ok with
        | true => cases ha
        | false =>
            have hnot : (loop.failed r).phase ≠ .done (.ok ()) := fun hdone => by
              cases dialed_of_done hloop hdone
            obtain ⟨hc, hp, hd⟩ := redialed_conn s hnot
            refine Or.inr ⟨nofun, hp, Or.inl hc, fun hdialing => ?_⟩
            obtain ⟨r', hr', hdial'⟩ := hd hdialing
            rw [pause_of_failed hr'] at hdial'
            cases hdial'
  · obtain ⟨conn, hconn, rfl⟩ := Option.map_eq_some_iff.mp h
    exact Or.inr ⟨nofun, rfl, Or.inr ⟨.drop, hconn⟩,
      fun hd => absurd hd (not_dialing fun _ hl => by cases hl)⟩
  · cases h
    exact Or.inr ⟨nofun, rfl, Or.inl rfl,
      fun hd => absurd hd (not_dialing fun _ hl => by cases hl)⟩
  · cases h

/-! ## Where the messages received lie -/

/-- `msgs` was published before any peer with a number from `k` on was admitted. -/
def Behind (h : Hub) (msgs : List Message) (k : Nat) : Prop :=
  ∃ f, f ≤ h.sent.length ∧ msgs.Sublist ((h.sent.take f).map Message.received) ∧
    ∀ p ∈ h.everyone, k ≤ p.id → f ≤ p.since

theorem Behind.later {h h' : Hub} {msgs : List Message} {k : Nat} (hb : Behind h msgs k)
    (hl : Later h h') : Behind h' msgs k := by
  obtain ⟨f, hf, hmsgs, hpeers⟩ := hb
  obtain ⟨more, hmore⟩ := hl.sent
  refine ⟨f, Nat.le_trans hf hl.sent.length_le, ?_, ?_⟩
  · rw [← hmore, List.take_append_of_le_length hf]
    exact hmsgs
  · intro p' hp' hk
    rcases hl.news p' hp' with ⟨p, hp, hid, hsince⟩ | hle
    · rw [← hsince]
      exact hpeers p hp (hid ▸ hk)
    · exact Nat.le_trans hf hle

/-- What was published so far was published before any peer to come. -/
theorem behind_admitted {h : Hub} (hn : Numbered h) {msgs : List Message}
    (hmsgs : msgs.Sublist (h.sent.map Message.received)) : Behind h msgs h.admitted := by
  refine ⟨h.sent.length, Nat.le_refl _, by rw [List.take_length]; exact hmsgs, ?_⟩
  intro p hp hle
  exact absurd (hn.id_lt hp) (Nat.not_lt.mpr hle)

theorem peer?_iff {s : PubSubNet} (hn : Numbered s.pub.subscribers) {id : Nat} {p : Peer} :
    s.peer? id = some p ↔ p ∈ s.pub.subscribers.everyone ∧ p.id = id :=
  find_peer_iff (hn.ids.nodup_iff.mpr List.nodup_range)

/-! ## The network -/

structure PubSubInv (w : PointerWidth) (fmt : FrameFormat) (s : PubSubNet) : Prop where
  hub : Numbered s.pub.subscribers
  sub : SubInv w fmt s.sub
  framed : s.sub.conn.kind = .framed
  carries : s.carries = true
  link : ∀ id, s.link = some id →
    s.born ≤ id ∧ ∃ p, s.peer? id = some p ∧ p.behaviour.fmt = fmt
  floor : Behind s.pub.subscribers (s.sub.past.flatMap SubConn.messages) s.born
  reach : Dialing s.sub →
    Behind s.pub.subscribers (s.sub.connections.flatMap SubConn.messages) s.dialing

theorem pubSubInv_dialed (dialAddr : Option String) (reconnect : Option ReconnectOptions) :
    PubSubInv w fmt (.dialed dialAddr reconnect) where
  hub := numbered_empty
  sub := subInv_dial .framed dialAddr reconnect
  framed := rfl
  carries := rfl
  link := nofun
  floor := ⟨0, Nat.le_refl 0, .slnil, fun _ _ _ => Nat.zero_le _⟩
  reach := fun hd => absurd hd (not_dialing fun _ h => by cases h)

/-- What was read on the present connection. -/
theorem PubSubInv.reads {s : PubSubNet} (h : PubSubInv w fmt s) :
    ∃ c, s.sub.conn = .framed c ∧ OwnFrames w fmt c ∧ c.took <+: s.wire := by
  have hframed := h.framed
  have hcarries := h.carries
  have hown := h.sub.conn.ownMessages
  rw [PubSubNet.carries] at hcarries
  cases hc : s.sub.conn with
  | ws c =>
      rw [hc] at hframed
      cases hframed
  | framed c =>
      rw [hc] at hown hcarries
      exact ⟨c, rfl, hown, List.isPrefixOf_iff_prefix.mp hcarries⟩

theorem wire_of_link {s : PubSubNet} {id : Nat} {p : Peer} (hlink : s.link = some id)
    (hp : s.peer? id = some p) : s.wire = p.wire := by
  rw [PubSubNet.wire, hlink, Option.bind_some, hp]

/-- The messages of the present connection, from where its peer joined. -/
theorem PubSubInv.present {s : PubSubNet} (h : PubSubInv w fmt s)
    (hfit : ∀ m ∈ s.pub.subscribers.sent, m.len ≤ maxFrameBytes) {id : Nat} {p : Peer}
    (hlink : s.link = some id) (hp : s.peer? id = some p) :
    SubConn.messages s.sub.conn <+:
      (s.pub.subscribers.sent.drop p.since).map Message.received ∧
      (p ∈ s.pub.subscribers.peers → (∀ c, s.sub.conn = .framed c → c.took = p.wire) →
        SubConn.messages s.sub.conn =
          (s.pub.subscribers.sent.drop p.since).map Message.received) := by
  obtain ⟨c, hc, hown, htook⟩ := h.reads
  obtain ⟨-, q, hq, hfmt⟩ := h.link id hlink
  cases hq.symm.trans hp
  have hmem := ((peer?_iff h.hub).mp hp).1
  have hstream := h.hub.streams p hmem
  rw [wire_of_link hlink hp] at htook
  rw [hfmt] at hstream
  have hwire :
      c.took <+: (s.pub.subscribers.sent.drop p.since).flatMap (frameBytes fmt) ++ [] := by
    rw [List.append_nil]
    exact htook.trans hstream
  obtain ⟨hbegin, hall⟩ := messages_of_wire hown
    (fun m hm => hfit m (List.mem_of_mem_drop hm)) (Or.inl rfl) hwire
  rw [hc, messages_framed]
  refine ⟨hbegin, fun hpeer hread => hall ?_⟩
  rw [hread c rfl, h.hub.wires p hpeer, hfmt, List.append_nil]

theorem PubSubInv.no_link {s : PubSubNet} (h : PubSubInv w fmt s) (hlink : s.link = none) :
    SubConn.messages s.sub.conn = [] := by
  obtain ⟨c, hc, hown, htook⟩ := h.reads
  have hwire : s.wire = [] := by rw [PubSubNet.wire, hlink]; rfl
  rw [hwire] at htook
  have hnone : c.took <+: ([] : List Message).flatMap (frameBytes fmt) ++ [] := htook
  obtain ⟨hbegin, -⟩ := messages_of_wire hown (fun _ hm => absurd hm List.not_mem_nil)
    (Or.inl rfl) hnone
  rw [hc, messages_framed]
  exact List.prefix_nil.mp hbegin

/-- All that was received, in the order of all that was published. -/
theorem PubSubInv.received {s : PubSubNet} (h : PubSubInv w fmt s)
    (hfit : ∀ m ∈ s.pub.subscribers.sent, m.len ≤ maxFrameBytes) :
    (s.sub.connections.flatMap SubConn.messages).Sublist
      (s.pub.subscribers.sent.map Message.received) := by
  obtain ⟨f, hf, hpast, hpeers⟩ := h.floor
  rw [Sub0.connections, flatMap_messages_concat]
  cases hlink : s.link with
  | none =>
      rw [h.no_link hlink, List.append_nil]
      exact hpast.trans ((List.take_sublist _ _).map _)
  | some id =>
      obtain ⟨hborn, p, hp, -⟩ := h.link id hlink
      obtain ⟨hmem, rfl⟩ := (peer?_iff h.hub).mp hp
      have hnow := (h.present hfit hlink hp).1.sublist
      have hdrop : (s.pub.subscribers.sent.drop p.since).Sublist
          (s.pub.subscribers.sent.drop f) :=
        List.drop_sublist_drop_left _ (hpeers p hmem hborn)
      have hboth := hpast.append (hnow.trans (hdrop.map _))
      rwa [← List.map_append, List.take_append_drop] at hboth

/-! ## Its steps -/

theorem carries_of_begins {s t : PubSubNet} (hconn : t.sub.conn = s.sub.conn)
    (hwire : s.wire <+: t.wire) (h : s.carries = true) : t.carries = true := by
  rw [PubSubNet.carries] at h ⊢
  rw [hconn]
  cases hc : s.sub.conn with
  | ws c =>
      rw [hc] at h
      exact h
  | framed c =>
      rw [hc] at h
      exact List.isPrefixOf_iff_prefix.mpr ((List.isPrefixOf_iff_prefix.mp h).trans hwire)

theorem PubSubInv.published {s : PubSubNet} {pub : Pub0} {a : Pub0Act}
    (h : PubSubInv w fmt s) (hstep : s.pub.step a = some pub) :
    PubSubInv w fmt { s with pub := pub } := by
  obtain ⟨hn, hl⟩ := h.hub.pubStep hstep
  -- the peer of the present connection is still known, with what it had
  have hpeer : ∀ id p, s.peer? id = some p → ∃ p', ({ s with pub := pub }).peer? id = some p' ∧
      p'.behaviour = p.behaviour ∧ p.wire <+: p'.wire := by
    intro id p hp
    obtain ⟨hmem, rfl⟩ := (peer?_iff h.hub).mp hp
    obtain ⟨p', hmem', hid, -, hb, hw⟩ := hl.known p hmem
    exact ⟨p', (peer?_iff hn).mpr ⟨hmem', hid⟩, hb, hw⟩
  refine ⟨hn, h.sub, h.framed, ?_, ?_, h.floor.later hl, fun hd => (h.reach hd).later hl⟩
  · refine carries_of_begins (s := s) rfl ?_ h.carries
    cases hlink : s.link with
    | none =>
        have hnone : s.wire = [] := by rw [PubSubNet.wire, hlink]; rfl
        rw [hnone]
        exact List.nil_prefix
    | some id =>
        obtain ⟨-, p, hp, -⟩ := h.link id hlink
        obtain ⟨p', hp', -, hw⟩ := hpeer id p hp
        rw [wire_of_link hlink hp,
          wire_of_link (s := { s with pub := pub, link := some id }) rfl hp']
        exact hw
  · intro id hlink
    obtain ⟨hborn, p, hp, hfmt⟩ := h.link id hlink
    obtain ⟨p', hp', hb, -⟩ := hpeer id p hp
    exact ⟨hborn, p', hp', by rw [hb]; exact hfmt⟩

theorem PubSubInv.connected {s t : PubSubNet} {id : Nat} (h : PubSubInv w fmt s)
    (hstep : s.connect fmt id = some t) : PubSubInv w fmt t := by
  unfold PubSubNet.connect at hstep
  split at hstep
  · next p hlink hp =>
      split at hstep
      · next hcond =>
          cases hstep
          refine ⟨h.hub, h.sub, h.framed, ?_, ?_, h.floor, h.reach⟩
          · refine carries_of_begins (s := s) rfl ?_ h.carries
            have hnone : s.wire = [] := by rw [PubSubNet.wire, hlink]; rfl
            rw [hnone]
            exact List.nil_prefix
          · intro id' hid
            cases hid
            exact ⟨hcond.1, p, hp, hcond.2⟩
      · cases hstep
  · cases hstep

theorem kind_step {c c' : SubConn} {a : SubConnAct} (h : c.step w fmt a = some c') :
    c'.kind = c.kind := by
  rcases conn_moved h with
    ⟨f, f', b, rfl, -, -, rfl⟩ | ⟨s, rfl, -, rfl⟩ | ⟨s, i, rfl, -, -, rfl⟩ |
    ⟨s, rfl, -, rfl⟩
  all_goals rfl

/-- What the network keeps of a step of the subscriber. -/
theorem moved_fields (s : PubSubNet) (a : Sub0Act) (sub : Sub0) :
    (s.moved a sub).pub = s.pub ∧ (s.moved a sub).sub = sub ∧
      (a ≠ .dialed true → (s.moved a sub).link = s.link ∧ (s.moved a sub).born = s.born) ∧
      (a = .dialed true → (s.moved a sub).link = none ∧ (s.moved a sub).born = s.dialing) ∧
      (a = .slept → (s.moved a sub).dialing = s.pub.subscribers.admitted) := by
  unfold PubSubNet.moved
  split
  · exact ⟨rfl, rfl, fun _ => ⟨rfl, rfl⟩, nofun, fun _ => rfl⟩
  · exact ⟨rfl, rfl, fun h => absurd rfl h, fun _ => ⟨rfl, rfl⟩, nofun⟩
  · next hslept hdialed =>
      exact ⟨rfl, rfl, fun _ => ⟨rfl, rfl⟩, fun h => absurd h hdialed,
        fun h => absurd h hslept⟩

theorem PubSubInv.subscribed {s : PubSubNet} {sub : Sub0} {a : Sub0Act}
    (h : PubSubInv w fmt s) (hfit : ∀ m ∈ s.pub.subscribers.sent, m.len ≤ maxFrameBytes)
    (hstep : s.sub.step w fmt a = some sub) (hcarries : (s.moved a sub).carries = true) :
    PubSubInv w fmt (s.moved a sub) := by
  obtain ⟨hpub, hsub, hkeep, hnew, hslept⟩ := moved_fields s a sub
  have hinv := h.sub.step hstep
  have hpeer : ∀ id, (s.moved a sub).peer? id = s.peer? id := by
    intro id
    rw [PubSubNet.peer?, hpub]
    rfl
  rcases sub_moved hstep with ⟨ha, hdialing, hconn, hpast, hquiet⟩ | ⟨ha, hpast, hconn, hdial⟩
  · obtain ⟨hlink, hborn⟩ := hnew ha
    refine ⟨by rw [hpub]; exact h.hub, by rw [hsub]; exact hinv, ?_, hcarries, ?_, ?_, ?_⟩
    · rw [hsub, hconn, h.framed]
      rfl
    · intro id hid
      rw [hlink] at hid
      cases hid
    · rw [hpub, hsub, hborn, hpast]
      exact h.reach hdialing
    · intro hd
      rw [hsub] at hd
      exact absurd hd hquiet
  · obtain ⟨hlink, hborn⟩ := hkeep ha
    refine ⟨by rw [hpub]; exact h.hub, by rw [hsub]; exact hinv, ?_, hcarries, ?_, ?_, ?_⟩
    · rw [hsub]
      rcases hconn with hsame | ⟨ca, hca⟩
      · rw [hsame]
        exact h.framed
      · rw [kind_step hca]
        exact h.framed
    · intro id hid
      rw [hlink] at hid
      rw [hborn, hpeer]
      exact h.link id hid
    · rw [hpub, hsub, hborn, hpast]
      exact h.floor
    · intro hd
      rw [hsub] at hd ⊢
      obtain ⟨hslept', hsame⟩ := hdial hd
      have hconns : sub.connections = s.sub.connections := by
        rw [Sub0.connections, Sub0.connections, hpast, hsame]
      rw [hpub, hslept hslept', hconns]
      exact behind_admitted h.hub (h.received hfit)

theorem PubSubInv.step {s t : PubSubNet} {a : PubSubAct} (h : PubSubInv w fmt s)
    (hfit : ∀ m ∈ s.pub.subscribers.sent, m.len ≤ maxFrameBytes)
    (hstep : s.step w fmt a = some t) : PubSubInv w fmt t := by
  cases a with
  | pub a =>
      obtain ⟨pub, hpub, rfl⟩ := Option.map_eq_some_iff.mp hstep
      exact h.published hpub
  | connect id => exact h.connected hstep
  | sub a =>
      simp only [PubSubNet.step] at hstep
      split at hstep
      · cases hstep
      · next sub hsub =>
          split at hstep
          · next hcarries =>
              cases hstep
              exact h.subscribed hfit hsub hcarries
          · cases hstep

/-- The publisher forgets no message. -/
theorem hub_step {s t : PubSubNet} {a : PubSubAct} (hn : Numbered s.pub.subscribers)
    (hstep : s.step w fmt a = some t) : Numbered t.pub.subscribers ∧
      s.pub.subscribers.sent <+: t.pub.subscribers.sent := by
  cases a with
  | pub a =>
      obtain ⟨pub, hpub, rfl⟩ := Option.map_eq_some_iff.mp hstep
      exact ⟨(hn.pubStep hpub).1, (hn.pubStep hpub).2.sent⟩
  | connect id =>
      simp only [PubSubNet.step, PubSubNet.connect] at hstep
      split at hstep
      · split at hstep
        · cases hstep
          exact ⟨hn, List.prefix_rfl⟩
        · cases hstep
      · cases hstep
  | sub a =>
      simp only [PubSubNet.step] at hstep
      split at hstep
      · cases hstep
      · next sub hsub =>
          split at hstep
          · cases hstep
            rw [(moved_fields s a sub).1]
            exact ⟨hn, List.prefix_rfl⟩
          · cases hstep

theorem pubSubInv_run {dialAddr : Option String} {reconnect : Option ReconnectOptions}
    {acts : List PubSubAct} {s : PubSubNet}
    (hrun : run (PubSubNet.step w fmt) (.dialed dialAddr reconnect) acts = some s)
    (hfit : ∀ m ∈ s.pub.subscribers.sent, m.len ≤ maxFrameBytes) : PubSubInv w fmt s := by
  have h := run_invariant (I := fun u : PubSubNet => Numbered u.pub.subscribers ∧
    ((∀ m ∈ u.pub.subscribers.sent, m.len ≤ maxFrameBytes) → PubSubInv w fmt u))
    ⟨numbered_empty, fun _ => pubSubInv_dialed dialAddr reconnect⟩ ?_ hrun
  · exact h.2 hfit
  · intro u a v ⟨hn, hu⟩ hstep
    obtain ⟨hn', hsent⟩ := hub_step hn hstep
    refine ⟨hn', fun hfit' => ?_⟩
    have hfitu : ∀ m ∈ u.pub.subscribers.sent, m.len ≤ maxFrameBytes :=
      fun m hm => hfit' m (hsent.subset hm)
    exact (hu hfitu).step hfitu hstep

/-! ## What the subscriber sees -/

/-- However publishing, joining, failing, receiving, dropping and redialling
interleave: of messages that fit a frame, the subscriber receives and returns no
message twice and no two in the wrong order, over all its connections, and on
the present one it misses none since the publisher admitted it. -/
theorem subscriber_sees_in_order (w : PointerWidth) (fmt : FrameFormat)
    (dialAddr : Option String) (reconnect : Option ReconnectOptions) (acts : List PubSubAct)
    (s : PubSubNet)
    (hrun : run (PubSubNet.step w fmt) (.dialed dialAddr reconnect) acts = some s)
    (hfit : ∀ m ∈ s.pub.subscribers.sent, m.len ≤ maxFrameBytes) : SeenInOrder s := by
  have h := pubSubInv_run hrun hfit
  have hconsumed : (s.sub.consumed.map Prod.fst).Sublist
      (s.pub.subscribers.sent.map Message.received) := by
    rw [h.sub.consumed]
    exact h.received hfit
  refine ⟨hconsumed, ?_, ?_, ?_⟩
  · rw [h.sub.returned]
    exact (List.filter_sublist.map _).trans hconsumed
  · intro id p hlink hp
    exact (h.present hfit hlink hp).1
  · intro id p c hlink hp hpeer hconn hread
    refine (h.present hfit hlink hp).2 hpeer fun c' hc' => ?_
    cases hconn.symm.trans hc'
    exact hread

/-! The subscriber receives the first message, loses the connection, and is away
for the second; the third comes on the new connection. The publisher still has
the old peer, too. -/

def awayForOne : List PubSubAct :=
  [.sub (.change (.subscribe [])), .pub (.publish [.peer willing] ⟨[], [1]⟩), .connect 0,
    .sub .next, .sub .recv, .sub (.read (.ok [0, 0, 0, 0, 0, 0, 0, 1])),
      .sub (.read (.ok [1])),
    .sub .next, .sub .recv, .sub (.read (.ok [])), .sub .slept,
    .pub (.publish [] ⟨[], [2]⟩), .sub (.dialed true), .sub .recv,
    .pub (.publish [.refused, .peer willing] ⟨[], [3]⟩), .connect 1,
    .sub (.read (.ok [0, 0, 0, 0, 0])), .sub .drop, .sub .next, .sub .recv,
    .sub (.read (.ok [0, 0, 1])), .sub (.read (.ok [3]))]

theorem subscriber_sees_in_order_redialed :
    let start : PubSubNet := .dialed (some "tcp://p:1") (some ⟨1, 4, none⟩)
    ∃ s, run (PubSubNet.step .w64 .tcp) start awayForOne = some s ∧
      s.sub.returned = [.ok ⟨[], [1]⟩, .ok ⟨[], [3]⟩] ∧
      s.pub.subscribers.sent = [⟨[], [1]⟩, ⟨[], [2]⟩, ⟨[], [3]⟩] ∧ SeenInOrder s := by
  intro start
  have hval : (run (PubSubNet.step .w64 .tcp) start awayForOne).map
      (fun s => (s.sub.returned, s.pub.subscribers.sent)) =
        some ([.ok ⟨[], [1]⟩, .ok ⟨[], [3]⟩], [⟨[], [1]⟩, ⟨[], [2]⟩, ⟨[], [3]⟩]) := by
    decide +kernel
  obtain ⟨s, hrun, hs⟩ := Option.map_eq_some_iff.mp hval
  obtain ⟨hreturned, hsent⟩ := Prod.mk.inj hs
  refine ⟨s, hrun, hreturned, hsent,
    subscriber_sees_in_order .w64 .tcp _ _ awayForOne s hrun ?_⟩
  rw [hsent]
  decide

end NngCore.Proofs
