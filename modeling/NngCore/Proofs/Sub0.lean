import NngCore.Proofs.Backoff
import NngCore.Proofs.Recv
import NngCore.Proofs.Topics
import NngCore.Spec.Sub0

/-!
# What `next` returns

Two facts make the whole of it. A receive keeps its place in the bytes of its
own connection, through every drop (`Recv`), and a redial starts a connection
with nothing of the old one; so every connection gives the messages of what was
read on it. And between the moment a message is received and the moment it is
returned or passed over there is no await: a call that is dropped has received
nothing that it has not dealt with. The subscriptions cannot change while a
call is live, so a message is judged by the ones in force when it came.
-/

namespace NngCore.Proofs

open NngCore.Lib NngCore.Ref NngCore.Spec

variable {w : PointerWidth} {fmt : FrameFormat}

/-! ## The filter -/

theorem subscribed_topic_mem {calls : List SubCall} {topic : List UInt8}
    (h : Subscribed calls topic) : topic ∈ calls.map SubCall.topic := by
  have hmem := List.mem_of_find?_eq_some h
  exact List.mem_map.mpr ⟨_, List.mem_reverse.mp hmem, rfl⟩

/-- The set the socket keeps decides as the history of calls does. -/
theorem isMatch_eq_inForce (calls : List SubCall) (msg : Message) :
    (calls.foldl Sub0State.apply .new).isMatch msg = inForce calls msg := by
  rw [Bool.eq_iff_iff, isMatch_iff, inForce, List.any_eq_true]
  simp only [mem_subscriptions, Bool.and_eq_true, decide_eq_true_eq,
    List.isPrefixOf_iff_prefix]
  constructor
  · rintro ⟨topic, hprefix, hsub⟩
    exact ⟨topic, subscribed_topic_mem hsub, hsub, hprefix⟩
  · rintro ⟨topic, -, hsub, hprefix⟩
    exact ⟨topic, hprefix, hsub⟩

/-! ## A framed connection -/

/-- The connection has given the frames of its bytes and holds `p` of the next. -/
structure FramedAt (w : PointerWidth) (fmt : FrameFormat) (c : FramedConn)
    (items : List (framing w fmt).Item) (p : List UInt8) : Prop where
  sound : Sound w fmt c.recv p
  took : c.took = (framing w fmt).encode items ++ p
  messages : c.recv.results.filterMap Except.toOption =
    items.filterMap fun it => (answer w fmt it).toOption

theorem framedAt_fresh : FramedAt w fmt .fresh [] [] := ⟨sound_fresh (), rfl, rfl⟩

theorem FramedAt.ownFrames {c : FramedConn} {items : List (framing w fmt).Item}
    {p : List UInt8}
    (h : FramedAt w fmt c items p) : OwnFrames w fmt c :=
  ⟨items, p, h.took, h.sound.hold.isPartial, h.messages⟩

theorem framedConn_step {c c' : FramedConn} {a : RecvAct Unit} (h : c.step w fmt a = some c') :
    c.recv.step vecZeroed w fmt a = some c'.recv ∧ c'.took = c.took ++ a.bytes := by
  unfold FramedConn.step at h
  split at h
  · cases h
  · next recv hrecv =>
      cases h
      exact ⟨hrecv, rfl⟩

theorem FramedAt.step {c c' : FramedConn} {items : List (framing w fmt).Item} {p : List UInt8}
    {a : RecvAct Unit} (h : FramedAt w fmt c items p) (hstep : c.step w fmt a = some c') :
    ∃ items' p', FramedAt w fmt c' items' p' := by
  obtain ⟨hrecv, htook⟩ := framedConn_step hstep
  obtain ⟨p', rs, hmove, hsound, hres⟩ := h.sound.step sized_vecZeroed hrecv
  have hmsgs : c'.recv.results.filterMap Except.toOption =
      c.recv.results.filterMap Except.toOption ++ rs.filterMap Except.toOption := by
    rw [hres, List.filterMap_append]
  rw [h.took] at htook
  rw [h.messages] at hmsgs
  -- most steps read nothing and return no message
  have hquiet : Sound w fmt c'.recv p → a.bytes = [] → rs.filterMap Except.toOption = [] →
      ∃ items' p', FramedAt w fmt c' items' p' := by
    intro hp hbytes hnone
    rw [hbytes, List.append_nil] at htook
    rw [hnone, List.append_nil] at hmsgs
    exact ⟨items, p, hp, htook, hmsgs⟩
  cases hmove with
  | call k => exact hquiet hsound rfl rfl
  | drop => exact hquiet hsound rfl rfl
  | failed e => exact hquiet hsound rfl rfl
  | ended => exact hquiet hsound rfl rfl
  | @more bs hne =>
      exact ⟨items, p ++ bs, hsound, htook.trans (List.append_assoc _ _ _),
        hmsgs.trans (List.append_nil _)⟩
  | @item bs it hp hne =>
      refine ⟨items ++ [it], [], hsound, ?_, ?_⟩
      · rw [htook, Framing.encode_concat, hp, List.append_nil, List.append_assoc]
        rfl
      · rw [hmsgs, List.filterMap_append]
        rfl

/-- How a receive comes to its next await or its end. -/
theorem receiver_settled {K S : Type} {alloc : K → S → Nat → List UInt8 × S}
    {r r' : Receiver K S} {a : RecvAct K} (ha : a ≠ .drop)
    (h : r.step alloc w fmt a = some r') :
    r'.panicked = true ∨ (r'.live ≠ none ∧ r'.results = r.results) ∨
      (r'.live = none ∧ ∃ res, r'.results = r.results ++ [res]) := by
  have hsettle : ∀ (k : K) (out : S × RecvBuf × RecvPoll), (r.settle k out).panicked = true ∨
      ((r.settle k out).live ≠ none ∧ (r.settle k out).results = r.results) ∨
        ((r.settle k out).live = none ∧
          ∃ res, (r.settle k out).results = r.results ++ [res]) := by
    rintro k ⟨s, rx, point | res | _⟩
    · exact Or.inr (Or.inl ⟨Option.some_ne_none _, rfl⟩)
    · exact Or.inr (Or.inr ⟨rfl, res, rfl⟩)
    · exact Or.inl rfl
  rcases receiver_moved h with ⟨k, -, -, -, rfl⟩ | ⟨res, fut, -, -, -, rfl⟩ | ⟨fut, hdrop, -⟩
  · exact hsettle k _
  · exact hsettle fut.method _
  · exact absurd hdrop ha

/-! ## Any connection -/

/-- A connection has given the messages of what was read on it, and a framed one
holds the beginning of the next. -/
def ConnAt (w : PointerWidth) (fmt : FrameFormat) : SubConn → Prop
  | .framed c => ∃ items p, FramedAt w fmt c items p
  | .ws c => OwnItems c

theorem connAt_fresh (kind : SubConnKind) : ConnAt w fmt (.fresh kind) := by
  cases kind with
  | framed => exact ⟨[], [], framedAt_fresh⟩
  | ws => exact rfl

theorem ConnAt.ownMessages {c : SubConn} (h : ConnAt w fmt c) : OwnMessages w fmt c := by
  cases c with
  | framed c =>
      obtain ⟨items, p, hat⟩ := h
      exact hat.ownFrames
  | ws c => exact h

theorem ConnAt.alive {c : SubConn} (h : ConnAt w fmt c) : c.panicked = false := by
  cases c with
  | framed c =>
      obtain ⟨items, p, hat⟩ := h
      exact hat.sound.alive
  | ws c => rfl

theorem ownItems_read {c : WsConn} (h : OwnItems c) (i : WsItem) : OwnItems (c.read i) := by
  have htook : (c.took ++ [i]).filterMap WsItem.message =
      c.results.filterMap Except.toOption ++ [i].filterMap WsItem.message := by
    rw [List.filterMap_append, ← h]
  cases i with
  | binary data => exact (List.filterMap_append ..).trans htook.symm
  | close => exact (List.filterMap_append ..).trans htook.symm
  | other => exact (List.append_nil _).symm.trans htook.symm
  | failed e => exact (List.filterMap_append ..).trans htook.symm
  | ended => exact (List.filterMap_append ..).trans htook.symm

/-- Everything a step of a connection can do. -/
theorem conn_moved {c c' : SubConn} {a : SubConnAct} (h : c.step w fmt a = some c') :
    (∃ f f' b, c = .framed f ∧ a.recvAct = some b ∧ f.step w fmt b = some f' ∧
      c' = .framed f') ∨
    (∃ s, c = .ws s ∧ a = .call ∧ c' = .ws { s with waiting := true }) ∨
    (∃ s i, c = .ws s ∧ s.waiting = true ∧ a = .item i ∧ c' = .ws (s.read i)) ∨
    (∃ s, c = .ws s ∧ a = .drop ∧ c' = .ws { s with waiting := false }) := by
  cases c with
  | framed f =>
      obtain ⟨f', hbind, rfl⟩ := Option.map_eq_some_iff.mp h
      obtain ⟨b, hb, hstep⟩ := Option.bind_eq_some_iff.mp hbind
      exact Or.inl ⟨f, f', b, rfl, hb, hstep, rfl⟩
  | ws s =>
      obtain ⟨s', hstep, rfl⟩ := Option.map_eq_some_iff.mp h
      simp only [WsConn.step] at hstep
      split at hstep
      · cases hstep
        exact Or.inr (Or.inl ⟨s, rfl, rfl, rfl⟩)
      · next i hwait =>
          cases hstep
          exact Or.inr (Or.inr (Or.inl ⟨s, i, rfl, hwait, rfl, rfl⟩))
      · cases hstep
        exact Or.inr (Or.inr (Or.inr ⟨s, rfl, rfl, rfl⟩))
      · cases hstep

theorem ConnAt.step {c c' : SubConn} {a : SubConnAct} (h : ConnAt w fmt c)
    (hstep : c.step w fmt a = some c') : ConnAt w fmt c' := by
  rcases conn_moved hstep with ⟨f, f', b, rfl, -, hf, rfl⟩ | ⟨s, rfl, -, rfl⟩ |
    ⟨s, i, rfl, -, -, rfl⟩ | ⟨s, rfl, -, rfl⟩
  · obtain ⟨items, p, hat⟩ := h
    exact hat.step hf
  · exact h
  · exact ownItems_read h i
  · exact h

/-- A receive comes to its next await, or to its end with one more result. -/
theorem conn_settled {c c' : SubConn} {a : SubConnAct} (hat : ConnAt w fmt c')
    (ha : a ≠ .drop) (h : c.step w fmt a = some c') :
    (c'.waiting = true ∧ c'.results = c.results) ∨
      (c'.waiting = false ∧ ∃ r, c'.results = c.results ++ [r]) := by
  rcases conn_moved h with ⟨f, f', b, rfl, hb, hf, rfl⟩ | ⟨s, rfl, -, rfl⟩ |
    ⟨s, i, rfl, hwait, -, rfl⟩ | ⟨s, rfl, hdrop, -⟩
  · have hb' : b ≠ .drop := by
      rintro rfl
      cases a with
      | call => cases hb
      | read r => cases hb
      | item i => cases hb
      | drop => exact ha rfl
    rcases receiver_settled hb' (framedConn_step hf).1 with hdead | ⟨hlive, hres⟩ |
      ⟨hlive, r, hres⟩
    · have halive : f'.recv.panicked = false := hat.alive
      rw [halive] at hdead
      cases hdead
    · exact Or.inl ⟨Option.isSome_iff_ne_none.mpr hlive, congrArg (List.map _) hres⟩
    · refine Or.inr ⟨?_, r.mapError .ofTransport, ?_⟩
      · show f'.recv.live.isSome = false
        rw [hlive]
        rfl
      · show f'.recv.results.map _ = _
        rw [hres, List.map_append]
        rfl
  · exact Or.inl ⟨rfl, rfl⟩
  · cases i with
    | binary data => exact Or.inr ⟨rfl, _, rfl⟩
    | close => exact Or.inr ⟨rfl, _, rfl⟩
    | other => exact Or.inl ⟨hwait, rfl⟩
    | failed e => exact Or.inr ⟨rfl, _, rfl⟩
    | ended => exact Or.inr ⟨rfl, _, rfl⟩
  · exact absurd hdrop ha

theorem conn_dropped {c c' : SubConn} (h : c.step w fmt .drop = some c') :
    c'.results = c.results := by
  rcases conn_moved h with ⟨f, f', b, rfl, hb, hf, rfl⟩ | ⟨s, rfl, -, rfl⟩ |
    ⟨s, i, rfl, -, hi, -⟩ | ⟨s, rfl, -, rfl⟩
  · cases hb
    rcases receiver_moved (framedConn_step hf).1 with ⟨k, ha, -⟩ | ⟨res, fut, ha, -⟩ |
      ⟨fut, -, -, heq⟩
    · cases ha
    · cases ha
    · show f'.recv.results.map _ = _
      rw [heq]
      rfl
  · rfl
  · cases hi
  · rfl

/-! ## The socket -/

structure SubInv (w : PointerWidth) (fmt : FrameFormat) (s : Sub0) : Prop where
  state : s.state = s.calls.foldl Sub0State.apply .new
  returned : s.returned.filterMap Except.toOption =
    (s.consumed.filter fun x => inForce x.2 x.1).map Prod.fst
  consumed : s.consumed.map Prod.fst = s.connections.flatMap SubConn.messages
  conn : ConnAt w fmt s.conn
  past : ∀ c ∈ s.past, OwnMessages w fmt c
  errors : s.dialAddr = none ∨ s.reconnect = none → s.past = [] ∧
    s.returned.filterMap errorOf = s.conn.results.filterMap errorOf
  redialing : ∀ loop, s.live = some (.redialing loop) →
    s.dialAddr ≠ none ∧ s.reconnect ≠ none

theorem subInv_dial (kind : SubConnKind) (dialAddr : Option String)
    (reconnect : Option ReconnectOptions) : SubInv w fmt (.dial kind dialAddr reconnect) where
  state := rfl
  returned := rfl
  consumed := by cases kind <;> rfl
  conn := connAt_fresh kind
  past := fun _ h => absurd h List.not_mem_nil
  errors := fun _ => ⟨rfl, by cases kind <;> rfl⟩
  redialing := fun _ h => by cases h

theorem SubInv.subscribedStream {s : Sub0} (h : SubInv w fmt s) :
    SubscribedStream w fmt s := by
  exact ⟨h.returned, h.consumed, forall_mem_concat h.past h.conn.ownMessages, h.errors⟩

theorem flatMap_messages_concat (past : List SubConn) (c : SubConn) :
    (past ++ [c]).flatMap SubConn.messages =
      past.flatMap SubConn.messages ++ SubConn.messages c := by
  rw [List.flatMap_append, List.flatMap_singleton]

/-- The receive has come to an await, with nothing returned. -/
theorem SubInv.waits {s : Sub0} {conn : SubConn} (h : SubInv w fmt s)
    (hat : ConnAt w fmt conn)
    (hres : conn.results = s.conn.results) {live : Option NextPhase}
    (hlive : ∀ loop, live ≠ some (.redialing loop)) :
    SubInv w fmt { s with conn := conn, live := live } := by
  have hmsgs : SubConn.messages conn = SubConn.messages s.conn := by
    rw [SubConn.messages, hres]
    rfl
  refine ⟨h.state, h.returned, ?_, hat, h.past, ?_, fun loop hl => absurd hl (hlive loop)⟩
  · rw [h.consumed, Sub0.connections, Sub0.connections, flatMap_messages_concat,
      flatMap_messages_concat, hmsgs]
  · intro hno
    obtain ⟨hpast, herr⟩ := h.errors hno
    exact ⟨hpast, by rw [hres]; exact herr⟩

/-- A failed receive starts the redial loop, or ends the call. -/
theorem received_error (s : Sub0) (e : NngError) :
    (∃ addr opts, s.dialAddr = some addr ∧ s.reconnect = some opts ∧ s.received (.error e) =
      { s with live := some (.redialing (.start opts s.conn)) }) ∨
    s.received (.error e) = s.finish (.error e) := by
  cases haddr : s.dialAddr with
  | none => exact Or.inr (by simp only [Sub0.received, haddr])
  | some addr =>
      cases hopts : s.reconnect with
      | none => exact Or.inr (by simp only [Sub0.received, haddr, hopts])
      | some opts =>
          exact Or.inl ⟨addr, opts, rfl, rfl, by simp only [Sub0.received, haddr, hopts]⟩

/-! The receive has returned `r`, which is the last of its results. -/

section Received

variable {s : Sub0} {conn : SubConn}

theorem SubInv.log (h : SubInv w fmt s) {r : Except NngError Message}
    (hres : conn.results = s.conn.results ++ [r]) :
    (s.past ++ [conn]).flatMap SubConn.messages =
      s.consumed.map Prod.fst ++ [r].filterMap Except.toOption := by
  have hmsgs : SubConn.messages conn =
      SubConn.messages s.conn ++ [r].filterMap Except.toOption := by
    rw [SubConn.messages, hres, List.filterMap_append]
    rfl
  rw [h.consumed, Sub0.connections, flatMap_messages_concat, flatMap_messages_concat, hmsgs,
    List.append_assoc]

/-- Errors are reported where `next` returns them, and a message is none. -/
theorem SubInv.errors_ok (h : SubInv w fmt s) {msg : Message}
    (hres : conn.results = s.conn.results ++ [.ok msg])
    (hno : s.dialAddr = none ∨ s.reconnect = none) :
    s.past = [] ∧ s.returned.filterMap errorOf = conn.results.filterMap errorOf := by
  obtain ⟨hpast, herr⟩ := h.errors hno
  refine ⟨hpast, ?_⟩
  rw [hres, List.filterMap_append, herr]
  exact (List.append_nil _).symm

theorem SubInv.matching (h : SubInv w fmt s) (hat : ConnAt w fmt conn)
    {msg : Message} (hres : conn.results = s.conn.results ++ [.ok msg])
    (hmatch : inForce s.calls msg = true) :
    SubInv w fmt ({ s with
      conn := conn
      consumed := s.consumed ++ [(msg, s.calls)] }.finish (.ok msg)) := by
  refine ⟨h.state, ?_, ?_, hat, h.past, ?_, fun loop hl => by cases hl⟩
  · have hkept : (s.consumed ++ [(msg, s.calls)]).filter (fun x => inForce x.2 x.1) =
        s.consumed.filter (fun x => inForce x.2 x.1) ++ [(msg, s.calls)] := by
      rw [List.filter_append, List.filter_singleton, hmatch]
      rfl
    simp only [Sub0.finish, hkept, List.filterMap_append, List.map_append, h.returned]
    rfl
  · simp only [Sub0.finish, Sub0.connections, h.log hres, List.map_append]
    rfl
  · intro hno
    obtain ⟨hpast, herr⟩ := h.errors_ok hres hno
    refine ⟨hpast, ?_⟩
    simp only [Sub0.finish, List.filterMap_append, herr]
    exact List.append_nil _

theorem SubInv.passedOver (h : SubInv w fmt s) (hat : ConnAt w fmt conn)
    {msg : Message} (hres : conn.results = s.conn.results ++ [.ok msg])
    (hmatch : inForce s.calls msg = false) :
    SubInv w fmt { s with
      conn := conn
      consumed := s.consumed ++ [(msg, s.calls)]
      live := some .looping } := by
  refine ⟨h.state, ?_, ?_, hat, h.past, h.errors_ok hres, fun loop hl => by cases hl⟩
  · have hkept : (s.consumed ++ [(msg, s.calls)]).filter (fun x => inForce x.2 x.1) =
        s.consumed.filter (fun x => inForce x.2 x.1) := by
      rw [List.filter_append, List.filter_singleton, hmatch]
      exact List.append_nil _
    rw [hkept, h.returned]
  · simp only [Sub0.connections, h.log hres, List.map_append]
    rfl

/-- A call returns an error, its own or the redial loop's. -/
theorem SubInv.failedCall (h : SubInv w fmt s) (hat : ConnAt w fmt conn)
    {e : NngError} (hres : conn.results = s.conn.results ++ [.error e]) :
    SubInv w fmt ({ s with conn := conn }.finish (.error e)) := by
  refine ⟨h.state, ?_, ?_, hat, h.past, ?_, fun loop hl => by cases hl⟩
  · simp only [Sub0.finish, List.filterMap_append, h.returned]
    exact List.append_nil _
  · simp only [Sub0.finish, Sub0.connections, h.log hres]
    exact (List.append_nil _).symm
  · intro hno
    obtain ⟨hpast, herr⟩ := h.errors hno
    refine ⟨hpast, ?_⟩
    simp only [Sub0.finish, List.filterMap_append, herr, hres]

theorem SubInv.startsRedial (h : SubInv w fmt s) (hat : ConnAt w fmt conn)
    {e : NngError} (hres : conn.results = s.conn.results ++ [.error e])
    (hopts : s.dialAddr ≠ none ∧ s.reconnect ≠ none) (loop : Reconnect SubConn) :
    SubInv w fmt { s with conn := conn, live := some (.redialing loop) } := by
  refine ⟨h.state, h.returned, ?_, hat, h.past, fun hno => absurd hno (not_or.mpr hopts),
    fun _ _ => hopts⟩
  simp only [Sub0.connections, h.log hres]
  exact (List.append_nil _).symm

theorem SubInv.received (h : SubInv w fmt s) (hat : ConnAt w fmt conn)
    {r : Except NngError Message}
    (hres : conn.results = s.conn.results ++ [r]) :
    SubInv w fmt ({ s with conn := conn }.received r) := by
  cases r with
  | ok msg =>
      have hfilter : s.state.isMatch msg = inForce s.calls msg := by
        rw [h.state, isMatch_eq_inForce]
      simp only [Sub0.received, hfilter]
      cases hmatch : inForce s.calls msg with
      | true => exact h.matching hat hres hmatch
      | false => exact h.passedOver hat hres hmatch
  | error e =>
      rcases received_error { s with conn := conn } e with
        ⟨addr, opts, haddr, hopts, heq⟩ | heq
      · rw [heq]
        exact h.startsRedial hat hres ⟨Option.ne_none_iff_exists'.mpr ⟨addr, haddr⟩,
          Option.ne_none_iff_exists'.mpr ⟨opts, hopts⟩⟩ _
      · rw [heq]
        exact h.failedCall hat hres

end Received

/-- A piece of `recv` has run, and the call with it. -/
theorem SubInv.settle {s : Sub0} {conn : SubConn} {a : SubConnAct} (h : SubInv w fmt s)
    (ha : a ≠ .drop) (hstep : s.conn.step w fmt a = some conn) :
    SubInv w fmt (s.settle conn) := by
  have hat := h.conn.step hstep
  have halive := hat.alive
  rcases conn_settled hat ha hstep with ⟨hwait, hres⟩ | ⟨hdone, r, hres⟩
  · simp only [Sub0.settle, halive, hwait]
    exact h.waits hat hres fun loop hl => by cases hl
  · have hlast : conn.results.getLast? = some r := by rw [hres, List.getLast?_concat]
    simp only [Sub0.settle, halive, hdone, hlast]
    exact h.received hat hres

/-! The call is in the redial loop, which has got to `loop'`. -/

section Redialed

variable {s : Sub0} {loop loop' : Reconnect SubConn}

/-- The transport a loop ends with is the one its last dial made. -/
theorem dialed_of_done {T : Type} {loop loop' : Reconnect T} {a : ReconnectAct T}
    (h : loop.step a = some loop')
    (hdone : loop'.phase = .done (.ok ())) : a = .dialed (some loop'.transport) := by
  obtain ⟨r, -, ⟨-, -, rfl⟩ | ⟨-, t, ha, rfl⟩ | ⟨-, -, rfl⟩⟩ := reconnect_moved h
  · cases hdone
  · exact ha
  · simp only [Reconnect.failed] at hdone
    split at hdone
    · cases hdone
    · cases hdone
    · cases hdone

theorem messages_fresh (kind : SubConnKind) : SubConn.messages (.fresh kind) = [] := by
  cases kind with
  | framed => rfl
  | ws => rfl

theorem SubInv.newConn (h : SubInv w fmt s) (hlive : s.live = some (.redialing loop)) :
    SubInv w fmt { s with
      conn := .fresh s.conn.kind
      past := s.past ++ [s.conn]
      live := some .looping } := by
  refine ⟨h.state, h.returned, ?_, connAt_fresh _, forall_mem_concat h.past h.conn.ownMessages,
    fun hno => absurd hno (not_or.mpr (h.redialing loop hlive)), fun _ hl => by cases hl⟩
  simp only [Sub0.connections, flatMap_messages_concat _ (SubConn.fresh _), messages_fresh,
    List.append_nil]
  exact h.consumed

/-- The error of the loop is no transport's, and only a socket that reconnects
returns one. -/
theorem SubInv.gaveUp (h : SubInv w fmt s) (hlive : s.live = some (.redialing loop))
    (e : NngError) : SubInv w fmt (s.finish (.error e)) := by
  refine ⟨h.state, ?_, h.consumed, h.conn, h.past,
    fun hno => absurd hno (not_or.mpr (h.redialing loop hlive)), fun _ hl => by cases hl⟩
  simp only [Sub0.finish, List.filterMap_append, h.returned]
  exact List.append_nil _

theorem SubInv.redialed (h : SubInv w fmt s) (hlive : s.live = some (.redialing loop))
    (hnew : loop'.phase = .done (.ok ()) → loop'.transport = .fresh s.conn.kind) :
    SubInv w fmt (s.redialed loop') := by
  unfold Sub0.redialed
  split
  · exact ⟨h.state, h.returned, h.consumed, h.conn, h.past, h.errors,
      fun _ _ => h.redialing loop hlive⟩
  · next hdone =>
      rw [hnew hdone]
      exact h.newConn hlive
  · exact h.gaveUp hlive _
  · exact ⟨h.state, h.returned, h.consumed, h.conn, h.past, h.errors, fun _ hl => by cases hl⟩

end Redialed

theorem SubInv.change {s : Sub0} (h : SubInv w fmt s) (call : SubCall) :
    SubInv w fmt { s with state := s.state.apply call, calls := s.calls ++ [call] } := by
  refine ⟨?_, h.returned, h.consumed, h.conn, h.past, h.errors, h.redialing⟩
  show s.state.apply call = (s.calls ++ [call]).foldl Sub0State.apply .new
  rw [List.foldl_append, h.state]
  rfl

theorem SubInv.step {s s' : Sub0} {a : Sub0Act} (h : SubInv w fmt s)
    (hstep : s.step w fmt a = some s') : SubInv w fmt s' := by
  unfold Sub0.step at hstep
  split at hstep
  · next call hlive =>
      cases hstep
      exact h.change call
  · next hlive =>
      split at hstep
      · cases hstep
      · cases hstep
        exact h.waits h.conn rfl fun _ hl => by cases hl
  · obtain ⟨conn, hconn, rfl⟩ := Option.map_eq_some_iff.mp hstep
    exact h.settle (fun ha => by cases ha) hconn
  · obtain ⟨conn, hconn, rfl⟩ := Option.map_eq_some_iff.mp hstep
    exact h.settle (fun ha => by cases ha) hconn
  · obtain ⟨conn, hconn, rfl⟩ := Option.map_eq_some_iff.mp hstep
    exact h.settle (fun ha => by cases ha) hconn
  · next loop hlive =>
      obtain ⟨loop', hloop, rfl⟩ := Option.map_eq_some_iff.mp hstep
      exact h.redialed hlive fun hdone => by cases dialed_of_done hloop hdone
  · next ok loop hlive =>
      obtain ⟨loop', hloop, rfl⟩ := Option.map_eq_some_iff.mp hstep
      refine h.redialed hlive fun hdone => ?_
      have hdial := dialed_of_done hloop hdone
      cases ok with
      | true => exact (Option.some.inj (ReconnectAct.dialed.inj hdial)).symm
      | false => cases hdial
  · obtain ⟨conn, hconn, rfl⟩ := Option.map_eq_some_iff.mp hstep
    exact h.waits (h.conn.step hconn) (conn_dropped hconn) fun _ hl => by cases hl
  · cases hstep
    exact h.waits h.conn rfl fun _ hl => by cases hl
  · cases hstep

/-- Whatever is read, dropped, subscribed to and redialled. -/
theorem next_returns_subscribed (w : PointerWidth) (fmt : FrameFormat) (kind : SubConnKind)
    (dialAddr : Option String) (reconnect : Option ReconnectOptions) (acts : List Sub0Act)
    (s : Sub0) (hrun : run (Sub0.step w fmt) (.dial kind dialAddr reconnect) acts = some s) :
    SubscribedStream w fmt s := by
  have hinv : SubInv w fmt s :=
    run_invariant (subInv_dial kind dialAddr reconnect)
      (fun _ _ _ h hstep => h.step hstep) hrun
  exact hinv.subscribedStream

/-- A message on another topic is passed over, a call is dropped inside a header, the
next one loses the connection and redials, and the topic comes on the new one. -/
theorem next_returns_subscribed_redialed :
    let start : Sub0 := .dial .framed (some "tcp://p:1") (some ⟨1, 4, none⟩)
    let acts : List Sub0Act :=
      [.change (.subscribe [7]), .next, .recv, .read (.ok [0, 0, 0, 0, 0, 0, 0, 1]),
        .read (.ok [9]), .recv, .read (.ok [0, 0, 0]), .drop, .next, .recv, .read (.ok []),
        .slept, .dialed true, .recv, .read (.ok [0, 0, 0, 0, 0, 0, 0, 2]), .read (.ok [7, 8])]
    ∃ s, run (Sub0.step .w64 .tcp) start acts = some s ∧ s.returned = [.ok ⟨[], [7, 8]⟩] ∧
      s.past.length = 1 ∧ SubscribedStream .w64 .tcp s := by
  intro start acts
  have hval : (run (Sub0.step .w64 .tcp) start acts).map
      (fun s => (s.returned, s.past.length)) = some ([.ok ⟨[], [7, 8]⟩], 1) := by decide
  obtain ⟨s, hrun, hs⟩ := Option.map_eq_some_iff.mp hval
  obtain ⟨hret, hlen⟩ := Prod.mk.inj hs
  exact ⟨s, hrun, hret, hlen, next_returns_subscribed .w64 .tcp .framed _ _ acts s hrun⟩

end NngCore.Proofs
