import NngCore.Proofs.ReqRepIds
import NngCore.Proofs.Survey
import NngCore.Spec.SurveyNet

/-!
# No answer under the wrong survey

As long as the application leaves message headers alone, the four bytes in
front of a message are the ID of a survey: of the survey itself on the way
down, copied into the handle on arrival, and of the survey the handle was made
from on the way up. Fewer than 2^32 - 1 surveys have different IDs, so an
answer whose ID is the current one was made for the current survey, whenever
it was sent and however long it was under way.

That a connection answers a survey once at most is in the loop: a respondent
whose receive came back with anything is polled no more.
-/

namespace NngCore.Proofs

open NngCore.Lib NngCore.Ref NngCore.Spec

/-! ## Stamped messages -/

/-- `msg` starts with the ID of survey `n`, and `rest` is behind it. -/
def Stamped (n : Nat) (rest : List UInt8) (msg : Message) : Prop :=
  ∃ id : UInt32, id.toNat = n ∧ msg = ⟨[], u32ToBeBytes id ++ rest⟩

theorem stamped_received {msg : Message} (h : msg.header = []) {id : UInt32} {n : Nat}
    (hid : id.toNat = n) :
    Stamped n msg.body (msg.headerPushBack (u32ToBeBytes id)).received := by
  refine ⟨id, hid, ?_⟩
  show Message.mk [] (msg.header ++ u32ToBeBytes id ++ msg.body) = _
  rw [h]
  rfl

theorem take_four (id : UInt32) (rest : List UInt8) :
    (u32ToBeBytes id ++ rest).take 4 = u32ToBeBytes id ∧
      (u32ToBeBytes id ++ rest).drop 4 = rest ∧
      ¬ (u32ToBeBytes id ++ rest).length < 4 := by
  have h4 := length_u32ToBeBytes id
  refine ⟨?_, ?_, ?_⟩
  · rw [← h4, List.take_left]
  · rw [← h4, List.drop_left]
  · rw [List.length_append]
    omega

/-- The respondent copies the ID. -/
theorem processIncoming_stamped {n : Nat} {rest : List UInt8} {msg : Message}
    (h : Stamped n rest msg) :
    ∃ routing out, Respondent0State.processIncoming msg = some (.ok routing, out) ∧
      ∃ id : UInt32, id.toNat = n ∧ routing.bytes.toList = u32ToBeBytes id := by
  obtain ⟨id, hid, rfl⟩ := h
  obtain ⟨htake, hdrop, hlong⟩ := take_four id rest
  simp only [Respondent0State.processIncoming, MessageBuf.body, MessageBuf.trimFront,
    dif_neg hlong, Message.trimFront_of_le (m := ⟨[], _⟩) (Nat.le_of_not_lt hlong)]
  refine ⟨_, _, rfl, id, hid, ?_⟩
  simp [htake]

/-- The surveyor accepts a response if it carries the current ID, and strips it. -/
theorem processResponse_stamped (st : Surveyor0State) {n : Nat} {rest : List UInt8}
    {raw : Message} (h : Stamped n rest raw) :
    (st.currentId.toNat = n ∧ st.processResponse raw = some (.ok (), ⟨[], rest⟩)) ∨
      ∃ e out, st.processResponse raw = some (.error e, out) := by
  obtain ⟨id, hid, rfl⟩ := h
  obtain ⟨htake, hdrop, hlong⟩ := take_four id rest
  simp only [Surveyor0State.processResponse, MessageBuf.body, MessageBuf.trimFront,
    if_neg hlong, Message.trimFront_of_le (m := ⟨[], _⟩) (Nat.le_of_not_lt hlong), htake,
    hdrop, u32FromBeBytes_u32ToBeBytes]
  by_cases hcur : id = st.currentId
  · refine Or.inl ⟨hcur ▸ hid, if_neg (not_not_intro hcur)⟩
  · exact Or.inr ⟨_, _, if_pos hcur⟩

/-! ## One connection -/

/-- Whatever is under way on a connection carries the ID of its survey. -/
structure ConnInv (c : SurveyConn) : Prop where
  down : ∀ x ∈ c.down, ∃ rest, Stamped x.number rest x.msg
  handle : ∀ h, c.handle = some h →
    ∃ id : UInt32, id.toNat = h.number ∧ h.routing.bytes.toList = u32ToBeBytes id
  up : ∀ raw ∈ c.up, ∃ n m, (n, m) ∈ c.responded ∧ m.header = [] ∧ Stamped n m.body raw

theorem connInv_fresh : ConnInv .fresh where
  down := fun _ hx => absurd hx List.not_mem_nil
  handle := fun _ h => nomatch h
  up := fun _ hx => absurd hx List.not_mem_nil

/-- `c'` is a state in which `c` may be found later. -/
structure ConnNext (c c' : SurveyConn) : Prop where
  inv : ConnInv c'
  responded : c.responded ⊆ c'.responded

theorem ConnInv.putDown {c : SurveyConn} (h : ConnInv c) {x : SurveyMsg} {rest : List UInt8}
    (hx : Stamped x.number rest x.msg) : ConnNext c (c.putDown x) := by
  unfold SurveyConn.putDown
  split
  · exact ⟨h, fun _ hm => hm⟩
  · exact ⟨⟨forall_mem_concat h.down ⟨rest, hx⟩, h.handle, h.up⟩, fun _ hm => hm⟩

theorem ConnInv.failDown {c : SurveyConn} (h : ConnInv c) : ConnNext c c.failDown :=
  ⟨⟨h.down, h.handle, h.up⟩, fun _ hm => hm⟩

theorem ConnInv.cutDown {c : SurveyConn} (h : ConnInv c) : ConnNext c c.cutDown :=
  ⟨⟨fun _ hx => absurd hx List.not_mem_nil, h.handle, h.up⟩, fun _ hm => hm⟩

theorem ConnInv.cutUp {c : SurveyConn} (h : ConnInv c) : ConnNext c c.cutUp :=
  ⟨⟨h.down, h.handle, fun _ hx => absurd hx List.not_mem_nil⟩, fun _ hm => hm⟩

theorem ConnInv.dropHandle {c c' : SurveyConn} (h : ConnInv c)
    (hdrop : c.dropHandle = some c') : ConnNext c c' := by
  unfold SurveyConn.dropHandle at hdrop
  split at hdrop
  · cases hdrop
  · cases hdrop
    exact ⟨⟨h.down, (fun _ hnone => nomatch hnone), h.up⟩, fun _ hm => hm⟩

/-- The handle is made from the survey that arrived, and has its ID. -/
theorem ConnInv.receive {c c' : SurveyConn} (h : ConnInv c)
    (hrecv : c.receive = some c') : ConnNext c c' := by
  unfold SurveyConn.receive at hrecv
  split at hrecv
  · next x down hnone hdown =>
      have htail : ∀ y ∈ down, ∃ rest, Stamped y.number rest y.msg :=
        fun y hy => h.down y (hdown ▸ List.mem_cons_of_mem x hy)
      obtain ⟨rest, hx⟩ := h.down x (hdown ▸ List.mem_cons_self)
      obtain ⟨routing, out, heq, hid⟩ := processIncoming_stamped hx
      rw [heq] at hrecv
      cases hrecv
      refine ⟨⟨htail, fun hd hsome => ?_, h.up⟩, fun _ hm => hm⟩
      cases hsome
      exact hid
  · cases hrecv

/-- The answer goes out under the ID of the handle. -/
theorem ConnInv.respond {c c' : SurveyConn} {msg : Message} {ok : Bool} (h : ConnInv c)
    (hplain : msg.header = []) (hresp : c.respond msg ok = some c') : ConnNext c c' := by
  unfold SurveyConn.respond at hresp
  split at hresp
  · cases hresp
  · next hd hsome =>
      obtain ⟨id, hid, hrouting⟩ := h.handle hd hsome
      rw [show Respondent0State.prepareResponse msg hd.routing =
        some (msg.headerPushBack hd.routing.bytes.toList) from rfl, hrouting] at hresp
      have hout := stamped_received hplain hid
      have hold : ∀ raw ∈ c.up, ∃ n m, (n, m) ∈ c.responded ++ [(hd.number, msg)] ∧
          m.header = [] ∧ Stamped n m.body raw := by
        intro raw hraw
        obtain ⟨n, m, hm, hrest⟩ := h.up raw hraw
        exact ⟨n, m, List.mem_append_left _ hm, hrest⟩
      have hclosed : ∀ x, (none : Option SurveyHandle) = some x →
          ∃ id : UInt32, id.toNat = x.number ∧ x.routing.bytes.toList = u32ToBeBytes id :=
        fun _ hnone => nomatch hnone
      cases hresp
      cases ok with
      | false => exact ⟨⟨h.down, hclosed, hold⟩, List.subset_append_left _ _⟩
      | true =>
          simp only [if_true]
          unfold SurveyConn.putUp
          split
          · exact ⟨⟨h.down, hclosed, hold⟩, List.subset_append_left _ _⟩
          · refine ⟨⟨h.down, hclosed, forall_mem_concat hold ?_⟩, List.subset_append_left _ _⟩
            exact ⟨hd.number, msg, List.mem_append_right _ List.mem_cons_self, hplain, hout⟩

/-! ## The surveyor between two steps -/

/-- What holds in a call and out of it. -/
structure NetSound (s : SurveyNet) : Prop where
  next : s.state.nextId.toNat = idAfter s.count
  current : s.state.currentId.toNat = s.count
  conns : ∀ c ∈ s.conns, ConnInv c
  belong : AnswersBelong s

/-- The survey under way is the last one made and has not returned. -/
structure SurveyOpen (s : SurveyNet) : Prop where
  made : 1 ≤ s.count
  below : ∀ r ∈ s.returned, r.1 < s.count

/-- `responses` is what the survey under way collected so far, and no connection
it is waiting for has contributed. -/
structure Collecting (s : SurveyNet) (waiting : List Nat) (responses : List (Nat × Message)) :
    Prop where
  once : (responses.map Prod.fst ++ waiting).Nodup
  belong : ∀ x ∈ responses, RespondedTo s s.count x

/-- The sending loop before its step `i`. -/
structure Sending (s : SurveyNet) (outgoing : Message) (i : Nat) (pending : List Nat) :
    Prop where
  stamped : ∃ rest, Stamped s.count rest outgoing.received
  nodup : pending.Nodup
  below : ∀ j ∈ pending, j < i

def InPhase (s : SurveyNet) : SurveyPhase → Prop
  | .idle => True
  | .sending outgoing i pending => SurveyOpen s ∧ Sending s outgoing i pending
  | .polling todo still responses => SurveyOpen s ∧ Collecting s (todo ++ still) responses
  | .yielded pending responses => SurveyOpen s ∧ Collecting s pending responses

structure NetInv (s : SurveyNet) : Prop where
  sound : NetSound s
  phase : InPhase s s.phase

theorem netInv_start : NetInv .start where
  sound := {
    next := rfl
    current := rfl
    conns := fun _ h => absurd h List.not_mem_nil
    belong := {
      made := fun _ h => absurd h List.not_mem_nil
      numbered := List.nodup_nil
      belong := fun _ h => absurd h List.not_mem_nil
      once := fun _ h => absurd h List.not_mem_nil } }
  phase := trivial

/-- Only the phase changes. -/
theorem netInv_await {s : SurveyNet} {p : SurveyPhase} (hs : NetSound s)
    (hp : InPhase (s.await p) p) : NetInv (s.await p) where
  sound := {
    next := hs.next
    current := hs.current
    conns := hs.conns
    belong := ⟨hs.belong.made, hs.belong.numbered, hs.belong.belong, hs.belong.once⟩ }
  phase := hp

theorem netInv_finish {s : SurveyNet} {waiting : List Nat} {responses : List (Nat × Message)}
    (hs : NetSound s) (ho : SurveyOpen s) (hc : Collecting s waiting responses) :
    NetInv (s.finish responses) where
  sound := {
    next := hs.next
    current := hs.current
    conns := hs.conns
    belong := {
      made := forall_mem_concat hs.belong.made ⟨ho.made, Nat.le_refl _⟩
      numbered := by
        show ((s.returned ++ [(s.count, responses)]).map Prod.fst).Nodup
        rw [List.map_append, List.map_singleton, List.nodup_append]
        refine ⟨hs.belong.numbered, List.pairwise_singleton _ _, ?_⟩
        intro k hk j hj heq
        obtain ⟨r, hr, rfl⟩ := List.mem_map.mp hk
        have hlt := ho.below r hr
        rw [heq, List.mem_singleton.mp hj] at hlt
        exact absurd hlt (Nat.lt_irrefl _)
      belong := forall_mem_concat hs.belong.belong hc.belong
      once := forall_mem_concat hs.belong.once (List.nodup_append.mp hc.once).1 } }
  phase := trivial

theorem netInv_loopHead {s : SurveyNet} {pending : List Nat}
    {responses : List (Nat × Message)} (hs : NetSound s) (ho : SurveyOpen s)
    (hc : Collecting s pending responses) : NetInv (s.loopHead pending responses) := by
  unfold SurveyNet.loopHead
  split
  · exact netInv_finish hs ho hc
  · refine netInv_await hs ⟨⟨ho.made, ho.below⟩, ?_, hc.belong⟩
    rw [List.append_nil]
    exact hc.once

theorem netInv_passOn {s : SurveyNet} {todo still : List Nat}
    {responses : List (Nat × Message)} (hs : NetSound s) (ho : SurveyOpen s)
    (hc : Collecting s (todo ++ still) responses) :
    NetInv (s.passOn todo still responses) := by
  unfold SurveyNet.passOn
  split
  · exact netInv_await hs ⟨⟨ho.made, ho.below⟩, hc.once, hc.belong⟩
  · split
    · exact netInv_finish hs ho hc
    · exact netInv_await hs ⟨⟨ho.made, ho.below⟩, hc.once, hc.belong⟩

theorem netInv_sendOn {s : SurveyNet} {outgoing : Message} {i : Nat} {pending : List Nat}
    (hs : NetSound s) (ho : SurveyOpen s) (hsend : Sending s outgoing i pending) :
    NetInv (s.sendOn outgoing i pending) := by
  unfold SurveyNet.sendOn
  split
  · exact netInv_await hs ⟨⟨ho.made, ho.below⟩, hsend.stamped, hsend.nodup, hsend.below⟩
  · exact netInv_loopHead hs ho ⟨hsend.nodup, fun _ hx => absurd hx List.not_mem_nil⟩

/-! ## One connection moves on -/

section
variable {s : SurveyNet} {i : Nat} {c c' : SurveyConn}

theorem respondedTo_setConn (hi : s.conns[i]? = some c) (hn : ConnNext c c') {k : Nat}
    {x : Nat × Message} (h : RespondedTo s k x) : RespondedTo (s.setConn i c') k x := by
  obtain ⟨d, hd, hmem⟩ := h
  by_cases hix : i = x.1
  · subst hix
    rw [hi] at hd
    cases hd
    refine ⟨c', ?_, hn.responded hmem⟩
    show (s.conns.set x.1 c')[x.1]? = some c'
    rw [List.getElem?_set_self', hi]
    rfl
  · refine ⟨d, ?_, hmem⟩
    show (s.conns.set i c')[x.1]? = some d
    rw [List.getElem?_set_ne hix]
    exact hd

theorem NetSound.conn (hs : NetSound s) (hi : s.conns[i]? = some c) : ConnInv c :=
  hs.conns c (List.mem_of_getElem? hi)

theorem NetSound.setConn (hs : NetSound s) (hi : s.conns[i]? = some c)
    (hn : ConnNext c c') : NetSound (s.setConn i c') where
  next := hs.next
  current := hs.current
  conns := by
    intro d hd
    rcases List.mem_or_eq_of_mem_set hd with hold | rfl
    · exact hs.conns d hold
    · exact hn.inv
  belong := {
    made := hs.belong.made
    numbered := hs.belong.numbered
    belong := fun r hr x hx => respondedTo_setConn hi hn (hs.belong.belong r hr x hx)
    once := hs.belong.once }

theorem Collecting.setConn {waiting : List Nat} {responses : List (Nat × Message)}
    (hc : Collecting s waiting responses) (hi : s.conns[i]? = some c)
    (hn : ConnNext c c') : Collecting (s.setConn i c') waiting responses where
  once := hc.once
  belong := fun x hx => respondedTo_setConn hi hn (hc.belong x hx)

theorem SurveyOpen.setConn (ho : SurveyOpen s) : SurveyOpen (s.setConn i c') :=
  ⟨ho.made, ho.below⟩

theorem NetInv.setConn (h : NetInv s) (hi : s.conns[i]? = some c) (hn : ConnNext c c') :
    NetInv (s.setConn i c') where
  sound := h.sound.setConn hi hn
  phase := by
    have hp := h.phase
    show InPhase (s.setConn i c') s.phase
    cases hphase : s.phase with
    | idle => trivial
    | sending outgoing j pending =>
        rw [hphase] at hp
        exact ⟨hp.1.setConn, hp.2.stamped, hp.2.nodup, hp.2.below⟩
    | polling todo still responses =>
        rw [hphase] at hp
        exact ⟨hp.1.setConn, hp.2.setConn hi hn⟩
    | yielded pending responses =>
        rw [hphase] at hp
        exact ⟨hp.1.setConn, hp.2.setConn hi hn⟩

end

/-- What a party does at its connection keeps the whole. -/
theorem NetInv.atConn {s s' : SurveyNet} {i : Nat} {f : SurveyConn → Option SurveyConn}
    (h : NetInv s) (hf : ∀ c c', ConnInv c → f c = some c' → ConnNext c c')
    (hat : s.atConn i f = some s') : NetInv s' := by
  unfold SurveyNet.atConn at hat
  split at hat
  · cases hat
  · next c hi =>
      obtain ⟨c', hc', rfl⟩ := Option.map_eq_some_iff.mp hat
      exact h.setConn hi (hf c c' (h.sound.conn hi) hc')

/-! ## The surveyor's steps -/

/-- A new survey has an ID of its own, the number of surveys made. -/
theorem NetInv.survey {s s' : SurveyNet} {msg : Message} (h : NetInv s)
    (hplain : msg.header = []) (hfew : s.count + 1 < 2 ^ 32 - 1)
    (hsurvey : s.survey msg = some s') : NetInv s' := by
  have hs := h.sound
  have hid : s.state.nextId.toNat = s.count + 1 := by
    rw [hs.next, idAfter, Nat.mod_eq_of_lt (by omega)]
  cases hsurvey
  refine netInv_sendOn ⟨nextId_step hs.next, hid, hs.conns, ?_⟩ ⟨Nat.le_add_left 1 _, ?_⟩
    ⟨⟨msg.body, stamped_received hplain hid⟩, List.nodup_nil,
      fun _ hj => absurd hj List.not_mem_nil⟩
  · exact ⟨fun r hr => ⟨(hs.belong.made r hr).1, Nat.le_succ_of_le (hs.belong.made r hr).2⟩,
      hs.belong.numbered, hs.belong.belong, hs.belong.once⟩
  · exact fun r hr => Nat.lt_succ_of_le (hs.belong.made r hr).2

theorem NetInv.sent {s s' : SurveyNet} {outgoing : Message} {i : Nat} {pending : List Nat}
    {ok : Bool} (hs : NetSound s) (ho : SurveyOpen s) (hsend : Sending s outgoing i pending)
    (hsent : s.sent outgoing i pending ok = some s') : NetInv s' := by
  have hlater : ∀ j ∈ pending, j < i + 1 := fun j hj => Nat.lt_succ_of_lt (hsend.below j hj)
  obtain ⟨rest, hstamp⟩ := hsend.stamped
  unfold SurveyNet.sent at hsent
  split at hsent
  · cases hsent
  · next c hi =>
      cases ok with
      | false =>
          cases hsent
          exact netInv_sendOn (hs.setConn hi (hs.conn hi).failDown) ho.setConn
            ⟨⟨rest, hstamp⟩, hsend.nodup, hlater⟩
      | true =>
          cases hsent
          refine netInv_sendOn (hs.setConn hi ((hs.conn hi).putDown hstamp)) ho.setConn
            ⟨⟨rest, hstamp⟩, ?_, forall_mem_concat hlater (Nat.lt_succ_self i)⟩
          refine List.nodup_append.mpr
            ⟨hsend.nodup, List.pairwise_singleton _ _, fun a ha b hb heq => ?_⟩
          have hlt := hsend.below a ha
          rw [heq, List.mem_singleton.mp hb] at hlt
          exact absurd hlt (Nat.lt_irrefl i)

/-- The connection polled is waited for no more. -/
theorem Collecting.drop {s : SurveyNet} {i : Nat} {waiting : List Nat}
    {responses : List (Nat × Message)} (hc : Collecting s (i :: waiting) responses) :
    Collecting s waiting responses where
  once := hc.once.sublist ((List.sublist_cons_self i waiting).append_left _)
  belong := hc.belong

/-- It stays pending. -/
theorem Collecting.keep {s : SurveyNet} {i : Nat} {todo still : List Nat}
    {responses : List (Nat × Message)} (hc : Collecting s (i :: todo ++ still) responses) :
    Collecting s (todo ++ (still ++ [i])) responses where
  once := by
    have hperm : (i :: todo ++ still).Perm (todo ++ (still ++ [i])) := by
      rw [← List.append_assoc]
      exact (List.perm_append_singleton i (todo ++ still)).symm
    exact (hperm.append_left _).nodup hc.once
  belong := hc.belong

/-- It has contributed. -/
theorem Collecting.answer {s : SurveyNet} {i : Nat} {waiting : List Nat}
    {responses : List (Nat × Message)} {msg : Message}
    (hc : Collecting s (i :: waiting) responses) (hmsg : RespondedTo s s.count (i, msg)) :
    Collecting s waiting (responses ++ [(i, msg)]) where
  once := by
    rw [List.map_append, List.append_assoc]
    exact hc.once
  belong := forall_mem_concat hc.belong hmsg

/-- A message that is accepted carries the current ID, and so was made for the
survey under way. -/
theorem NetInv.polled {s s' : SurveyNet} {i : Nat} {todo still : List Nat}
    {responses : List (Nat × Message)} {finds : PollFinds} (hs : NetSound s)
    (ho : SurveyOpen s) (hc : Collecting s (i :: todo ++ still) responses)
    (hpoll : s.polled i todo still responses finds = some s') : NetInv s' := by
  cases finds with
  | nothing =>
      cases hpoll
      exact netInv_passOn hs ho hc.keep
  | failure =>
      simp only [SurveyNet.polled] at hpoll
      split at hpoll
      · cases hpoll
      · split at hpoll
        · cases hpoll
          exact netInv_passOn hs ho hc.drop
        · cases hpoll
  | message =>
      simp only [SurveyNet.polled] at hpoll
      split at hpoll
      · cases hpoll
      · next c hi =>
          split at hpoll
          · cases hpoll
          · next raw up hup =>
              have hinv := hs.conn hi
              have hn : ConnNext c { c with up := up } :=
                ⟨⟨hinv.down, hinv.handle,
                  fun r hr => hinv.up r (hup ▸ List.mem_cons_of_mem raw hr)⟩, fun _ hm => hm⟩
              obtain ⟨n, m, hm, hplain, hstamp⟩ := hinv.up raw (hup ▸ List.mem_cons_self)
              have hs' := hs.setConn hi hn
              have hc' := hc.setConn hi hn
              rcases processResponse_stamped s.state hstamp with ⟨hcur, heq⟩ | ⟨e, out, heq⟩
              · rw [show (s.setConn i { c with up := up }).state = s.state from rfl,
                  heq] at hpoll
                cases hpoll
                refine netInv_passOn hs' ho.setConn (hc'.answer ?_)
                have hmsg : Message.mk [] m.body = m := by
                  rw [← hplain]
                rw [hmsg]
                refine respondedTo_setConn hi hn ⟨c, hi, ?_⟩
                rw [show (s.setConn i { c with up := up }).count = s.count from rfl,
                  ← hs.current, hcur]
                exact hm
              · rw [show (s.setConn i { c with up := up }).state = s.state from rfl,
                  heq] at hpoll
                cases hpoll
                exact netInv_passOn hs' ho.setConn hc'.drop

theorem NetInv.join {s : SurveyNet} (h : NetInv s) (hidle : s.phase = .idle) :
    NetInv { s with conns := s.conns ++ [.fresh] } where
  sound := {
    next := h.sound.next
    current := h.sound.current
    conns := forall_mem_concat h.sound.conns connInv_fresh
    belong := {
      made := h.sound.belong.made
      numbered := h.sound.belong.numbered
      belong := by
        intro r hr x hx
        obtain ⟨c, hc, hmem⟩ := h.sound.belong.belong r hr x hx
        refine ⟨c, ?_, hmem⟩
        show (s.conns ++ [SurveyConn.fresh])[x.1]? = some c
        rw [List.getElem?_append_left (List.getElem?_eq_some_iff.mp hc).1]
        exact hc
      once := h.sound.belong.once } }
  phase := by
    show InPhase _ s.phase
    rw [hidle]
    trivial

/-! ## Whole runs -/

theorem loopHead_count (s : SurveyNet) (pending : List Nat)
    (responses : List (Nat × Message)) :
    (s.loopHead pending responses).count = s.count := by
  unfold SurveyNet.loopHead
  split <;> rfl

theorem passOn_count (s : SurveyNet) (todo still : List Nat)
    (responses : List (Nat × Message)) : (s.passOn todo still responses).count = s.count := by
  unfold SurveyNet.passOn
  split
  · rfl
  · split <;> rfl

theorem sendOn_count (s : SurveyNet) (outgoing : Message) (i : Nat) (pending : List Nat) :
    (s.sendOn outgoing i pending).count = s.count := by
  unfold SurveyNet.sendOn
  split
  · rfl
  · exact loopHead_count s pending []

theorem survey_count {s s' : SurveyNet} {msg : Message} (h : s.survey msg = some s') :
    s'.count = s.count + 1 := by
  cases h
  exact sendOn_count _ _ _ _

theorem atConn_count {s s' : SurveyNet} {i : Nat} {f : SurveyConn → Option SurveyConn}
    (h : s.atConn i f = some s') : s'.count = s.count := by
  unfold SurveyNet.atConn at h
  split at h
  · cases h
  · obtain ⟨c', -, rfl⟩ := Option.map_eq_some_iff.mp h
    rfl

theorem sent_count {s s' : SurveyNet} {outgoing : Message} {i : Nat} {pending : List Nat}
    {ok : Bool} (h : s.sent outgoing i pending ok = some s') : s'.count = s.count := by
  unfold SurveyNet.sent at h
  split at h
  · cases h
  · cases ok <;> cases h <;> exact sendOn_count _ _ _ _

theorem polled_count {s s' : SurveyNet} {i : Nat} {todo still : List Nat}
    {responses : List (Nat × Message)} {finds : PollFinds}
    (h : s.polled i todo still responses finds = some s') : s'.count = s.count := by
  unfold SurveyNet.polled at h
  split at h
  · cases h
    exact passOn_count _ _ _ _
  · split at h
    · cases h
    · split at h
      · cases h
        exact passOn_count _ _ _ _
      · cases h
  · split at h
    · cases h
    · split at h
      · cases h
      · dsimp only at h
        split at h
        · cases h
        · cases h
          exact passOn_count _ _ _ _
        · cases h
          exact passOn_count _ _ _ _

/-- A step makes a survey or leaves their number alone. -/
theorem step_count {s s' : SurveyNet} {a : SurveyNetAct} (h : s.step a = some s') :
    s.count ≤ s'.count := by
  unfold SurveyNet.step at h
  split at h
  · cases h
    exact Nat.le_refl _
  · exact survey_count h ▸ Nat.le_succ _
  · exact (sent_count h).ge
  · exact (polled_count h).ge
  · cases h
    exact (loopHead_count _ _ _).ge
  · cases h
    exact Nat.le_refl _
  · cases h
    exact Nat.le_refl _
  · exact (atConn_count h).ge
  · exact (atConn_count h).ge
  · exact (atConn_count h).ge
  · exact (atConn_count h).ge
  · exact (atConn_count h).ge
  · cases h

/-- Every step keeps the invariant while the IDs last. -/
theorem NetInv.step {s s' : SurveyNet} {a : SurveyNetAct} (h : NetInv s) (ha : PlainAct a)
    (hfew : s'.count < 2 ^ 32 - 1) (hstep : s.step a = some s') : NetInv s' := by
  have hp := h.phase
  unfold SurveyNet.step at hstep
  split at hstep
  · next hphase =>
      cases hstep
      exact h.join hphase
  · exact h.survey ha (survey_count hstep ▸ hfew) hstep
  · next hphase =>
      rw [hphase] at hp
      exact .sent h.sound hp.1 hp.2 hstep
  · next hphase =>
      rw [hphase] at hp
      exact .polled h.sound hp.1 hp.2 hstep
  · next hphase =>
      rw [hphase] at hp
      cases hstep
      exact netInv_loopHead h.sound hp.1 hp.2
  · next hphase =>
      rw [hphase] at hp
      cases hstep
      exact netInv_finish h.sound hp.1 hp.2
  · cases hstep
    exact netInv_await h.sound trivial
  · exact h.atConn (fun _ _ hc hr => hc.receive hr) hstep
  · exact h.atConn (fun _ _ hc hr => hc.respond ha hr) hstep
  · exact h.atConn (fun _ _ hc hr => hc.dropHandle hr) hstep
  · exact h.atConn (fun _ _ hc hr => Option.some.inj hr ▸ hc.cutDown) hstep
  · exact h.atConn (fun _ _ hc hr => Option.some.inj hr ▸ hc.cutUp) hstep
  · cases hstep

theorem netInv_run {acts : List SurveyNetAct} {s : SurveyNet}
    (hrun : run SurveyNet.step .start acts = some s) (hplain : ∀ a ∈ acts, PlainAct a)
    (hfew : s.count < 2 ^ 32 - 1) : NetInv s := by
  refine run_invariant_of_labels (P := PlainAct)
    (I := fun u => u.count < 2 ^ 32 - 1 → NetInv u) (fun _ => netInv_start) ?_ hrun hplain hfew
  intro u a v ha ih hstep hv
  have hu := ih (Nat.lt_of_le_of_lt (step_count hstep) hv)
  exact hu.step ha hv hstep

/-- In every interleaving of the surveyor's steps, the respondents' and the
failures of connections: as long as the applications leave the headers of their
messages empty and fewer than `2 ^ 32 - 1` surveys are made, what a survey
returns was passed to `respond` on handles made from that survey, and no
connection contributes twice. -/
theorem survey_answers_belong (acts : List SurveyNetAct) (s : SurveyNet)
    (hrun : run SurveyNet.step .start acts = some s) (hplain : ∀ a ∈ acts, PlainAct a)
    (hfew : s.count < 2 ^ 32 - 1) : AnswersBelong s :=
  (netInv_run hrun hplain hfew).sound.belong

/-- Two respondents and two surveys. The first survey returns empty; the first
respondent's answer to it is found in the second survey and rejected, and the
second respondent, who let the first survey go by, is in time for the second. -/
def lateAnswer : List SurveyNetAct :=
  [.join, .join, .survey ⟨[], [8]⟩, .sent true, .sent true, .poll .nothing, .poll .nothing,
    .deadline, .receive 0, .respond 0 ⟨[], [7]⟩ true, .receive 1, .dropHandle 1,
    .survey ⟨[], [9]⟩, .sent true, .sent true, .poll .message, .poll .nothing, .receive 1,
    .respond 1 ⟨[], [5]⟩ true, .resume, .poll .message]

theorem survey_answers_belong_late_answer :
    ∃ s, run SurveyNet.step .start lateAnswer = some s ∧
      s.returned = [(1, []), (2, [(1, ⟨[], [5]⟩)])] ∧ AnswersBelong s := by
  refine ⟨_, rfl, rfl, survey_answers_belong lateAnswer _ rfl ?_ (by decide)⟩
  simp [lateAnswer, PlainAct]

/-- A survey that came with four header bytes of its own travels with them in
front of the ID, and its answer is taken for one to the survey they name. -/
def foreignHeader : List SurveyNetAct :=
  [.join, .survey ⟨[0, 0, 0, 2], [9]⟩, .sent true, .poll .nothing, .deadline, .receive 0,
    .respond 0 ⟨[], [7]⟩ true, .survey ⟨[], [8]⟩, .sent true, .poll .message]

theorem survey_answer_crossed_by_header :
    ¬ ∀ (acts : List SurveyNetAct) (s : SurveyNet),
      run SurveyNet.step .start acts = some s → s.count < 2 ^ 32 - 1 → AnswersBelong s := by
  intro h
  have hcrossed := h foreignHeader _ rfl (by decide)
  obtain ⟨c, hc, hmem⟩ :=
    hcrossed.belong (2, [(0, ⟨[], [7]⟩)]) (by decide) (0, ⟨[], [7]⟩) (by decide)
  cases hc
  exact absurd hmem (by decide)

end NngCore.Proofs
