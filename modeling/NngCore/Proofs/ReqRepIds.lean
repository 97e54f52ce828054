import NngCore.Spec.ReqRep

/-!
# Which requests are correlated

The `k`-th request of a socket is numbered `(k - 1) % (2 ^ 32 - 1) + 1`: the
counter runs through all 32-bit values but zero. On its way out and back a
number loses its high bit and nothing else, so the requester compares the low
31 bits of the number it was sent with all 32 bits of the number it kept. For
the first half of the values the two are the same and the comparison tells any
two close requests apart; in the second half a request never matches its own
reply.
-/

namespace NngCore.Proofs

open NngCore.Lib NngCore.Ref NngCore.Spec

/-! ## The numbers -/

/-- The ID of the request issued after `n` others. -/
def idAfter (n : Nat) : Nat := n % (2 ^ 32 - 1) + 1

theorem toNat_max_one (x : UInt32) : (max x 1).toNat = if x.toNat = 0 then 1 else x.toNat := by
  show (if x ≤ 1 then 1 else x).toNat = _
  have hle : x ≤ 1 ↔ x.toNat ≤ 1 := UInt32.le_iff_toNat_le
  split
  · next h =>
      have h1 := hle.mp h
      have hone : (1 : UInt32).toNat = 1 := rfl
      rw [hone]
      split <;> omega
  · next h =>
      have h1 := mt hle.mpr h
      rw [if_neg (by omega)]

theorem nextId_step {x : UInt32} {n : Nat} (h : x.toNat = idAfter n) :
    (max (x + 1) 1).toNat = idAfter (n + 1) := by
  rw [toNat_max_one, UInt32.toNat_add]
  simp only [idAfter] at h ⊢
  have hone : (1 : UInt32).toNat = 1 := rfl
  rw [hone, h]
  split <;> omega

/-- The high bit goes on for the wire and off again behind it. -/
theorem mask_mark (id : UInt32) :
    ((id ||| 0x80000000) &&& 0x7fffffff).toNat = id.toNat % 2 ^ 31 := by
  have hbits : (id ||| 0x80000000) &&& 0x7fffffff = id &&& 0x7fffffff := by
    apply UInt32.toBitVec_inj.mp
    rw [UInt32.toBitVec_and, UInt32.toBitVec_or, UInt32.toBitVec_and,
      BitVec.and_or_distrib_right]
    simp
  rw [hbits, UInt32.toNat_and]
  exact Nat.and_two_pow_sub_one_eq_mod id.toNat 31

/-! ## The log -/

/-- What the log of a requester holds after `msgs`. -/
structure Logged (msgs : List Message) (l : ReqLog) : Prop where
  next : l.state.nextId.toNat = idAfter msgs.length
  length : l.issued.length = msgs.length
  entry : ∀ n id out, l.issued[n]? = some (id, out) → id.toNat = idAfter n ∧
    ∃ m ∈ msgs, out = m.headerPushBack (u32ToBeBytes (id ||| 0x80000000))

theorem logged_start : Logged [] .start where
  next := rfl
  length := rfl
  entry n id out h := by cases h

theorem Logged.step {msgs : List Message} {l l' : ReqLog} {m : Message}
    (h : Logged msgs l) (hstep : l.step m = some l') : Logged (msgs ++ [m]) l' := by
  simp only [ReqLog.step, prepareOutgoing_message] at hstep
  cases hstep
  refine ⟨?_, ?_, ?_⟩
  · rw [List.length_append, List.length_singleton]
    exact nextId_step h.next
  · rw [List.length_append, List.length_append, h.length]
    rfl
  · intro n id out hn
    rcases Nat.lt_trichotomy n l.issued.length with hlt | rfl | hgt
    · rw [List.getElem?_append_left hlt] at hn
      obtain ⟨hid, m', hm', hout⟩ := h.entry n id out hn
      exact ⟨hid, m', List.mem_append_left _ hm', hout⟩
    · rw [List.getElem?_append_right (Nat.le_refl _), Nat.sub_self] at hn
      cases hn
      refine ⟨?_, m, List.mem_append_right _ (List.mem_singleton_self m), rfl⟩
      rw [h.next, h.length]
    · rw [List.getElem?_eq_none
        (by simp only [List.length_append, List.length_singleton]; omega)]
        at hn
      cases hn

theorem logged_run {msgs : List Message} {l : ReqLog}
    (hrun : run ReqLog.step .start msgs = some l) : Logged msgs l :=
  run_induction (I := Logged) logged_start (fun _ _ _ _ h hstep => h.step hstep) hrun

/-- `prepare_outgoing` never fails on the heap message. -/
theorem reqLog_runs (msgs : List Message) (l : ReqLog) :
    ∃ l', run ReqLog.step l msgs = some l' := by
  induction msgs generalizing l with
  | nil => exact ⟨l, rfl⟩
  | cons m msgs ih =>
      obtain ⟨l', hl'⟩ := ih ⟨⟨max (l.state.nextId + 1) 1⟩, l.issued ++
        [(l.state.nextId, m.headerPushBack (u32ToBeBytes (l.state.nextId ||| 0x80000000)))]⟩
      exact ⟨l', run_cons.mpr ⟨_, rfl, hl'⟩⟩

/-! ## There and back -/

theorem received_stamped {m : Message} {stamp : List UInt8} (h : m.header = []) :
    (m.headerPushBack stamp).received = Message.fromParts [] (stamp ++ m.body) := by
  rw [Message.received, Message.payload, Message.headerPushBack, h]
  rfl

/-- The replier sends back the ID bytes it was sent. -/
theorem answered_stamped {m reply : Message} (wireId : UInt32) (hm : m.header = []) :
    answered (m.headerPushBack (u32ToBeBytes wireId)) reply =
      some (reply.headerPushBack (u32ToBeBytes wireId)) := by
  have h4 := length_u32ToBeBytes wireId
  have htake : (u32ToBeBytes wireId ++ m.body).take 4 = u32ToBeBytes wireId := by
    rw [← h4, List.take_left]
  have hlong : ¬ (u32ToBeBytes wireId ++ m.body).length < 4 := by
    rw [List.length_append]
    omega
  rw [answered, received_stamped hm, rep_processIncoming_message]
  simp only [Message.fromParts, dif_neg hlong, Rep0State.prepareReply,
    MessageBuf.headerPushBack, Vector.toList_mk, htake]

/-- What the requester makes of the reply to a request numbered `id`: the low
31 bits of `id` decide. -/
theorem correlate {m : Message} (reply : Message) (s : Req0State) (id sentId : UInt32)
    (hm : m.header = []) (hr : reply.header = []) :
    ∃ wire res, answered (m.headerPushBack (u32ToBeBytes (id ||| 0x80000000))) reply =
        some wire ∧
      s.processIncoming wire.received sentId = some (res, Message.fromParts [] reply.body) ∧
      (res = .ok () ↔ id.toNat % 2 ^ 31 = sentId.toNat) := by
  have hiff : (id ||| 0x80000000) &&& 0x7fffffff = sentId ↔
      id.toNat % 2 ^ 31 = sentId.toNat := by
    rw [← UInt32.toNat_inj, mask_mark]
  refine ⟨_, if (id ||| 0x80000000) &&& 0x7fffffff ≠ sentId then
      .error (.idMismatch ((id ||| 0x80000000) &&& 0x7fffffff) sentId) else .ok (),
    answered_stamped _ hm, ?_, ?_⟩
  · rw [received_stamped hr, req_processIncoming_stamped]
    split <;> rfl
  · rw [← hiff]
    split
    · next hne => exact ⟨nofun, fun h => absurd h hne⟩
    · next heq => exact ⟨fun _ => Decidable.not_not.mp heq, fun _ => rfl⟩

/-! ## The condition -/

/-- In the first half of the counter, close requests have different low bits. -/
theorem low_bits_inj {k j : Nat} (hk : 1 ≤ k) (hj : 1 ≤ j) (hclose : Close k j)
    (hlow : idAfter (k - 1) < 2 ^ 31) :
    idAfter (j - 1) % 2 ^ 31 = idAfter (k - 1) ↔ j = k := by
  obtain ⟨h1, h2⟩ := hclose
  simp only [idAfter] at hlow ⊢
  constructor
  · intro h
    -- how often the counter went round decides how far apart the requests are
    have hround : (j - 1) / (2 ^ 32 - 1) < (k - 1) / (2 ^ 32 - 1) ∨
        (j - 1) / (2 ^ 32 - 1) = (k - 1) / (2 ^ 32 - 1) ∨
        (k - 1) / (2 ^ 32 - 1) < (j - 1) / (2 ^ 32 - 1) := Nat.lt_trichotomy _ _
    have hhalf : (j - 1) % (2 ^ 32 - 1) + 1 < 2 ^ 31 ∨
        2 ^ 31 ≤ (j - 1) % (2 ^ 32 - 1) + 1 := Nat.lt_or_ge _ _
    rcases hhalf with hlo | hhi
    · rw [Nat.mod_eq_of_lt hlo] at h
      rcases hround with hr | hr | hr <;> omega
    · have hsub : ((j - 1) % (2 ^ 32 - 1) + 1) % 2 ^ 31 =
          (j - 1) % (2 ^ 32 - 1) + 1 - 2 ^ 31 := by omega
      rw [hsub] at h
      rcases hround with hr | hr | hr <;> omega
  · intro h
    rw [h]
    exact Nat.mod_eq_of_lt hlow

theorem correlates_of_low {k : Nat} (hk : 1 ≤ k) (hlow : idAfter (k - 1) < 2 ^ 31) :
    Correlates k := by
  intro msgs l reply j sentId id waiting request hmsgs hreply hrun hj hclose hwait hreq
  have hlog := logged_run hrun
  obtain ⟨hsent, _⟩ := hlog.entry _ _ _ hwait
  obtain ⟨hid, m, hm, rfl⟩ := hlog.entry _ _ _ hreq
  obtain ⟨wire, res, hwire, hproc, hok⟩ :=
    correlate reply l.state id sentId (hmsgs m hm) hreply
  refine ⟨wire, res, _, hwire, hproc, ?_, fun _ => rfl⟩
  rw [hok, hid, hsent]
  exact low_bits_inj hk hj hclose hlow

/-- In the second half a request does not match its own reply. -/
theorem not_correlates_of_high {k : Nat} (hk : 1 ≤ k)
    (hhigh : 2 ^ 31 ≤ idAfter (k - 1)) : ¬ Correlates k := by
  intro h
  obtain ⟨l, hrun⟩ := reqLog_runs (List.replicate k Message.new) .start
  have hlog := logged_run hrun
  have hempty : ∀ m ∈ List.replicate k Message.new, m.header = [] := by
    intro m hm
    rw [List.eq_of_mem_replicate hm]
    rfl
  have hlt : k - 1 < l.issued.length := by
    rw [hlog.length, List.length_replicate]
    omega
  have hentry : l.issued[k - 1]? = some (l.issued[k - 1].1, l.issued[k - 1].2) :=
    List.getElem?_eq_getElem hlt
  obtain ⟨hid, m, hm, hout⟩ := hlog.entry _ _ _ hentry
  obtain ⟨wire, res, msg, hwire, hproc, hok, _⟩ := h _ l Message.new k _ _ _ _ hempty rfl
    hrun hk ⟨by omega, by omega⟩ hentry hentry
  obtain ⟨wire', res', hwire', hproc', hok'⟩ :=
    correlate Message.new l.state l.issued[k - 1].1 l.issued[k - 1].1
      (hempty m hm) rfl
  rw [hout, hwire'] at hwire
  cases hwire
  rw [hproc'] at hproc
  cases hproc
  have hself := hok'.mp (hok.mpr rfl)
  have hlt31 : l.issued[k - 1].1.toNat % 2 ^ 31 < 2 ^ 31 := Nat.mod_lt _ (by decide)
  omega

/-- A request is correlated exactly when its number fits 31 bits. -/
theorem correlates_iff (k : Nat) (hk : 1 ≤ k) :
    Correlates k ↔ (k - 1) % (2 ^ 32 - 1) + 1 < 2 ^ 31 := by
  constructor
  · intro h
    by_contra hge
    exact not_correlates_of_high hk (Nat.le_of_not_lt hge) h
  · intro h
    exact correlates_of_low hk h

theorem correlates_iff_first : Correlates 1 :=
  (correlates_iff 1 (Nat.le_refl 1)).mpr (by decide)

/-- Request number `2 ^ 31` is answered by its own reply and does not take it. -/
theorem own_reply_rejected : ¬ Correlates 2147483648 :=
  not_correlates_of_high (by decide) (by decide)

end NngCore.Proofs
