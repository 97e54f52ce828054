import NngCore.Proofs.Send
import NngCore.Spec.TowerSvc

/-!
# The line in front of the socket

The first in line has the socket to itself until it is done: every step of a
service is a step of that one future's request, or none of the socket's at all.
So a run of the service is a run of the socket, cut where the lock was handed
on, and all that is left is to see that the line is what it should be.
-/

namespace NngCore.Proofs

open NngCore.Lib NngCore.Ref NngCore.Spec

/-! ## One step of a request -/

/-- A piece of a request has run from `s` to `t`: it goes on, or it is over and has
returned or panicked. -/
structure Ran (s t : Req0) : Prop where
  ends : (t.live ≠ none ∧ t.returned = s.returned) ∨
    (t.live = none ∧ (t.returned = s.returned ∨ ∃ r, t.returned = s.returned ++ [r]))
  resendTime : t.resendTime = s.resendTime
  reconnect : t.reconnect = s.reconnect

theorem ran_await (s : Req0) (c : Call) (p : Phase) : Ran s (s.await c p) :=
  ⟨Or.inl ⟨nofun, rfl⟩, rfl, rfl⟩

theorem ran_finish (s : Req0) (r : Except NngError Message) : Ran s (s.finish r) :=
  ⟨Or.inr ⟨rfl, Or.inr ⟨r, rfl⟩⟩, rfl, rfl⟩

theorem ran_die (s : Req0) : Ran s s.die := ⟨Or.inr ⟨rfl, Or.inl rfl⟩, rfl, rfl⟩

theorem ran_rawFailed (s : Req0) (c : Call) (op : RawOp) (retry : Bool) (e : NngError) :
    Ran s (s.rawFailed c op retry e) := by
  unfold Req0.rawFailed
  split
  · exact ran_await s c _
  · exact ran_finish s _

theorem ran_settleSend (s : Req0) (c : Call) (retry : Bool) (p : SendPoll) :
    Ran s (s.settleSend c retry p) := by
  match p with
  | .pending fut => exact ran_await s c _
  | .ready (.ok ()) => exact ran_await s c _
  | .ready (.error e) => exact ran_rawFailed s c _ _ _

theorem ran_settleRecv (s : Req0) (c : Call) (retry : Bool)
    (r : Except TransportError Message) :
    Ran s (s.settleRecv c retry r) := by
  unfold Req0.settleRecv
  split
  · exact ran_rawFailed s c _ _ _
  · split
    · exact ran_die s
    · exact ran_finish s _
    · exact ran_await s c _
    · exact ran_finish s _

theorem ran_written {s t : Req0} {c : Call} {fut : SendFut} {retry : Bool} {r : WriteResult}
    (h : s.written c fut retry r = some t) : Ran s t := by
  unfold Req0.written at h
  split at h
  · split at h
    · cases h
      obtain ⟨hends, hresend, hrec⟩ := ran_settleSend (({ s with
        conn := s.conn.write _ }).tear _) c retry (fut.resume _)
      exact ⟨hends, hresend, hrec⟩
    · cases h
  · cases h
    obtain ⟨hends, hresend, hrec⟩ := ran_settleSend (s.tear _) c retry (fut.resume _)
    exact ⟨hends, hresend, hrec⟩

theorem ran_dialDone {s t : Req0} {c : Call} {op : RawOp} {cause : NngError} {r : Redial}
    {ok : Bool} (h : s.dialDone c op cause r ok = some t) : Ran s t := by
  cases ok with
  | true =>
      cases op with
      | send =>
          cases h
          obtain ⟨hends, hresend, hrec⟩ := ran_settleSend { s with conn := .fresh } c true _
          exact ⟨hends, hresend, hrec⟩
      | recv =>
          cases h
          exact ⟨Or.inl ⟨nofun, rfl⟩, rfl, rfl⟩
  | false =>
      simp only [Req0.dialDone] at h
      split at h
      · cases h
      · split at h
        · cases h
          exact ran_await s c _
        · cases h
          exact ran_finish s _
        · cases h
          exact ran_die s

/-- A step of the runtime. -/
theorem ran_io {s t : Req0} {a : Req0Act} (ha : a.isIo = true) (h : s.step a = some t) :
    Ran s t := by
  unfold Req0.step at h
  split at h
  · cases ha
  · cases ha
  · cases h
  · split at h
    · exact ran_written h
    · cases h
  · split at h
    · cases h
      exact ran_settleRecv s _ _ _
    · cases h
  · split at h
    · split at h
      · cases h
      · cases h
        exact ran_await s _ _
    · cases h
  · split at h
    · split at h
      · exact ran_dialDone h
      · cases h
    · cases h
  · split at h
    · cases h
    · split at h
      · cases h
        exact ran_settleSend s _ _ _
      · cases h
        exact ran_settleSend s _ _ _
      · cases h
  · cases ha
  · cases ha

theorem ran_call {s t : Req0} {msg : Message} (h : s.step (.call msg) = some t) :
    s.live = none ∧ Ran s t := by
  have h' : s.call msg = some t := h
  unfold Req0.call at h'
  split at h'
  · cases h'
  · next hlive =>
      split at h'
      · cases h'
      · split at h'
        · cases h'
          exact ⟨hlive, ran_die s⟩
        · next id outgoing st _ =>
            cases h'
            obtain ⟨hends, hresend, hrec⟩ := ran_settleSend { s with
              state := st
              conn := { s.conn with since := [] }
              issued := s.issued ++ [outgoing] } ⟨outgoing, id, .recv false⟩ false
              (sendStart s.fmt outgoing)
            exact ⟨hlive, hends, hresend, hrec⟩

theorem ran_drop {s t : Req0} (h : s.step .drop = some t) :
    t.live = none ∧ t.returned = s.returned ∧ t.resendTime = s.resendTime ∧
      t.reconnect = s.reconnect := by
  cases hlive : s.live with
  | none =>
      simp only [Req0.step, hlive] at h
      cases h
  | some c =>
      simp only [Req0.step, hlive] at h
      split at h
      · cases h
        exact ⟨rfl, rfl, rfl, rfl⟩
      · cases h
        exact ⟨rfl, rfl, rfl, rfl⟩

/-! ## Where a request has come to -/

/-- The phase of a future whose request has run from `s` to `t`. -/
inductive ComesTo (s t : Req0) : SvcPhase → Prop
  | requesting (hlive : t.live ≠ none) (hsame : t.returned = s.returned) :
      ComesTo s t .requesting
  | done {r : Except NngError Message} (hlive : t.live = none)
      (hreturned : t.returned = s.returned ++ [r]) : ComesTo s t (.done r)
  | panicked (hlive : t.live = none) (hsame : t.returned = s.returned) : ComesTo s t .panicked

/-- The service once the future has come to `p`. -/
def cameTo (s : Req0Service) (i : Nat) (f : SvcFuture) (p : SvcPhase) : Req0Service :=
  if active p then s.setPhase i f p else s.release i f p

theorem settle_cameTo {s : Req0Service} {u : Req0} (h : Ran s.inner u) (i : Nat)
    (f : SvcFuture) :
    ∃ p, ComesTo s.inner u p ∧ s.settle i f u = cameTo { s with inner := u } i f p := by
  rcases h.ends with ⟨hlive, hsame⟩ | ⟨hlive, hsame | ⟨r, hreturned⟩⟩
  · obtain ⟨c, hc⟩ := Option.ne_none_iff_exists'.mp hlive
    refine ⟨.requesting, .requesting hlive hsame, ?_⟩
    simp only [Req0Service.settle, hc]
    rfl
  · refine ⟨.panicked, .panicked hlive hsame, ?_⟩
    have hnone : u.returned[s.inner.returned.length]? = none := by
      rw [hsame]
      exact List.getElem?_eq_none (Nat.le_refl _)
    simp only [Req0Service.settle, hlive, hnone]
    rfl
  · refine ⟨.done r, .done hlive hreturned, ?_⟩
    have hsome : u.returned[s.inner.returned.length]? = some r := by
      rw [hreturned, List.getElem?_append_right (Nat.le_refl _), Nat.sub_self]
      rfl
    simp only [Req0Service.settle, hlive, hsome]
    rfl

theorem turn_of_comesTo {msg : Message} {s t u : Req0} {p : SvcPhase} {ios : List Req0Act}
    (idle : s.live = none) (hio : ∀ a ∈ ios, a.isIo = true)
    (hrun : run Req0.step s (.call msg :: ios) = some u) (hsame : t.returned = s.returned)
    (h : ComesTo t u p) : Turn msg s u p := by
  cases h with
  | requesting hlive hret => exact .requesting idle hio hrun hlive (hret.trans hsame)
  | done hlive hret => exact .done idle hio hrun hlive (by rw [hret, hsame])
  | panicked hlive hret => exact .panicked idle hio hrun hlive (hret.trans hsame)

/-- A step of the runtime takes the request on. -/
theorem turn_onward {msg : Message} {s t u : Req0} {a : Req0Act} {p : SvcPhase}
    (h : Turn msg s t .requesting) (ha : a.isIo = true) (hstep : t.step a = some u)
    (hp : ComesTo t u p) : Turn msg s u p := by
  cases h with
  | @requesting ios idle hio hrun hlive hsame =>
      have hrun' : run Req0.step s (.call msg :: (ios ++ [a])) = some u := by
        rw [← List.cons_append]
        exact run_append.mpr ⟨t, hrun, run_singleton.mpr hstep⟩
      exact turn_of_comesTo idle (forall_mem_concat hio ha) hrun' hsame hp

theorem turn_dropped {msg : Message} {s t u : Req0} (h : Turn msg s t .requesting)
    (hstep : t.step .drop = some u) : Turn msg s u .dropped := by
  obtain ⟨hnone, hret, -⟩ := ran_drop hstep
  cases h with
  | requesting idle hio hrun hlive hsame =>
      exact .dropped idle hio (run_append.mpr ⟨t, hrun, run_singleton.mpr hstep⟩) hnone
        (hret.trans hsame)

theorem serial_last {start t : Req0} {turns : List SvcFuture} {f : SvcFuture}
    (h : Serial start (turns ++ [f]) t) :
    ∃ s, Serial start turns s ∧ Turn f.msg s t f.phase := by
  generalize hl : turns ++ [f] = l at h
  cases h with
  | nil => exact absurd hl (List.append_ne_nil_of_right_ne_nil _ (List.cons_ne_nil _ _))
  | @next turns' s _ f' h hturn =>
      obtain ⟨rfl, hf⟩ := List.append_inj' hl rfl
      cases hf
      exact ⟨s, h, hturn⟩

/-! ## The line -/

def waitingIn (s : Req0Service) (i : Nat) : Bool :=
  match s.futures[i]? with
  | none => false
  | some f => f.phase = .waiting

structure SvcInv (start : Req0) (s : Req0Service) : Prop where
  serial : ∃ turns, s.entered.map (s.futures[·]?) = turns.map some ∧ Serial start turns s.inner
  idle : (∀ (i : Nat) (f : SvcFuture), s.futures[i]? = some f → f.phase ≠ .requesting) →
    s.inner.live = none
  order : (s.entered ++ s.lock.line.filter (waitingIn s)).Sublist s.arrived
  once : s.arrived.Nodup
  line : s.lock.line = s.arrived.filter (activeIn s)
  front : ∀ (i : Nat) (f : SvcFuture), s.futures[i]? = some f → f.phase = .requesting →
    s.lock.holder = some i
  last : ∀ (i : Nat) (f : SvcFuture), s.futures[i]? = some f → f.phase = .requesting →
    ∃ xs, s.entered = xs ++ [i]
  asked : ∀ (i : Nat) (f : SvcFuture), s.futures[i]? = some f → active f.phase = true →
    i ∈ s.arrived
  fresh : ∀ (i : Nat) (f : SvcFuture), s.futures[i]? = some f → f.phase = .created →
    i ∉ s.arrived
  known : ∀ i ∈ s.arrived, i < s.futures.length
  settings : s.inner.resendTime = start.resendTime ∧ s.inner.reconnect = start.reconnect

theorem SvcInv.serialised {start : Req0} {s : Req0Service} (h : SvcInv start s) :
    Serialised start s where
  serial := h.serial
  order := (List.sublist_append_left _ _).trans h.order
  once := h.once
  line := h.line
  front := h.front
  busy hlive := by
    by_contra hnone
    refine hlive (h.idle fun i f hi hreq => hnone ⟨i, f, h.front i f hi hreq, hi, hreq⟩)
  settings := h.settings

theorem svcInv_new {req0 : Req0} (h : req0.live = none) : SvcInv req0 (.new req0) where
  serial := ⟨[], rfl, .nil⟩
  idle _ := h
  order := .slnil
  once := List.nodup_nil
  line := rfl
  front := nofun
  last := nofun
  asked := nofun
  fresh := nofun
  known := fun _ hi => absurd hi List.not_mem_nil
  settings := ⟨rfl, rfl⟩

/-! One future, `i`, changes its phase. -/

section Change

variable {s : Req0Service} {i : Nat} {f : SvcFuture} (hi : s.futures[i]? = some f)
    (p : SvcPhase)

theorem getElem?_setPhase_cases {j : Nat} {g : SvcFuture}
    (h : (s.setPhase i f p).futures[j]? = some g) :
    (i = j ∧ g = { f with phase := p }) ∨ (i ≠ j ∧ s.futures[j]? = some g) := by
  have h' : (s.futures.set i { f with phase := p })[j]? = some g := h
  rw [List.getElem?_set] at h'
  split at h'
  · next heq =>
      split at h'
      · exact Or.inl ⟨heq, (Option.some.inj h').symm⟩
      · cases h'
  · next hne => exact Or.inr ⟨hne, h'⟩

include hi in
theorem getElem?_setPhase_self :
    (s.setPhase i f p).futures[i]? = some { f with phase := p } :=
  List.getElem?_set_self (List.getElem?_eq_some_iff.mp hi).1

theorem getElem?_setPhase_ne {j : Nat} (hne : i ≠ j) :
    (s.setPhase i f p).futures[j]? = s.futures[j]? := List.getElem?_set_ne hne

theorem activeIn_setPhase_ne {j : Nat} (hne : i ≠ j) :
    activeIn (s.setPhase i f p) j = activeIn s j := by
  rw [activeIn, activeIn, getElem?_setPhase_ne p hne]

theorem waitingIn_setPhase_ne {j : Nat} (hne : i ≠ j) :
    waitingIn (s.setPhase i f p) j = waitingIn s j := by
  rw [waitingIn, waitingIn, getElem?_setPhase_ne p hne]

include hi in
theorem activeIn_setPhase_self : activeIn (s.setPhase i f p) i = active p := by
  rw [activeIn, getElem?_setPhase_self hi p]

include hi in
theorem waitingIn_setPhase_self : waitingIn (s.setPhase i f p) i = decide (p = .waiting) := by
  rw [waitingIn, getElem?_setPhase_self hi p]

include hi in
/-- A future that stays in line. -/
theorem filter_activeIn_stays (hold : active f.phase = true) (hnew : active p = true)
    (l : List Nat) : l.filter (activeIn (s.setPhase i f p)) = l.filter (activeIn s) := by
  refine List.filter_congr fun j _ => ?_
  by_cases hij : i = j
  · subst hij
    rw [activeIn_setPhase_self hi p, hnew, activeIn, hi]
    exact hold.symm
  · rw [activeIn_setPhase_ne p hij]

include hi in
/-- A future that leaves the line. -/
theorem filter_activeIn_leaves (hnew : active p = false) (l : List Nat) :
    l.filter (activeIn (s.setPhase i f p)) = (l.filter (activeIn s)).filter (· ≠ i) := by
  rw [List.filter_filter]
  refine List.filter_congr fun j _ => ?_
  by_cases hij : i = j
  · subst hij
    rw [activeIn_setPhase_self hi p, hnew]
    simp
  · rw [activeIn_setPhase_ne p hij]
    simp [Ne.symm hij]

include hi in
/-- A future that does not wait, or waits no more. -/
theorem filter_waitingIn_set (hnew : p ≠ .waiting) (l : List Nat) :
    l.filter (waitingIn (s.setPhase i f p)) =
      (l.filter (· ≠ i)).filter (waitingIn s) := by
  rw [List.filter_filter]
  refine List.filter_congr fun j _ => ?_
  by_cases hij : i = j
  · subst hij
    rw [waitingIn_setPhase_self hi p, decide_eq_false hnew]
    simp
  · rw [waitingIn_setPhase_ne p hij]
    simp [Ne.symm hij]

theorem filter_activeIn_absent {l : List Nat} (hnot : i ∉ l) :
    l.filter (activeIn (s.setPhase i f p)) = l.filter (activeIn s) :=
  List.filter_congr fun _ hj => activeIn_setPhase_ne p fun heq => hnot (heq ▸ hj)

theorem filter_waitingIn_absent {l : List Nat} (hnot : i ∉ l) :
    l.filter (waitingIn (s.setPhase i f p)) = l.filter (waitingIn s) :=
  List.filter_congr fun _ hj => waitingIn_setPhase_ne p fun heq => hnot (heq ▸ hj)

end Change

/-! ## The first in line -/

theorem turn_phase {msg : Message} {s t : Req0} {p : SvcPhase} (h : Turn msg s t p) :
    p ≠ .created ∧ p ≠ .waiting ∧ (active p = true → p = .requesting) ∧
      (p ≠ .requesting → t.live = none) := by
  cases h with
  | requesting idle hio hrun hlive hsame =>
      exact ⟨nofun, nofun, fun _ => rfl, fun h => absurd rfl h⟩
  | done idle hio hrun hlive hret => exact ⟨nofun, nofun, nofun, fun _ => hlive⟩
  | panicked idle hio hrun hlive hsame => exact ⟨nofun, nofun, nofun, fun _ => hlive⟩
  | dropped idle hio hrun hlive hsame => exact ⟨nofun, nofun, nofun, fun _ => hlive⟩

section Front

variable {start : Req0} {s : Req0Service} {i : Nat} {f : SvcFuture}

/-- Nobody else has a request running. -/
theorem SvcInv.alone (h : SvcInv start s) (hholder : s.lock.holder = some i) {j : Nat}
    {g : SvcFuture} (hj : s.futures[j]? = some g) (hne : i ≠ j) : g.phase ≠ .requesting := by
  intro hreq
  have hfront := h.front j g hj hreq
  rw [hholder] at hfront
  exact hne (Option.some.inj hfront)

/-- The first in line has come to `p`, and the line to `lock`. -/
theorem SvcInv.cameTo_lock (h : SvcInv start s) (hi : s.futures[i]? = some f)
    (hactive : active f.phase = true) (hholder : s.lock.holder = some i) {xs : List Nat}
    {turns : List SvcFuture} {t u : Req0} {p : SvcPhase}
    (hxs : xs.map (s.futures[·]?) = turns.map some) (hserial : Serial start turns t)
    (hturn : Turn f.msg t u p) (hnot : i ∉ xs)
    (horder :
      (xs ++ [i] ++ (s.lock.line.filter (· ≠ i)).filter (waitingIn s)).Sublist s.arrived)
    (hset : u.resendTime = start.resendTime ∧ u.reconnect = start.reconnect)
    (lock : FairLock Nat) (hline : lock.line = s.arrived.filter (activeIn (s.setPhase i f p)))
    (hwait : lock.line.filter (waitingIn (s.setPhase i f p)) =
      (s.lock.line.filter (· ≠ i)).filter (waitingIn s))
    (hkept : p = .requesting → lock = s.lock) :
    SvcInv start { s.setPhase i f p with inner := u, entered := xs ++ [i], lock := lock } := by
  obtain ⟨hcreated, -, hphase, hended⟩ := turn_phase hturn
  refine ⟨⟨turns ++ [{ f with phase := p }], ?_, .next hserial hturn⟩, ?_, ?_, h.once, hline,
    ?_, ?_, ?_, ?_, ?_, hset⟩
  · rw [List.map_append, List.map_append, ← hxs]
    refine congrArg₂ (· ++ ·) (List.map_congr_left fun j hj => ?_) ?_
    · exact getElem?_setPhase_ne p fun heq => hnot (heq ▸ hj)
    · show [(s.setPhase i f p).futures[i]?] = _
      rw [getElem?_setPhase_self hi p]
      rfl
  · intro hnone
    exact hended (hnone i _ (getElem?_setPhase_self hi p))
  · show (xs ++ [i] ++ lock.line.filter (waitingIn (s.setPhase i f p))).Sublist s.arrived
    rw [hwait]
    exact horder
  · intro j g hj hreq
    rcases getElem?_setPhase_cases p hj with ⟨rfl, rfl⟩ | ⟨hne, hold⟩
    · rw [hkept hreq]
      exact hholder
    · exact absurd hreq (h.alone hholder hold hne)
  · intro j g hj hreq
    rcases getElem?_setPhase_cases p hj with ⟨rfl, rfl⟩ | ⟨hne, hold⟩
    · exact ⟨xs, rfl⟩
    · exact absurd hreq (h.alone hholder hold hne)
  · intro j g hj hact
    rcases getElem?_setPhase_cases p hj with ⟨rfl, rfl⟩ | ⟨hne, hold⟩
    · exact h.asked i f hi hactive
    · exact h.asked j g hold hact
  · intro j g hj hnew
    rcases getElem?_setPhase_cases p hj with ⟨rfl, rfl⟩ | ⟨hne, hold⟩
    · exact absurd hnew hcreated
    · exact h.fresh j g hold hnew
  · intro j hj
    show j < (s.futures.set i _).length
    rw [List.length_set]
    exact h.known j hj

theorem SvcInv.cameTo (h : SvcInv start s) (hi : s.futures[i]? = some f)
    (hactive : active f.phase = true) (hholder : s.lock.holder = some i) {xs : List Nat}
    {turns : List SvcFuture} {t u : Req0} {p : SvcPhase}
    (hxs : xs.map (s.futures[·]?) = turns.map some) (hserial : Serial start turns t)
    (hturn : Turn f.msg t u p) (hnot : i ∉ xs)
    (horder :
      (xs ++ [i] ++ (s.lock.line.filter (· ≠ i)).filter (waitingIn s)).Sublist s.arrived)
    (hset : u.resendTime = start.resendTime ∧ u.reconnect = start.reconnect) :
    SvcInv start (Proofs.cameTo { s with inner := u, entered := xs ++ [i] } i f p) := by
  obtain ⟨-, hnowait, hphase, -⟩ := turn_phase hturn
  unfold Proofs.cameTo
  split
  · next hact =>
      refine h.cameTo_lock hi hactive hholder hxs hserial hturn hnot horder hset _ ?_
        (filter_waitingIn_set hi p hnowait _) fun _ => rfl
      rw [filter_activeIn_stays hi p hactive hact]
      exact h.line
  · next hact =>
      have hout : active p = false := Bool.eq_false_of_not_eq_true hact
      refine h.cameTo_lock hi hactive hholder hxs hserial hturn hnot horder hset
        (s.lock.leave i) ?_ ?_ fun hreq => absurd (hreq ▸ rfl) hact
      · rw [FairLock.line_leave, h.line, filter_activeIn_leaves hi p hout]
      · have htwice : (s.lock.line.filter (· ≠ i)).filter (· ≠ i) =
          s.lock.line.filter (· ≠ i) := by
          rw [List.filter_filter]
          simp
        rw [FairLock.line_leave, filter_waitingIn_set hi p hnowait, htwice]

/-- The first in line, whose turn it is. -/
theorem SvcInv.line_cons (h : SvcInv start s) (hholder : s.lock.holder = some i) :
    ∃ rest, s.lock.line = i :: rest ∧ s.lock.line.filter (· ≠ i) = rest := by
  rw [FairLock.holder_eq_head?] at hholder
  obtain ⟨rest, hline⟩ := List.head?_eq_some_iff.mp hholder
  refine ⟨rest, hline, ?_⟩
  have hnodup : s.lock.line.Nodup := h.line ▸ h.once.filter _
  rw [hline] at hnodup ⊢
  have hnot : i ∉ rest := (List.nodup_cons.mp hnodup).1
  rw [List.filter_cons_of_neg (by simp)]
  exact List.filter_eq_self.mpr fun j hj => by
    have hne : j ≠ i := fun heq => hnot (heq ▸ hj)
    simpa using hne

theorem SvcInv.enter {s' : Req0Service} (h : SvcInv start s) (hi : s.futures[i]? = some f)
    (hphase : f.phase = .waiting) (hholder : s.lock.holder = some i)
    (hstep : s.enter i f = some s') : SvcInv start s' := by
  obtain ⟨u, hu, rfl⟩ := Option.map_eq_some_iff.mp hstep
  obtain ⟨hlive, hran⟩ := ran_call hu
  obtain ⟨p, hp, heq⟩ := settle_cameTo (s := { s with entered := s.entered ++ [i] }) hran i f
  rw [heq]
  obtain ⟨turns, hturns, hserial⟩ := h.serial
  obtain ⟨rest, hline, hrest⟩ := h.line_cons hholder
  have hturn : Turn f.msg s.inner u p :=
    turn_of_comesTo hlive (fun _ ha => absurd ha List.not_mem_nil)
      (run_singleton.mpr hu) rfl hp
  have hwaiting : waitingIn s i = true := by
    rw [waitingIn, hi]
    exact decide_eq_true hphase
  have horder := h.order
  rw [hline, List.filter_cons_of_pos hwaiting] at horder
  have hnot : i ∉ s.entered := by
    have hnodup := horder.nodup h.once
    exact fun hmem => (List.disjoint_of_nodup_append hnodup) hmem List.mem_cons_self
  refine h.cameTo hi (by rw [hphase]; rfl) hholder hturns hserial hturn hnot ?_
    ⟨hran.resendTime.trans h.settings.1, hran.reconnect.trans h.settings.2⟩
  rw [hrest, List.append_assoc]
  exact horder

/-- The request that is running, and the requests before it. -/
theorem SvcInv.running (h : SvcInv start s) (hi : s.futures[i]? = some f)
    (hphase : f.phase = .requesting) :
    ∃ xs turns t, s.entered = xs ++ [i] ∧ xs.map (s.futures[·]?) = turns.map some ∧
      Serial start turns t ∧ Turn f.msg t s.inner .requesting ∧ i ∉ xs ∧
      (xs ++ [i] ++ (s.lock.line.filter (· ≠ i)).filter (waitingIn s)).Sublist s.arrived := by
  obtain ⟨turns, hturns, hserial⟩ := h.serial
  obtain ⟨xs, hxs⟩ := h.last i f hi hphase
  have horder := h.order
  rw [hxs] at horder hturns
  rw [List.map_append] at hturns
  obtain ⟨turns', last, rfl, hmap, hlast⟩ := List.append_eq_map_iff.mp hturns
  have hlast' : last = [f] := by
    rw [List.map_singleton, hi] at hlast
    obtain ⟨g, rfl, hg⟩ := List.map_eq_singleton_iff.mp hlast
    rw [Option.some.inj hg]
  subst hlast'
  obtain ⟨t, hbefore, hturn⟩ := serial_last hserial
  rw [hphase] at hturn
  have hnodup : (xs ++ [i]).Nodup := ((List.sublist_append_left _ _).trans horder).nodup h.once
  have hnot : i ∉ xs := fun hmem =>
    List.disjoint_of_nodup_append hnodup hmem (List.mem_singleton_self i)
  refine ⟨xs, turns', t, hxs, hmap.symm, hbefore, hturn, hnot, ?_⟩
  obtain ⟨rest, hline, hrest⟩ := h.line_cons (h.front i f hi hphase)
  have hwaits : ¬waitingIn s i = true := by
    rw [waitingIn, hi]
    simp [hphase]
  rw [hline, List.filter_cons_of_neg hwaits] at horder
  rw [hrest]
  exact horder

theorem SvcInv.io {a : Req0Act} {u : Req0} (h : SvcInv start s) (hi : s.futures[i]? = some f)
    (hphase : f.phase = .requesting) (ha : a.isIo = true) (hstep : s.inner.step a = some u) :
    SvcInv start (s.settle i f u) := by
  have hran := ran_io ha hstep
  obtain ⟨p, hp, heq⟩ := settle_cameTo hran i f
  obtain ⟨xs, turns, t, hxs, hmap, hserial, hturn, hnot, horder⟩ := h.running hi hphase
  rw [heq]
  have hcame := h.cameTo hi (by rw [hphase]; rfl) (h.front i f hi hphase) hmap hserial
    (turn_onward hturn ha hstep hp) hnot horder
    ⟨hran.resendTime.trans h.settings.1, hran.reconnect.trans h.settings.2⟩
  rw [← hxs] at hcame
  exact hcame

/-- The request that is running is dropped. -/
theorem SvcInv.dropRequest {u : Req0} (h : SvcInv start s) (hi : s.futures[i]? = some f)
    (hphase : f.phase = .requesting) (hstep : s.inner.step .drop = some u) :
    SvcInv start ({ s with inner := u }.release i f .dropped) := by
  obtain ⟨-, -, hresend, hrec⟩ := ran_drop hstep
  obtain ⟨xs, turns, t, hxs, hmap, hserial, hturn, hnot, horder⟩ := h.running hi hphase
  have hcame := h.cameTo hi (by rw [hphase]; rfl) (h.front i f hi hphase) hmap hserial
    (turn_dropped hturn hstep) hnot horder
    ⟨hresend.trans h.settings.1, hrec.trans h.settings.2⟩
  rw [← hxs] at hcame
  exact hcame

end Front

/-! ## The others -/

section Aside

variable {start : Req0} {s : Req0Service} {i : Nat} {f : SvcFuture}

theorem SvcInv.entered_subset (h : SvcInv start s) : s.entered ⊆ s.arrived :=
  ((List.sublist_append_left _ _).trans h.order).subset

/-- A future that has not started its request joins the line, or leaves. -/
theorem SvcInv.aside (h : SvcInv start s) (hi : s.futures[i]? = some f) (p : SvcPhase)
    (hold : f.phase ≠ .requesting) (hnew : p ≠ .requesting) (hmade : p ≠ .created)
    (hnot : i ∉ s.entered) (arrived : List Nat) (lock : FairLock Nat)
    (horder : (s.entered ++ lock.line.filter (waitingIn (s.setPhase i f p))).Sublist arrived)
    (honce : arrived.Nodup) (hline : lock.line = arrived.filter (activeIn (s.setPhase i f p)))
    (hfront : ∀ j, i ≠ j → s.lock.holder = some j → lock.holder = some j)
    (hothers : ∀ j, i ≠ j → (j ∈ arrived ↔ j ∈ s.arrived))
    (hasked : active p = true → i ∈ arrived) :
    SvcInv start { s.setPhase i f p with arrived := arrived, lock := lock } := by
  obtain ⟨turns, hturns, hserial⟩ := h.serial
  refine ⟨⟨turns, ?_, hserial⟩, ?_, horder, honce, hline, ?_, ?_, ?_, ?_, ?_, h.settings⟩
  · rw [← hturns]
    exact List.map_congr_left fun j hj => getElem?_setPhase_ne p fun heq => hnot (heq ▸ hj)
  · intro hnone
    refine h.idle fun j g hj => ?_
    by_cases hij : i = j
    · subst hij
      rw [hi] at hj
      exact Option.some.inj hj ▸ hold
    · exact hnone j g ((getElem?_setPhase_ne p hij).trans hj)
  · intro j g hj hreq
    rcases getElem?_setPhase_cases p hj with ⟨rfl, rfl⟩ | ⟨hne, hj'⟩
    · exact absurd hreq hnew
    · exact hfront j hne (h.front j g hj' hreq)
  · intro j g hj hreq
    rcases getElem?_setPhase_cases p hj with ⟨rfl, rfl⟩ | ⟨hne, hj'⟩
    · exact absurd hreq hnew
    · exact h.last j g hj' hreq
  · intro j g hj hact
    rcases getElem?_setPhase_cases p hj with ⟨rfl, rfl⟩ | ⟨hne, hj'⟩
    · exact hasked hact
    · exact (hothers j hne).mpr (h.asked j g hj' hact)
  · intro j g hj hcreated
    rcases getElem?_setPhase_cases p hj with ⟨rfl, rfl⟩ | ⟨hne, hj'⟩
    · exact absurd hcreated hmade
    · exact fun hmem => h.fresh j g hj' hcreated ((hothers j hne).mp hmem)
  · intro j hj
    show j < (s.futures.set i _).length
    rw [List.length_set]
    by_cases hij : i = j
    · exact hij ▸ (List.getElem?_eq_some_iff.mp hi).1
    · exact h.known j ((hothers j hij).mp hj)

/-- A future is polled for the first time. -/
theorem SvcInv.joined (h : SvcInv start s) (hi : s.futures[i]? = some f)
    (hphase : f.phase = .created) :
    SvcInv start { s.setPhase i f .waiting with
      arrived := s.arrived ++ [i], lock := s.lock.join i } := by
  have hnew : i ∉ s.arrived := h.fresh i f hi hphase
  have hout : i ∉ s.lock.line := fun hmem =>
    hnew (List.mem_of_mem_filter (h.line ▸ hmem))
  refine h.aside hi .waiting (by simp [hphase]) nofun nofun
    (fun hmem => hnew (h.entered_subset hmem)) (s.arrived ++ [i]) (s.lock.join i)
    ?_ ?_ ?_ ?_ ?_ fun _ => List.mem_append_right _ (List.mem_singleton_self i)
  · rw [FairLock.line_join, List.filter_append, filter_waitingIn_absent _ hout,
      List.filter_singleton, waitingIn_setPhase_self hi, ← List.append_assoc]
    exact h.order.append (List.Sublist.refl _)
  · exact h.once.append (List.nodup_singleton i)
      (List.disjoint_singleton.mpr hnew)
  · rw [FairLock.line_join, List.filter_append, filter_activeIn_absent _ hnew, ← h.line,
      List.filter_singleton, activeIn_setPhase_self hi]
    rfl
  · intro j _ hj
    rw [FairLock.holder_eq_head?] at hj ⊢
    rw [FairLock.line_join, List.head?_append, hj]
    rfl
  · intro j hne
    simp [Ne.symm hne]

/-- A future that has not been polled is dropped. -/
theorem SvcInv.dropCreated (h : SvcInv start s) (hi : s.futures[i]? = some f)
    (hphase : f.phase = .created) : SvcInv start (s.setPhase i f .dropped) := by
  have hnew : i ∉ s.arrived := h.fresh i f hi hphase
  have hout : i ∉ s.lock.line := fun hmem =>
    hnew (List.mem_of_mem_filter (h.line ▸ hmem))
  refine h.aside hi .dropped (by simp [hphase]) nofun nofun
    (fun hmem => hnew (h.entered_subset hmem)) s.arrived s.lock ?_ h.once ?_ (fun _ _ hj => hj)
      (fun _ _ => Iff.rfl) nofun
  · rw [filter_waitingIn_absent _ hout]
    exact h.order
  · rw [filter_activeIn_absent _ hnew]
    exact h.line

/-- A future gives up its place in line. -/
theorem SvcInv.dropWaiting (h : SvcInv start s) (hi : s.futures[i]? = some f)
    (hphase : f.phase = .waiting) : SvcInv start (s.release i f .dropped) := by
  have hwaiting : waitingIn s i = true := by
    rw [waitingIn, hi]
    exact decide_eq_true hphase
  have hin : i ∈ s.lock.line := by
    rw [h.line]
    refine List.mem_filter.mpr ⟨h.asked i f hi (by rw [hphase]; rfl), ?_⟩
    rw [activeIn, hi]
    exact congrArg active hphase
  have hnot : i ∉ s.entered := fun hmem =>
    List.disjoint_of_nodup_append (h.order.nodup h.once) hmem
      (List.mem_filter.mpr ⟨hin, hwaiting⟩)
  refine h.aside hi .dropped (by simp [hphase]) nofun nofun hnot s.arrived (s.lock.leave i)
    ?_ h.once ?_ ?_ (fun _ _ => Iff.rfl) nofun
  · rw [FairLock.line_leave, filter_waitingIn_set hi .dropped nofun]
    refine List.Sublist.trans ?_ h.order
    exact (List.Sublist.refl _).append
      (((List.filter_sublist).trans List.filter_sublist).filter _)
  · rw [FairLock.line_leave, h.line, filter_activeIn_leaves hi _ rfl]
  · intro j hne hj
    rw [FairLock.holder_eq_head?] at hj ⊢
    obtain ⟨rest, hline⟩ := List.head?_eq_some_iff.mp hj
    rw [FairLock.line_leave, hline, List.filter_cons_of_pos (by simpa using Ne.symm hne)]
    rfl

/-- A new future is not in line. -/
theorem SvcInv.called (h : SvcInv start s) (msg : Message) :
    SvcInv start { s with futures := s.futures ++ [⟨msg, .created⟩] } := by
  have hsame {j : Nat} (hj : j < s.futures.length) :
      (s.futures ++ [⟨msg, .created⟩])[j]? = s.futures[j]? := List.getElem?_append_left hj
  have hcases {j : Nat} {g : SvcFuture} (hj : (s.futures ++ [⟨msg, .created⟩])[j]? = some g) :
      s.futures[j]? = some g ∨ (j = s.futures.length ∧ g.phase = .created) := by
    by_cases hlt : j < s.futures.length
    · rw [hsame hlt] at hj
      exact Or.inl hj
    · have hlen : j = s.futures.length := by
        have := (List.getElem?_eq_some_iff.mp hj).1
        rw [List.length_append, List.length_singleton] at this
        omega
      rw [hlen, List.getElem?_concat_length] at hj
      cases hj
      exact Or.inr ⟨hlen, rfl⟩
  have hline : s.lock.line ⊆ s.arrived := fun j hj => List.mem_of_mem_filter (h.line ▸ hj)
  obtain ⟨turns, hturns, hserial⟩ := h.serial
  refine ⟨⟨turns, ?_, hserial⟩, ?_, ?_, h.once, ?_, ?_, ?_, ?_, ?_, ?_, h.settings⟩
  · rw [← hturns]
    exact List.map_congr_left fun j hj => hsame (h.known j (h.entered_subset hj))
  · intro hnone
    refine h.idle fun j g hj => hnone j g ?_
    rw [← hj]
    exact hsame (List.getElem?_eq_some_iff.mp hj).1
  · refine Eq.subst (motive := fun l => (s.entered ++ l).Sublist s.arrived)
      (List.filter_congr fun j hj => ?_) h.order
    rw [waitingIn, waitingIn, hsame (h.known j (hline hj))]
  · refine h.line.trans (List.filter_congr fun j hj => ?_)
    rw [activeIn, activeIn, hsame (h.known j hj)]
  · intro j g hj hreq
    rcases hcases hj with hold | ⟨-, hnew⟩
    · exact h.front j g hold hreq
    · rw [hnew] at hreq
      cases hreq
  · intro j g hj hreq
    rcases hcases hj with hold | ⟨-, hnew⟩
    · exact h.last j g hold hreq
    · rw [hnew] at hreq
      cases hreq
  · intro j g hj hact
    rcases hcases hj with hold | ⟨-, hnew⟩
    · exact h.asked j g hold hact
    · rw [hnew] at hact
      cases hact
  · intro j g hj hcreated
    rcases hcases hj with hold | ⟨hlen, -⟩
    · exact h.fresh j g hold hcreated
    · exact fun hmem => Nat.lt_irrefl _ (hlen ▸ h.known j hmem)
  · intro j hj
    show j < (s.futures ++ [_]).length
    rw [List.length_append]
    exact Nat.lt_add_right _ (h.known j hj)

end Aside

/-! ## Whole runs -/

/-- Whether a future has waited makes no difference to its request. -/
theorem enter_setPhase (s : Req0Service) (i : Nat) (f : SvcFuture) (p : SvcPhase) :
    (s.setPhase i f p).enter i { f with phase := p } = s.enter i f := by
  have hsettle (u : Req0) :
      { s.setPhase i f p with entered := s.entered ++ [i] }.settle i { f with phase := p } u =
        { s with entered := s.entered ++ [i] }.settle i f u := by
    simp only [Req0Service.settle, Req0Service.release, Req0Service.setPhase, List.set_set]
  exact congrArg (fun g => Option.map g (s.inner.step (.call f.msg))) (funext hsettle)

theorem SvcInv.poll {start : Req0} {s s' : Req0Service} {i : Nat} {f : SvcFuture}
    (h : SvcInv start s) (hi : s.futures[i]? = some f) (hpoll : s.poll i f = some s') :
    SvcInv start s' := by
  unfold Req0Service.poll at hpoll
  split at hpoll
  · next hphase =>
      have hjoined := h.joined hi hphase
      dsimp only at hpoll
      split at hpoll
      · next hholder =>
          refine hjoined.enter (getElem?_setPhase_self hi .waiting) rfl hholder ?_
          rw [← hpoll]
          exact enter_setPhase
            { s with lock := s.lock.join i, arrived := s.arrived ++ [i] } i f
            .waiting
      · cases hpoll
        exact hjoined
  · next hphase =>
      split at hpoll
      · next hholder => exact h.enter hi hphase hholder hpoll
      · cases hpoll
        exact h
  · cases hpoll

theorem SvcInv.dropFuture {start : Req0} {s s' : Req0Service} {i : Nat} {f : SvcFuture}
    (h : SvcInv start s) (hi : s.futures[i]? = some f) (hdrop : s.dropFuture i f = some s') :
    SvcInv start s' := by
  unfold Req0Service.dropFuture at hdrop
  split at hdrop
  · next hphase =>
      cases hdrop
      exact h.dropCreated hi hphase
  · next hphase =>
      cases hdrop
      exact h.dropWaiting hi hphase
  · next hphase =>
      obtain ⟨u, hu, rfl⟩ := Option.map_eq_some_iff.mp hdrop
      exact h.dropRequest hi hphase hu
  · cases hdrop

theorem SvcInv.step {start : Req0} {s s' : Req0Service} {a : SvcAct} (h : SvcInv start s)
    (hstep : s.step a = some s') : SvcInv start s' := by
  unfold Req0Service.step at hstep
  split at hstep
  · cases hstep
    exact h.called _
  · split at hstep
    · cases hstep
    · next hi => exact h.poll hi hstep
  · split at hstep
    · cases hstep
    · split at hstep
      · cases hstep
      · next hi =>
          split at hstep
          · next hio =>
              obtain ⟨u, hu, rfl⟩ := Option.map_eq_some_iff.mp hstep
              exact h.io hi hio.1 hio.2 hu
          · cases hstep
  · split at hstep
    · cases hstep
    · next hi => exact h.dropFuture hi hstep

theorem service_serialises {req0 : Req0} (idle : req0.live = none) {acts : List SvcAct}
    {s : Req0Service} (h : run Req0Service.step (.new req0) acts = some s) :
    Serialised req0 s :=
  (run_invariant (svcInv_new idle) (fun _ _ _ hinv hstep => hinv.step hstep) h).serialised

/-- The second of three clones asks first; the first gives up while the second
waits for its reply, and the third is next. -/
theorem service_serialises_three_clones :
    ∃ s, run Req0Service.step (.new (.dial .tcp none none))
        [.call ⟨[], [5]⟩, .call ⟨[], [6]⟩, .call ⟨[], [7]⟩, .poll 1, .poll 0, .poll 2,
          .io (.write (.ok 8)), .io (.write (.ok 4)), .io (.write (.ok 1)), .drop 0, .poll 2,
          .io (.received (.ok ⟨[], [128, 0, 0, 1, 9]⟩)), .poll 2, .io (.write (.ok 8))] =
            some s ∧
      (s.entered = [1, 2] ∧ s.futures[1]? = some ⟨⟨[], [6]⟩, .done (.ok ⟨[], [9]⟩)⟩) ∧
      Serialised (.dial .tcp none none) s :=
  Exists.imp (fun s (hs : _ = some s ∧ _) => ⟨hs.1, hs.2, service_serialises rfl hs.1⟩)
    ⟨_, rfl, rfl, rfl⟩

end NngCore.Proofs
