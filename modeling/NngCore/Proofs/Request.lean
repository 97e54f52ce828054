import NngCore.Ref.Socket
import NngCore.Proofs.Send

/-!
# The request future, seen from the wire

Five places to stand at, eight things that can happen, two raw operations that
redial on their own account: what all of it can do to the connection is still
a short list. `Moved` is that list. A move starts a frame, writes some of it,
completes it, leaves it, changes the connection, or touches nothing; every
step of the socket is one of these (`step_moved`), and the two invariants of
the modules behind this one are read off the list and never look at the step
function again.
-/

namespace NngCore.Proofs

open NngCore.Lib NngCore.Ref

/-- What the live call is doing to the connection. -/
inductive Doing where
  | nothing
  | sending (m : Message) (fut : SendFut)
  | waiting (m : Message)
  | redialing (m : Message) (op : RawOp)

def doingPhase (m : Message) : Phase → Doing
  | .send fut _ => .sending m fut
  | .recv _ => .waiting m
  | .redial op _ _ => .redialing m op

def doing (s : Req0) : Doing :=
  match s.live with
  | none => .nothing
  | some c => doingPhase c.outgoing c.phase

/-- Everything a step can do to the connection, the requests issued and the
place of the live call. -/
inductive Moved (fmt : FrameFormat) :
    Req0Act → Conn → List Message → Doing → Conn → List Message → Doing → Prop where
  | issued {conn : Conn} {iss : List Message} {msg m : Message} {fut : SendFut}
      (hlen : m.len < 2 ^ 64) (hfut : fut.left = frameBytes fmt m) (hoff : fut.offered ≠ []) :
      Moved fmt (.call msg) conn iss .nothing { conn with since := [] } (iss ++ [m])
        (.sending m fut)
  | resent {conn : Conn} {iss : List Message} {m : Message} {fut : SendFut} {d : Doing}
      (hd : d = .waiting m ∨ d = .redialing m .recv) (hfut : fut.left = frameBytes fmt m)
      (hoff : fut.offered ≠ []) :
      Moved fmt .timeout conn iss d conn iss (.sending m fut)
  | redialedSend {conn : Conn} {iss : List Message} {m : Message} {fut : SendFut}
      (hfut : fut.left = frameBytes fmt m) (hoff : fut.offered ≠ []) :
      Moved fmt (.dialed true) conn iss (.redialing m .send) .fresh iss (.sending m fut)
  | redialedRecv {conn : Conn} {iss : List Message} {m : Message} :
      Moved fmt (.dialed true) conn iss (.redialing m .recv) .fresh iss (.waiting m)
  | wrote {conn : Conn} {iss : List Message} {m : Message} {fut fut' : SendFut} {n : Nat}
      (hpos : 0 < n) (hleft : fut.offered.take n ++ fut'.left = fut.left)
      (hoff : fut'.offered ≠ []) :
      Moved fmt (.write (.ok n)) conn iss (.sending m fut)
        (conn.write (fut.offered.take n)) iss (.sending m fut')
  | completed {conn : Conn} {iss : List Message} {m : Message} {fut : SendFut} {n : Nat}
      (hpos : 0 < n) (hleft : fut.offered.take n = fut.left) :
      Moved fmt (.write (.ok n)) conn iss (.sending m fut)
        (conn.write (fut.offered.take n)) iss (.waiting m)
  | broke {a : Req0Act} {conn : Conn} {iss : List Message} {m : Message} {fut : SendFut}
      {d : Doing} (hd : d = .nothing ∨ d = .redialing m .send) :
      Moved fmt a conn iss (.sending m fut)
        (conn.tear (decide (fut.left.length < (frameBytes fmt m).length))) iss d
  | quiet {a : Req0Act} {conn : Conn} {iss : List Message} {d d' : Doing}
      (hd : (d' = .nothing ∧ ∀ m fut, d ≠ .sending m fut) ∨
        ∃ m, (d = .waiting m ∧ d' = .waiting m) ∨
          (d = .waiting m ∧ d' = .redialing m .recv) ∨
          ∃ op, d = .redialing m op ∧ d' = .redialing m op) :
      Moved fmt a conn iss d conn iss d'

/-! ## The pieces of the future -/

theorem startSend_eq (s : Req0) (c : Call) (retry : Bool) :
    ∃ fut, s.startSend c retry = s.await c (.send fut retry) ∧
      fut.left = frameBytes s.fmt c.outgoing ∧ fut.offered ≠ [] := by
  obtain ⟨fut, hstart, hleft, hoff⟩ := sendStart_pending s.fmt c.outgoing
  refine ⟨fut, ?_, hleft, hoff⟩
  rw [Req0.startSend, hstart]
  rfl

theorem rawFailed_cases (s : Req0) (c : Call) (op : RawOp) (retry : Bool) (e : NngError) :
    (∃ r, s.rawFailed c op retry e = s.await c (.redial op e r)) ∨
      s.rawFailed c op retry e = s.finish (.error e) := by
  cases hre : s.reconnect with
  | none => exact Or.inr (by simp only [Req0.rawFailed, hre])
  | some opts =>
      cases retry with
      | false => exact Or.inl ⟨.start opts, by simp only [Req0.rawFailed, hre]⟩
      | true => exact Or.inr (by simp only [Req0.rawFailed, hre])

/-- A step of the socket, as a move. -/
def IsMove (s : Req0) (a : Req0Act) (s' : Req0) : Prop :=
  s'.fmt = s.fmt ∧ Moved s.fmt a s.conn s.issued (doing s) s'.conn s'.issued (doing s')

theorem settleRecv_moved {s : Req0} {c : Call} {retry : Bool} (a : Req0Act)
    (hd : doing s = .waiting c.outgoing) (r : Except TransportError Message) :
    IsMove s a (s.settleRecv c retry r) := by
  have hnot : ∀ m fut, doing s ≠ .sending m fut := by
    intro m fut
    rw [hd]
    exact nofun
  cases r with
  | error e =>
      rw [Req0.settleRecv]
      rcases rawFailed_cases s c .recv retry (.ofTransport e) with ⟨r, h⟩ | h
      · rw [h]
        exact ⟨rfl, .quiet (Or.inr ⟨c.outgoing, Or.inr (Or.inl ⟨hd, rfl⟩)⟩)⟩
      · rw [h]
        exact ⟨rfl, .quiet (Or.inl ⟨rfl, hnot⟩)⟩
  | ok raw =>
      simp only [Req0.settleRecv]
      split
      · exact ⟨rfl, .quiet (Or.inl ⟨rfl, hnot⟩)⟩
      · exact ⟨rfl, .quiet (Or.inl ⟨rfl, hnot⟩)⟩
      · exact ⟨rfl, .quiet (Or.inr ⟨c.outgoing, Or.inl ⟨hd, rfl⟩⟩)⟩
      · exact ⟨rfl, .quiet (Or.inl ⟨rfl, hnot⟩)⟩

/-- A send that failed leaves its frame where it is. -/
theorem sendFailed_moved {s : Req0} {c : Call} {fut : SendFut} (a : Req0Act)
    (retry : Bool) (e : TransportError) (hd : doing s = .sending c.outgoing fut) :
    IsMove s a ((s.tear (s.midFrame c fut)).settleSend c retry (.ready (.error e))) := by
  rw [Req0.settleSend]
  refine ⟨?_, ?_⟩
  · rcases rawFailed_cases (s.tear (s.midFrame c fut)) c .send retry (.ofTransport e) with
      ⟨r, h⟩ | h <;> rw [h] <;> rfl
  · rw [hd]
    rcases rawFailed_cases (s.tear (s.midFrame c fut)) c .send retry (.ofTransport e) with
      ⟨r, h⟩ | h
    · rw [h]
      exact .broke (Or.inr rfl)
    · rw [h]
      exact .broke (Or.inl rfl)

theorem written_moved {s s' : Req0} {c : Call} {fut : SendFut} {retry : Bool}
    {r : WriteResult} (hd : doing s = .sending c.outgoing fut)
    (h : s.written c fut retry r = some s') : IsMove s (.write r) s' := by
  cases r with
  | err e =>
      cases h
      exact sendFailed_moved _ retry (.io e) hd
  | ok n =>
      simp only [Req0.written] at h
      split at h
      · next hle =>
          rcases Nat.eq_zero_or_pos n with rfl | hpos
          · have hsame : ({ s with conn := s.conn.write (fut.offered.take 0) } : Req0).tear
                (decide (0 = 0) && s.midFrame c fut) = s.tear (s.midFrame c fut) := by
              simp only [Req0.tear, Conn.tear, Conn.write, List.take_zero, List.append_nil,
                decide_true, Bool.true_and]
            rw [hsame] at h
            cases h
            exact sendFailed_moved _ retry .closed hd
          · have hsame : ({ s with conn := s.conn.write (fut.offered.take n) } : Req0).tear
                (decide (n = 0) && s.midFrame c fut) =
                  { s with conn := s.conn.write (fut.offered.take n) } := by
              have hne : decide (n = 0) = false := decide_eq_false (by omega)
              simp only [Req0.tear, Conn.tear, hne, Bool.false_and, Bool.or_false]
            rw [hsame] at h
            cases h
            rcases resume_cases hpos hle with ⟨fut', hres, hoff, hleft⟩ | ⟨hres, hleft⟩
            · rw [hres]
              refine ⟨rfl, ?_⟩
              rw [hd]
              exact .wrote hpos hleft hoff
            · rw [hres]
              refine ⟨rfl, ?_⟩
              rw [hd]
              exact .completed hpos hleft
      · cases h

theorem dialDone_moved {s s' : Req0} {c : Call} {op : RawOp} {cause : NngError} {r : Redial}
    {ok : Bool} (hd : doing s = .redialing c.outgoing op)
    (h : s.dialDone c op cause r ok = some s') : IsMove s (.dialed ok) s' := by
  cases ok with
  | true =>
      cases op with
      | send =>
          obtain ⟨fut, hstart, hleft, hoff⟩ := startSend_eq { s with conn := .fresh } c true
          simp only [Req0.dialDone, hstart, Option.some.injEq] at h
          subst h
          refine ⟨rfl, ?_⟩
          rw [hd]
          exact .redialedSend hleft hoff
      | recv =>
          cases h
          refine ⟨rfl, ?_⟩
          rw [hd]
          exact .redialedRecv
  | false =>
      have hnot : ∀ m fut, doing s ≠ .sending m fut := by
        intro m fut
        rw [hd]
        exact nofun
      simp only [Req0.dialDone] at h
      split at h
      · cases h
      · split at h
        · cases h
          exact ⟨rfl, .quiet (Or.inr ⟨c.outgoing, Or.inr (Or.inr ⟨op, hd, rfl⟩)⟩)⟩
        · cases h
          exact ⟨rfl, .quiet (Or.inl ⟨rfl, hnot⟩)⟩
        · cases h
          exact ⟨rfl, .quiet (Or.inl ⟨rfl, hnot⟩)⟩

theorem call_moved {s s' : Req0} {msg : Message} (h : s.call msg = some s') :
    IsMove s (.call msg) s' := by
  simp only [Req0.call] at h
  split at h
  · cases h
  · next hidle =>
      split at h
      · cases h
      · next hlen =>
          rw [prepareOutgoing_message] at h
          simp only [Option.some.injEq] at h
          subst h
          obtain ⟨fut, hstart, hleft, hoff⟩ := startSend_eq
            { s with
              state := ⟨max (s.state.nextId + 1) 1⟩
              conn := { s.conn with since := [] }
              issued := s.issued ++
                [msg.headerPushBack (u32ToBeBytes (s.state.nextId ||| 0x80000000))] }
            ⟨msg.headerPushBack (u32ToBeBytes (s.state.nextId ||| 0x80000000)),
              s.state.nextId, .recv false⟩ false
          rw [hstart]
          have hnone : doing s = .nothing := by rw [doing, hidle]
          refine ⟨rfl, ?_⟩
          rw [hnone]
          refine .issued ?_ hleft hoff
          simp only [Message.len, Message.headerPushBack, List.length_append,
            length_u32ToBeBytes] at hlen ⊢
          omega

/-- Every step of the socket is a move. -/
theorem step_moved {s s' : Req0} {a : Req0Act} (h : s.step a = some s') : IsMove s a s' := by
  cases hlive : s.live with
  | none =>
      cases a with
      | call msg => exact call_moved (by simpa only [Req0.step, hlive] using h)
      | setResendTime d =>
          simp only [Req0.step, hlive, Option.some.injEq] at h
          subst h
          refine ⟨rfl, .quiet (Or.inl ⟨rfl, ?_⟩)⟩
          intro m fut
          rw [doing, hlive]
          exact nofun
      | _ => simp only [Req0.step, hlive, reduceCtorEq] at h
  | some c =>
      have hdoing : doing s = doingPhase c.outgoing c.phase := by rw [doing, hlive]
      cases a with
      | call msg => exact call_moved (by simpa only [Req0.step, hlive] using h)
      | setResendTime d => simp only [Req0.step, hlive, reduceCtorEq] at h
      | write r =>
          simp only [Req0.step, hlive] at h
          split at h
          · next fut retry hphase =>
              rw [hphase] at hdoing
              exact written_moved hdoing h
          · cases h
      | received r =>
          simp only [Req0.step, hlive] at h
          split at h
          · next retry hphase =>
              cases h
              rw [hphase] at hdoing
              exact settleRecv_moved _ hdoing r
          · cases h
      | slept =>
          simp only [Req0.step, hlive] at h
          split at h
          · next op cause r hphase =>
              split at h
              · cases h
              · cases h
                rw [hphase] at hdoing
                exact ⟨rfl, .quiet (Or.inr ⟨c.outgoing, Or.inr (Or.inr ⟨op, hdoing, rfl⟩)⟩)⟩
          · cases h
      | dialed ok =>
          simp only [Req0.step, hlive] at h
          split at h
          · next op cause r hphase =>
              split at h
              · rw [hphase] at hdoing
                exact dialDone_moved hdoing h
              · cases h
          · cases h
      | timeout =>
          obtain ⟨fut, hstart, hleft, hoff⟩ := startSend_eq s c false
          simp only [Req0.step, hlive, hstart] at h
          split at h
          · cases h
          · split at h
            · next hphase =>
                cases h
                rw [hphase] at hdoing
                exact ⟨rfl, .resent (Or.inl hdoing) hleft hoff⟩
            · next hphase =>
                cases h
                rw [hphase] at hdoing
                exact ⟨rfl, .resent (Or.inr hdoing) hleft hoff⟩
            · cases h
      | drop =>
          simp only [Req0.step, hlive] at h
          split at h
          · next fut retry hphase =>
              cases h
              rw [hphase] at hdoing
              refine ⟨rfl, ?_⟩
              rw [hdoing]
              exact .broke (Or.inl rfl)
          · next hphase =>
              cases h
              refine ⟨rfl, .quiet (Or.inl ⟨rfl, ?_⟩)⟩
              intro m fut hsend
              rw [hdoing] at hsend
              cases hp : c.phase with
              | send fut' retry => exact hphase fut' retry hp
              | recv retry => simp only [hp, doingPhase, reduceCtorEq] at hsend
              | redial op cause r => simp only [hp, doingPhase, reduceCtorEq] at hsend

end NngCore.Proofs
