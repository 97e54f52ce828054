import NngCore.Proofs.Request
import NngCore.Spec.Request

/-!
# Waiting on the connection that carried the request

While a call sends, the bytes its live future has written are the last ones on
the connection; when the future returns they are the whole frame, and the call
starts to wait behind it. Nothing but a redial can take the connection away
from under the wait. A redial inside `send_raw` sends the frame again before
the call goes on to wait; a redial inside `recv_raw` does not, so the very
state it leads to waits on a connection that carried nothing.
-/

namespace NngCore.Proofs

open NngCore.Lib NngCore.Ref NngCore.Spec

variable {fmt : FrameFormat}

/-- How the live call's frame stands on its connection. -/
def OnWire (fmt : FrameFormat) (conn : Conn) : Doing → Prop
  | .nothing => True
  | .redialing _ _ => True
  | .sending m fut => ∃ pre done, conn.since = pre ++ done ∧
      done ++ fut.left = frameBytes fmt m
  | .waiting m => frameBytes fmt m <:+: conn.since

theorem Moved.onWire {a : Req0Act} {conn conn' : Conn} {iss iss' : List Message}
    {d d' : Doing} (h : Moved fmt a conn iss d conn' iss' d') (hwire : OnWire fmt conn d)
    (hredial : ∀ m, ¬ (a = .dialed true ∧ d = .redialing m .recv)) :
    OnWire fmt conn' d' := by
  cases h with
  | issued hlen hfut hoff => exact ⟨[], [], rfl, hfut⟩
  | resent hd hfut hoff => exact ⟨conn.since, [], (List.append_nil _).symm, hfut⟩
  | redialedSend hfut hoff => exact ⟨[], [], rfl, hfut⟩
  | redialedRecv => exact absurd ⟨rfl, rfl⟩ (hredial _)
  | @wrote _ _ m fut fut' n hpos hleft hoff =>
      obtain ⟨pre, done, hsince, hdone⟩ := hwire
      refine ⟨pre, done ++ fut.offered.take n, ?_, ?_⟩
      · show conn.since ++ _ = _
        rw [hsince, List.append_assoc]
      · rw [List.append_assoc, hleft, hdone]
  | completed hpos hleft =>
      obtain ⟨pre, done, hsince, hdone⟩ := hwire
      refine ⟨pre, [], ?_⟩
      show pre ++ _ ++ [] = conn.since ++ _
      rw [hsince, hleft, ← hdone, List.append_nil, List.append_assoc]
  | broke hd =>
      rcases hd with rfl | rfl
      · exact trivial
      · exact trivial
  | quiet hd =>
      rcases hd with ⟨rfl, _⟩ | ⟨m, ⟨rfl, rfl⟩ | ⟨rfl, rfl⟩ | ⟨op, rfl, rfl⟩⟩
      · exact trivial
      · exact hwire
      · exact trivial
      · exact trivial

theorem waitsOnCarrier_of_onWire {s : Req0} (h : OnWire s.fmt s.conn (doing s)) :
    WaitsOnCarrier s := by
  intro c retry hlive hphase
  rw [doing, hlive] at h
  simp only [hphase, doingPhase] at h
  exact h

/-- A redial that comes back while the call redials has been waiting for it. -/
theorem redialsInRecv_of_doing {s s' : Req0} {m : Message}
    (hstep : s.step (.dialed true) = some s') (hd : doing s = .redialing m .recv) :
    RedialsInRecv s (.dialed true) := by
  cases hlive : s.live with
  | none =>
      rw [doing, hlive] at hd
      cases hd
  | some c =>
      rw [doing, hlive] at hd
      cases hphase : c.phase with
      | send fut retry => simp only [hphase, doingPhase, reduceCtorEq] at hd
      | recv retry => simp only [hphase, doingPhase, reduceCtorEq] at hd
      | redial op cause r =>
          simp only [hphase, doingPhase, Doing.redialing.injEq] at hd
          obtain ⟨_, rfl⟩ := hd
          refine ⟨rfl, c, cause, r, hlive, hphase, ?_⟩
          simp only [Req0.step, hlive, hphase] at hstep
          split at hstep
          · next hdial => exact hdial
          · cases hstep

/-- The state behind a redial inside `recv_raw` waits on an empty connection. -/
theorem not_waitsOnCarrier_of_redial {s : Req0} {a : Req0Act} (h : RedialsInRecv s a) :
    ∃ s', s.step a = some s' ∧ ¬ WaitsOnCarrier s' := by
  obtain ⟨rfl, c, cause, r, hlive, hphase, hdial⟩ := h
  refine ⟨{ s with conn := .fresh }.await c (.recv true), ?_, fun hwaits => ?_⟩
  · simp only [Req0.step, hlive, hphase, hdial, if_true, Req0.dialDone]
  · have hin := hwaits _ true rfl rfl
    exact frameBytes_ne_nil s.fmt c.outgoing (List.infix_nil.mp hin)

/-- Along every run, the call waits on connections that carried its request
exactly as long as no redial succeeds inside `recv_raw`. -/
theorem waitsOnCarrier_iff (fmt : FrameFormat) (resendTime : Option Nat)
    (reconnect : Option ReconnectOptions) (acts : List Req0Act) :
    EveryState Req0.step WaitsOnCarrier (.dial fmt resendTime reconnect) acts ↔
      EveryStep Req0.step (fun s a => ¬ RedialsInRecv s a)
        (.dial fmt resendTime reconnect) acts := by
  constructor
  · generalize Req0.dial fmt resendTime reconnect = s
    intro h
    induction acts generalizing s with
    | nil => exact trivial
    | cons a acts ih =>
        refine ⟨fun hredial => ?_, fun s' hs => ih s' (h.2 s' hs)⟩
        obtain ⟨s', hs, hnot⟩ := not_waitsOnCarrier_of_redial hredial
        exact hnot (h.2 s' hs).here
  · intro h
    have hinv := everyState_of_everyStep (I := fun s => OnWire s.fmt s.conn (doing s))
      (fun s a s' hwire hadm hstep => by
        obtain ⟨hfmt, hmove⟩ := step_moved hstep
        rw [hfmt]
        refine hmove.onWire hwire fun m hm => ?_
        obtain ⟨rfl, hd⟩ := hm
        exact hadm (redialsInRecv_of_doing hstep hd))
      (show OnWire fmt Conn.fresh .nothing from trivial) h
    exact hinv.imp fun s hs => waitsOnCarrier_of_onWire hs

/-- The request is sent, the connection is lost while the call waits, and the
redial goes through: the call waits on the new connection, where nothing was
written. -/
theorem waits_where_nothing_was_sent :
    ¬ EveryState Req0.step WaitsOnCarrier (.dial .tcp none (some .default))
      [.call ⟨[], [5]⟩, .write (.ok 8), .write (.ok 4), .write (.ok 1),
        .received (.error .closed), .slept, .dialed true] := by
  intro h
  have hlast := h.last (t :=
    { fmt := .tcp
      state := ⟨2⟩
      resendTime := none
      reconnect := some .default
      conn := .fresh
      live := some ⟨⟨[128, 0, 0, 1], [5]⟩, 1, .recv true⟩
      issued := [⟨[128, 0, 0, 1], [5]⟩]
      returned := []
      panicked := false }) (by decide)
  exact absurd (List.infix_nil.mp (hlast _ true rfl rfl)) (by decide)

end NngCore.Proofs
