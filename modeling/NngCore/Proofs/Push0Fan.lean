import NngCore.Proofs.Send
import NngCore.Spec.Push0Fan

/-!
# Every call has its worker

A call is two things, the choice of a worker and a send on it, and only the
first says anything about the turn. So a step either starts a call, which adds
one message to what the worker at `next` was given, or moves the send of a call
on, which changes that one worker and nothing it was given.
-/

namespace NngCore.Proofs

open NngCore.Lib NngCore.Ref NngCore.Spec

/-! ## One worker -/

/-- The message of the send that is going on. -/
def ongoing : Option (Message × PushFut) → List Message
  | none => []
  | some (msg, _) => [msg]

theorem sentInPieces_cut {fmt : FrameFormat} {given done : List Message}
    {pieces : List (Message × List UInt8)} (h : SentInPieces fmt given done pieces)
    {msg : Message} {sent : List UInt8} (hbegin : sent <+: frameBytes fmt msg)
    (hne : sent ≠ frameBytes fmt msg) :
    SentInPieces fmt (given ++ [msg]) done (pieces ++ [(msg, sent)]) := by
  refine ⟨?_, forall_mem_concat h.beginnings hbegin, ?_⟩
  · rw [List.map_append, h.messages]
    rfl
  · rw [List.filter_append, List.map_append, h.whole,
      List.filter_cons_of_neg (by simpa using hne)]
    exact List.append_nil _

theorem sentInPieces_sent {fmt : FrameFormat} {given done : List Message}
    {pieces : List (Message × List UInt8)} (h : SentInPieces fmt given done pieces)
    (msg : Message) :
    SentInPieces fmt (given ++ [msg]) (done ++ [msg])
      (pieces ++ [(msg, frameBytes fmt msg)]) := by
  refine ⟨?_, forall_mem_concat h.beginnings List.prefix_rfl, ?_⟩
  · rw [List.map_append, h.messages]
    rfl
  · rw [List.filter_append, List.map_append, h.whole, List.filter_cons_of_pos (by simp)]
    rfl

/-- The messages the worker was given, all but `rest`, have left their pieces on the
wire, and `sent` comes after them. -/
def PiecesThen (fmt : FrameFormat) (w : Worker) (wire : List UInt8) (rest : List Message)
    (sent : List UInt8) : Prop :=
  ∃ before pieces, SentInPieces fmt before w.done pieces ∧ before ++ rest = w.given ∧
    wire = pieces.flatMap Prod.snd ++ sent

theorem PiecesThen.ended {fmt : FrameFormat} {w : Worker} {wire sent : List UInt8}
    {msg : Message} (h : PiecesThen fmt w wire [msg] sent)
    (hbegin : sent <+: frameBytes fmt msg) (hne : sent ≠ frameBytes fmt msg) :
    PiecesThen fmt w wire [] [] := by
  obtain ⟨before, pieces, hpieces, hgiven, rfl⟩ := h
  refine ⟨_, _, sentInPieces_cut hpieces hbegin hne, (List.append_nil _).trans hgiven, ?_⟩
  rw [List.flatMap_append, List.flatMap_singleton, List.append_nil]

theorem PiecesThen.sent {fmt : FrameFormat} {w : Worker} {wire : List UInt8} {msg : Message}
    (h : PiecesThen fmt w wire [msg] (frameBytes fmt msg)) :
    PiecesThen fmt { w with done := w.done ++ [msg] } wire [] [] := by
  obtain ⟨before, pieces, hpieces, hgiven, rfl⟩ := h
  refine ⟨_, _, sentInPieces_sent hpieces msg, (List.append_nil _).trans hgiven, ?_⟩
  rw [List.flatMap_append, List.flatMap_singleton, List.append_nil]

theorem PiecesThen.all {fmt : FrameFormat} {w : Worker} {wire : List UInt8}
    (h : PiecesThen fmt w wire [] []) :
    ∃ pieces, SentInPieces fmt w.given w.done pieces ∧ wire = pieces.flatMap Prod.snd := by
  obtain ⟨before, pieces, hpieces, hgiven, rfl⟩ := h
  rw [List.append_nil] at hgiven
  rw [List.append_nil, ← hgiven]
  exact ⟨pieces, hpieces, rfl⟩

/-- `sent` is what the send that is going on has written. -/
def SentOf (fmt : FrameFormat) (sent : List UInt8) : Option (Message × PushFut) → Prop
  | none => sent = []
  | some (msg, .framed fut) => SendAt (frameBytes fmt msg) sent (.pending fut)
  | some (_, .ws) => False

def WorkerConnOk (w : Worker) (l : Option (Message × PushFut)) : PushConn → Prop
  | .framed fmt wire =>
      (∀ msg, l ≠ some (msg, .ws)) ∧
      (∃ sent, PiecesThen fmt w wire (ongoing l) sent ∧ SentOf fmt sent l) ∧
      (w.torn = false →
        ∃ sent, wire = w.done.flatMap (frameBytes fmt) ++ sent ∧ SentOf fmt sent l)
  | .ws items =>
      (∀ msg fut, l ≠ some (msg, .framed fut)) ∧ (payloads w.done).Sublist items ∧
        (items ++ payloads (ongoing l)).Sublist (payloads w.given)

structure WorkerOk (w : Worker) (l : Option (Message × PushFut)) : Prop where
  done : (w.done ++ ongoing l).Sublist w.given
  conn : WorkerConnOk w l w.conn

theorem workerOk_fresh (kind : PushKind) : WorkerOk (.fresh kind) none := by
  cases kind with
  | framed fmt =>
      exact ⟨.slnil, nofun, ⟨[], ⟨[], [], ⟨rfl, nofun, rfl⟩, rfl, rfl⟩, rfl⟩,
        fun _ => ⟨[], rfl, rfl⟩⟩
  | ws => exact ⟨.slnil, nofun, .slnil, .slnil⟩

theorem payloads_append (xs ys : List Message) :
    payloads (xs ++ ys) = payloads xs ++ payloads ys := List.map_append

/-- A send that has not ended has written less than its frame. -/
theorem sendAt_pending {frame sent : List UInt8} {fut : SendFut}
    (h : SendAt frame sent (.pending fut)) : sent <+: frame ∧ sent ≠ frame := by
  obtain ⟨hleft, hoff⟩ := h
  refine ⟨⟨_, hleft⟩, ?_⟩
  intro hall
  rw [hall] at hleft
  exact left_ne_nil hoff (List.append_right_eq_self.mp hleft)

theorem WorkerOk.delivered {w : Worker} {l : Option (Message × PushFut)} (h : WorkerOk w l) :
    Delivered w := by
  refine ⟨(List.sublist_append_left _ _).trans h.done, ?_⟩
  have hconn := h.conn
  cases hc : w.conn with
  | framed fmt wire =>
      rw [hc] at hconn
      obtain ⟨-, ⟨sent, hpieces, hsent⟩, hplain⟩ := hconn
      refine ⟨?_, fun htorn => ?_⟩
      · match l with
        | none =>
            rw [show sent = [] from hsent] at hpieces
            exact hpieces.all
        | some (msg, .ws) => exact hsent.elim
        | some (msg, .framed fut) =>
            obtain ⟨hbegin, hne⟩ := sendAt_pending hsent
            exact (hpieces.ended hbegin hne).all
      · obtain ⟨sent, hwire, hsent⟩ := hplain htorn
        refine ⟨sent, hwire, ?_⟩
        match l with
        | none => exact Or.inl hsent
        | some (msg, .ws) => exact hsent.elim
        | some (msg, .framed fut) =>
            obtain ⟨hbegin, hne⟩ := sendAt_pending hsent
            refine Or.inr ⟨msg, ?_, hbegin, hne⟩
            exact h.done.subset (List.mem_append_right _ (List.mem_singleton_self msg))
  | ws items =>
      rw [hc] at hconn
      exact ⟨hconn.2.1, (List.sublist_append_left _ _).trans hconn.2.2⟩

/-! ## A framed send on it -/

/-- A send of `msg` stands at `poll`; one that failed has written nothing, or
has torn the stream. -/
structure SendingOk (w : Worker) (msg : Message) (poll : SendPoll) : Prop where
  done : (w.done ++ [msg]).Sublist w.given
  conn : ∃ fmt wire, w.conn = .framed fmt wire ∧
    (∃ sent, PiecesThen fmt w wire [msg] sent ∧ SendAt (frameBytes fmt msg) sent poll) ∧
    (w.torn = false → ∃ sent, wire = w.done.flatMap (frameBytes fmt) ++ sent ∧
      SendAt (frameBytes fmt msg) sent poll ∧ (∀ e, poll = .ready (.error e) → sent = []))

theorem SendingOk.pending {w : Worker} {msg : Message} {fut : SendFut}
    (h : SendingOk w msg (.pending fut)) : WorkerOk w (some (msg, .framed fut)) := by
  obtain ⟨fmt, wire, hconn, hpieces, hsent⟩ := h.conn
  refine ⟨h.done, ?_⟩
  rw [hconn]
  refine ⟨nofun, hpieces, fun htorn => ?_⟩
  obtain ⟨sent, hwire, hat, -⟩ := hsent htorn
  exact ⟨sent, hwire, hat⟩

theorem SendingOk.ok {w : Worker} {msg : Message} (h : SendingOk w msg (.ready (.ok ()))) :
    WorkerOk { w with done := w.done ++ [msg] } none := by
  obtain ⟨fmt, wire, hconn, ⟨piece, hpieces, hwhole⟩, hsent⟩ := h.conn
  refine ⟨by rw [ongoing, List.append_nil]; exact h.done, ?_⟩
  show WorkerConnOk _ _ w.conn
  rw [hconn]
  rw [show piece = frameBytes fmt msg from hwhole] at hpieces
  refine ⟨nofun, ⟨[], hpieces.sent, rfl⟩, fun htorn => ?_⟩
  obtain ⟨sent, hwire, hat, -⟩ := hsent htorn
  have hall : sent = frameBytes fmt msg := hat
  refine ⟨[], ?_, rfl⟩
  rw [hwire, hall, List.append_nil, List.flatMap_append, List.flatMap_singleton]

theorem SendingOk.error {w : Worker} {msg : Message} {e : TransportError}
    (h : SendingOk w msg (.ready (.error e))) : WorkerOk w none := by
  obtain ⟨fmt, wire, hconn, ⟨piece, hpieces, rest, hrest, hpart⟩, hsent⟩ := h.conn
  refine ⟨?_, ?_⟩
  · rw [ongoing, List.append_nil]
    exact (List.sublist_append_left _ _).trans h.done
  · rw [hconn]
    have hne : piece ≠ frameBytes fmt msg := by
      intro hall
      rw [hall] at hpart
      exact hrest (List.append_right_eq_self.mp hpart)
    refine ⟨nofun, ⟨[], hpieces.ended ⟨rest, hpart⟩ hne, rfl⟩, fun htorn => ?_⟩
    obtain ⟨sent, hwire, -, hnone⟩ := hsent htorn
    exact ⟨sent, hwire, hnone e rfl⟩

theorem WorkerOk.sending {w : Worker} {msg : Message} {fut : SendFut}
    (h : WorkerOk w (some (msg, .framed fut))) : SendingOk w msg (.pending fut) := by
  have hconn := h.conn
  cases hc : w.conn with
  | framed fmt wire =>
      rw [hc] at hconn
      refine ⟨h.done, fmt, wire, hc, hconn.2.1, fun htorn => ?_⟩
      obtain ⟨sent, hwire, hsent⟩ := hconn.2.2 htorn
      exact ⟨sent, hwire, hsent, nofun⟩
  | ws items =>
      rw [hc] at hconn
      exact absurd rfl (hconn.1 msg fut)

/-- A send that has not torn the stream and is not in the middle of its frame
has written nothing. -/
theorem sent_nil_of_not_midFrame {w : Worker} {fmt : FrameFormat} {wire sent : List UInt8}
    {msg : Message} {fut : SendFut} (hconn : w.conn = .framed fmt wire)
    (hat : SendAt (frameBytes fmt msg) sent (.pending fut))
    (hmid : w.midFrame msg fut = false) : sent = [] := by
  have hlen : ¬ fut.left.length < (frameBytes fmt msg).length := by
    simpa only [Worker.midFrame, hconn, decide_eq_false_iff_not] using hmid
  have heq := congrArg List.length hat.1
  rw [List.length_append] at heq
  exact List.length_eq_zero_iff.mp (by omega)

theorem SendingOk.written {w : Worker} {msg : Message} {fut : SendFut} {n : Nat}
    (h : SendingOk w msg (.pending fut)) (hle : n ≤ fut.offered.length) :
    SendingOk { w.write (fut.offered.take n) with
      torn := w.torn || (n = 0 && w.midFrame msg fut) } msg (fut.resume (.ok n)) := by
  obtain ⟨fmt, wire, hconn, ⟨piece, ⟨before, pieces, hpieces, hgiven, rfl⟩, hpart⟩, hsent⟩ :=
    h.conn
  simp only [Worker.write, hconn]
  refine ⟨h.done, fmt, _, rfl,
    ⟨_, ⟨before, pieces, hpieces, hgiven, List.append_assoc _ _ _⟩, sendAt_written hpart hle⟩,
    fun htorn => ?_⟩
  obtain ⟨hold, hmid⟩ := Bool.or_eq_false_iff.mp htorn
  obtain ⟨sent, hwire, hat, -⟩ := hsent hold
  refine ⟨sent ++ fut.offered.take n, ?_, sendAt_written hat hle, ?_⟩
  · rw [hwire, List.append_assoc]
  · intro e he
    cases n with
    | zero =>
        have hmid' : w.midFrame msg fut = false := by simpa using hmid
        rw [sent_nil_of_not_midFrame hconn hat hmid', List.take_zero]
        rfl
    | succ n =>
        rcases resume_cases (Nat.succ_pos n) hle with ⟨fut', hres, -⟩ | ⟨hres, -⟩
        · rw [hres] at he
          cases he
        · rw [hres] at he
          cases he

/-- A send that ends here, by an error or because it is dropped. -/
theorem SendingOk.cut {w : Worker} {msg : Message} {fut : SendFut}
    (h : SendingOk w msg (.pending fut)) (e : String) :
    SendingOk { w with torn := w.torn || w.midFrame msg fut } msg (fut.resume (.err e)) := by
  obtain ⟨fmt, wire, hconn, ⟨piece, hpieces, hpart⟩, hsent⟩ := h.conn
  refine ⟨h.done, fmt, wire, hconn, ⟨piece, hpieces, sendAt_error hpart e⟩, fun htorn => ?_⟩
  obtain ⟨hold, hmid⟩ := Bool.or_eq_false_iff.mp htorn
  obtain ⟨sent, hwire, hat, -⟩ := hsent hold
  exact ⟨sent, hwire, sendAt_error hat e, fun _ _ => sent_nil_of_not_midFrame hconn hat hmid⟩

/-- The worker at whose turn it is, chosen for `msg`. -/
theorem WorkerOk.chosen {w : Worker} {fmt : FrameFormat} {wire : List UInt8}
    (h : WorkerOk w none) (hconn : w.conn = .framed fmt wire) (msg : Message) :
    SendingOk { w with given := w.given ++ [msg] } msg (sendStart fmt msg) := by
  have hok := h.conn
  rw [hconn] at hok
  have hdone := h.done
  rw [ongoing, List.append_nil] at hdone
  obtain ⟨-, ⟨sent, ⟨before, pieces, hpieces, hgiven, hwire⟩, rfl⟩, hplain⟩ := hok
  have hgiven' : before ++ [msg] = w.given ++ [msg] := by
    rw [← hgiven, ongoing, List.append_nil]
  refine ⟨hdone.append_right [msg], fmt, wire, hconn,
    ⟨[], ⟨before, pieces, hpieces, hgiven', hwire⟩, sendAt_start fmt msg⟩, fun htorn => ?_⟩
  obtain ⟨sent, hwire, rfl⟩ := hplain htorn
  refine ⟨[], hwire, sendAt_start fmt msg, fun _ _ => rfl⟩

/-! ## A send on its WebSocket -/

theorem WorkerOk.chosenWs {w : Worker} {items : List (List UInt8)}
    (h : WorkerOk w none) (hconn : w.conn = .ws items) (msg : Message) :
    WorkerOk { w with given := w.given ++ [msg] } (some (msg, .ws)) := by
  have hok := h.conn
  rw [hconn] at hok
  have hdone := h.done
  rw [ongoing, List.append_nil] at hdone
  refine ⟨hdone.append_right [msg], ?_⟩
  show WorkerConnOk _ _ w.conn
  rw [hconn]
  refine ⟨nofun, hok.2.1, ?_⟩
  have hitems := hok.2.2
  rw [ongoing, payloads, List.map_nil, List.append_nil] at hitems
  show (items ++ payloads [msg]).Sublist (payloads (w.given ++ [msg]))
  rw [payloads_append]
  exact hitems.append_right _

/-- The WebSocket has `items'` now, with the message or without it. -/
theorem WorkerOk.wsEnded {w : Worker} {msg : Message} (h : WorkerOk w (some (msg, .ws)))
    (passed : Bool) : WorkerOk (if passed then w.take msg else w) none := by
  have hok := h.conn
  have hdone : w.done.Sublist w.given := (List.sublist_append_left _ _).trans h.done
  cases hc : w.conn with
  | framed fmt wire =>
      rw [hc] at hok
      exact absurd rfl (hok.1 msg)
  | ws items =>
      rw [hc] at hok
      cases passed with
      | false =>
          refine ⟨by rw [ongoing, List.append_nil]; exact hdone, ?_⟩
          show WorkerConnOk _ _ w.conn
          rw [hc]
          refine ⟨nofun, hok.2.1, ?_⟩
          rw [ongoing, payloads, List.map_nil, List.append_nil]
          exact (List.sublist_append_left _ _).trans hok.2.2
      | true =>
          simp only [if_true, Worker.take, hc]
          refine ⟨by rw [ongoing, List.append_nil]; exact hdone, nofun, ?_, ?_⟩
          · exact hok.2.1.trans (List.sublist_append_left _ _)
          · rw [ongoing, payloads, List.map_nil, List.append_nil]
            exact hok.2.2

theorem WorkerOk.wsDone {w : Worker} {msg : Message} (h : WorkerOk w (some (msg, .ws))) :
    WorkerOk { w.take msg with done := w.done ++ [msg] } none := by
  have hok := h.conn
  cases hc : w.conn with
  | framed fmt wire =>
      rw [hc] at hok
      exact absurd rfl (hok.1 msg)
  | ws items =>
      rw [hc] at hok
      simp only [Worker.take, hc]
      refine ⟨by rw [ongoing, List.append_nil]; exact h.done, nofun, ?_, ?_⟩
      · show (payloads (w.done ++ [msg])).Sublist _
        rw [payloads_append]
        exact hok.2.1.append_right _
      · rw [ongoing, payloads, List.map_nil, List.append_nil]
        exact hok.2.2

/-! ## The socket -/

/-- The send of a call on worker `i` has come to `l'`, with the worker as `w'`. -/
structure Progress (s t : Push0Fan) (i : Nat) (w' : Worker)
    (l' : Option (Message × PushFut)) : Prop where
  workers : t.workers = s.workers.set i w'
  live : t.live = l'.map fun x => ⟨i, x.1, x.2⟩
  next : t.next = s.next
  pushed : t.pushed = s.pushed
  alive : t.panicked = s.panicked
  results : ∀ r ∈ t.results, r ∈ s.results ∨ r ≠ .error .noPeers

theorem ofTransport_ne_noPeers (e : TransportError) : NngError.ofTransport e ≠ .noPeers := by
  cases e <;> nofun

theorem progress_finish {s : Push0Fan} {i : Nat} (w' : Worker) {r : Except NngError Unit}
    (hr : r ≠ .error .noPeers) : Progress s ((s.setWorker i w').finish r) i w' none := by
  refine ⟨rfl, rfl, rfl, rfl, rfl, ?_⟩
  intro x hx
  rcases List.mem_append.mp hx with hx | hx
  · exact Or.inl hx
  · rw [List.mem_singleton.mp hx]
    exact Or.inr hr

theorem progress_settle {s : Push0Fan} {i : Nat} {w : Worker} {msg : Message} {poll : SendPoll}
    (h : SendingOk w msg poll) :
    ∃ w' l', Progress s (s.settle i w msg poll) i w' l' ∧ w'.given = w.given ∧
      WorkerOk w' l' := by
  match poll with
  | .pending fut =>
      exact ⟨w, some (msg, .framed fut), ⟨rfl, rfl, rfl, rfl, rfl, fun _ hr => Or.inl hr⟩, rfl,
        h.pending⟩
  | .ready (.ok ()) => exact ⟨_, none, progress_finish _ nofun, rfl, h.ok⟩
  | .ready (.error e) =>
      refine ⟨w, none, progress_finish w ?_, rfl, h.error⟩
      intro heq
      exact ofTransport_ne_noPeers e (Except.error.inj heq)

theorem take_given (w : Worker) (msg : Message) : (w.take msg).given = w.given := by
  unfold Worker.take
  split <;> rfl

theorem write_given (w : Worker) (bs : List UInt8) : (w.write bs).given = w.given := by
  unfold Worker.write
  split <;> rfl

/-- A call that has been dropped leaves its worker as a failed one does. -/
theorem progress_dropped {s : Push0Fan} {i : Nat} {w : Worker} {msg : Message} {fut : PushFut}
    (h : WorkerOk w (some (msg, fut))) (passed : Bool) :
    ∃ w', Progress s (s.dropped i w msg passed fut) i w' none ∧ w'.given = w.given ∧
      WorkerOk w' none := by
  cases fut with
  | framed fut =>
      exact ⟨_, ⟨rfl, rfl, rfl, rfl, rfl, fun _ hr => Or.inl hr⟩, rfl,
        SendingOk.error (h.sending.cut "")⟩
  | ws =>
      refine ⟨_, ⟨rfl, rfl, rfl, rfl, rfl, fun _ hr => Or.inl hr⟩, ?_, h.wsEnded passed⟩
      cases passed with
      | false => rfl
      | true => exact take_given w msg

/-- Everything a step can do: start a call, or move the send of one on. -/
theorem pushFan_moved {s t : Push0Fan} {a : PushAct} (hstep : s.step a = some t)
    (hlive : ∀ c w, s.live = some c → s.workers[c.worker]? = some w →
      WorkerOk w (some (c.msg, c.fut))) :
    (∃ msg, a = .push msg ∧ s.live = none ∧ t = s.push msg) ∨
    (PushAct.message a = none ∧ ∃ c w w' l', s.live = some c ∧ s.workers[c.worker]? = some w ∧
      Progress s t c.worker w' l' ∧ w'.given = w.given ∧ WorkerOk w' l') := by
  unfold Push0Fan.step at hstep
  split at hstep
  · next msg hl =>
      split at hstep
      · cases hstep
      · cases hstep
        exact Or.inl ⟨msg, rfl, hl, rfl⟩
  · next r i msg fut hl =>
      split at hstep
      · cases hstep
      · next w hw =>
          have hsending := (hlive _ w hl hw).sending
          refine Or.inr ⟨rfl, ⟨i, msg, .framed fut⟩, w, ?_⟩
          cases r with
          | ok n =>
              simp only [Push0Fan.written] at hstep
              split at hstep
              · next hle =>
                  cases hstep
                  obtain ⟨w', l', hp, hg, hok⟩ :=
                    progress_settle (s := s) (i := i) (hsending.written hle)
                  exact ⟨w', l', hl, hw, hp, hg.trans (write_given w _), hok⟩
              · cases hstep
          | err e =>
              cases hstep
              obtain ⟨w', l', hp, hg, hok⟩ :=
                progress_settle (s := s) (i := i) (hsending.cut e)
              exact ⟨w', l', hl, hw, hp, hg, hok⟩
  · next r passed i msg hl =>
      split at hstep
      · cases hstep
      · next w hw =>
          have hok := hlive _ w hl hw
          refine Or.inr ⟨rfl, ⟨i, msg, .ws⟩, w, ?_⟩
          cases r with
          | ok u =>
              simp only [Push0Fan.wsSent] at hstep
              split at hstep
              · cases hstep
                exact ⟨_, none, hl, hw, progress_finish _ nofun, take_given w msg, hok.wsDone⟩
              · cases hstep
          | error e =>
              cases hstep
              refine ⟨_, none, hl, hw, progress_finish _ nofun, ?_, hok.wsEnded passed⟩
              cases passed with
              | false => rfl
              | true => exact take_given w msg
  · next passed i msg fut hl =>
      split at hstep
      · cases hstep
      · next w hw =>
          cases hstep
          obtain ⟨w', hp, hg, hok⟩ :=
            progress_dropped (s := s) (i := i) (hlive _ w hl hw) passed
          exact Or.inr ⟨rfl, _, w, w', none, hl, hw, hp, hg, hok⟩
  · cases hstep

/-! ## Runs -/

/-- The send that is going on on worker `i`. -/
def liveOn (s : Push0Fan) (i : Nat) : Option (Message × PushFut) :=
  s.live.bind fun c => if c.worker = i then some (c.msg, c.fut) else none

structure PushInv (n : Nat) (s : Push0Fan) : Prop where
  count : s.workers.length = n
  alive : s.panicked = false
  turn : 0 < n → s.next = s.pushed.length % n
  given : ∀ i w, s.workers[i]? = some w → w.given = deal n i s.pushed
  worker : ∀ i w, s.workers[i]? = some w → WorkerOk w (liveOn s i)
  noPeers : Except.error NngError.noPeers ∈ s.results → n = 0
  nobody : n = 0 → s.pushed = [] ∧ ∀ r ∈ s.results, r = .error .noPeers

theorem PushInv.live {n : Nat} {s : Push0Fan} (h : PushInv n s) {c : PushCall} {w : Worker}
    (hc : s.live = some c) (hw : s.workers[c.worker]? = some w) :
    WorkerOk w (some (c.msg, c.fut)) := by
  have hok := h.worker c.worker w hw
  rw [liveOn, hc, Option.bind_some, if_pos rfl] at hok
  exact hok

theorem set_getElem?_cases {ws : List Worker} {i j : Nat} {w' w : Worker}
    (h : (ws.set i w')[j]? = some w) : (i = j ∧ w = w') ∨ (i ≠ j ∧ ws[j]? = some w) := by
  rw [List.getElem?_set] at h
  split at h
  · next heq =>
      split at h
      · exact Or.inl ⟨heq, (Option.some.inj h).symm⟩
      · cases h
  · next hne => exact Or.inr ⟨hne, h⟩

/-- The send of the live call has moved on. -/
theorem PushInv.progress {n : Nat} {s t : Push0Fan} (h : PushInv n s) {c : PushCall}
    {w w' : Worker} {l' : Option (Message × PushFut)} (hc : s.live = some c)
    (hw : s.workers[c.worker]? = some w) (hp : Progress s t c.worker w' l')
    (hgiven : w'.given = w.given) (hok : WorkerOk w' l') : PushInv n t := by
  have hpos : n ≠ 0 := by
    have hlt := (List.getElem?_eq_some_iff.mp hw).1
    rw [h.count] at hlt
    exact Nat.ne_zero_of_lt hlt
  refine ⟨?_, hp.alive.trans h.alive, ?_, ?_, ?_, ?_, fun h0 => absurd h0 hpos⟩
  · rw [hp.workers, List.length_set]
    exact h.count
  · intro hn
    rw [hp.next, hp.pushed]
    exact h.turn hn
  · intro i v hv
    rw [hp.workers] at hv
    rw [hp.pushed]
    rcases set_getElem?_cases hv with ⟨rfl, rfl⟩ | ⟨-, hold⟩
    · rw [hgiven]
      exact h.given _ w hw
    · exact h.given i v hold
  · intro i v hv
    rw [hp.workers] at hv
    rcases set_getElem?_cases hv with ⟨rfl, rfl⟩ | ⟨hne, hold⟩
    · have hl : liveOn t c.worker = l' := by
        rw [liveOn, hp.live]
        cases l' with
        | none => rfl
        | some x => exact if_pos rfl
      rw [hl]
      exact hok
    · have hl : liveOn t i = liveOn s i := by
        rw [liveOn, liveOn, hp.live, hc, Option.bind_some, if_neg hne]
        cases l' with
        | none => rfl
        | some x => exact if_neg hne
      rw [hl]
      exact h.worker i v hold
  · intro hmem
    rcases hp.results _ hmem with hold | hne
    · exact h.noPeers hold
    · exact absurd rfl hne

/-- The socket has chosen its worker for `msg`. -/
def turned (s : Push0Fan) (msg : Message) : Push0Fan :=
  { s with next := (s.next + 1) % s.workers.length, pushed := s.pushed ++ [msg] }

theorem PushInv.chosen {n : Nat} {s t : Push0Fan} (h : PushInv n s) (hlive : s.live = none)
    {msg : Message} {w w' : Worker} {l' : Option (Message × PushFut)}
    (hw : s.workers[s.next]? = some w) (hp : Progress (turned s msg) t s.next w' l')
    (hgiven : w'.given = w.given ++ [msg]) (hok : WorkerOk w' l') : PushInv n t := by
  have hn : 0 < n := by
    have hlt := (List.getElem?_eq_some_iff.mp hw).1
    rw [h.count] at hlt
    exact Nat.zero_lt_of_lt hlt
  have hpushed : t.pushed = s.pushed ++ [msg] := hp.pushed
  have hworkers : t.workers = s.workers.set s.next w' := hp.workers
  have hnone : ∀ i, liveOn s i = none := by
    intro i
    rw [liveOn, hlive]
    rfl
  refine ⟨?_, hp.alive.trans h.alive, ?_, ?_, ?_, ?_, fun h0 => absurd h0 (Nat.ne_of_gt hn)⟩
  · rw [hworkers, List.length_set]
    exact h.count
  · intro _
    rw [hp.next, hpushed, List.length_append]
    show (s.next + 1) % s.workers.length = (s.pushed.length + 1) % n
    rw [h.count, h.turn hn, Nat.mod_add_mod]
  · intro i v hv
    rw [hworkers] at hv
    rw [hpushed, deal_concat, ← h.turn hn]
    rcases set_getElem?_cases hv with ⟨rfl, rfl⟩ | ⟨hne, hold⟩
    · rw [hgiven, h.given _ w hw, if_pos rfl]
    · rw [if_neg hne, List.append_nil]
      exact h.given i v hold
  · intro i v hv
    rw [hworkers] at hv
    rcases set_getElem?_cases hv with ⟨rfl, rfl⟩ | ⟨hne, hold⟩
    · have hl : liveOn t s.next = l' := by
        rw [liveOn, hp.live]
        cases l' with
        | none => rfl
        | some x => exact if_pos rfl
      rw [hl]
      exact hok
    · have hl : liveOn t i = liveOn s i := by
        rw [hnone, liveOn, hp.live]
        cases l' with
        | none => rfl
        | some x => exact if_neg hne
      rw [hl]
      exact h.worker i v hold
  · intro hmem
    rcases hp.results _ hmem with hold | hne
    · exact h.noPeers hold
    · exact absurd rfl hne

/-- A call goes to the worker whose turn it is, if there is any. -/
theorem PushInv.push {n : Nat} {s : Push0Fan} (h : PushInv n s) (hlive : s.live = none)
    (msg : Message) : PushInv n (s.push msg) ∧
      (s.push msg).pushed = s.pushed ++ if n = 0 then [] else [msg] := by
  rcases Nat.eq_zero_or_pos n with rfl | hn
  · have hempty : s.workers = [] := List.length_eq_zero_iff.mp h.count
    obtain ⟨hpushed, hall⟩ := h.nobody rfl
    have hpush : s.push msg = s.finish (.error .noPeers) := by
      simp only [Push0Fan.push, hempty, List.isEmpty_nil, if_true]
    rw [hpush, if_pos rfl, List.append_nil]
    refine ⟨⟨h.count, h.alive, h.turn, h.given, ?_, fun _ => rfl, fun _ => ⟨hpushed, ?_⟩⟩, rfl⟩
    · intro i w hw
      rw [Push0Fan.finish, hempty] at hw
      cases hw
    · exact forall_mem_concat hall rfl
  · have hlt : s.next < s.workers.length := by
      rw [h.turn hn, h.count]
      exact Nat.mod_lt _ hn
    have hne : s.workers.isEmpty = false :=
      List.isEmpty_eq_false_iff.mpr (List.ne_nil_of_length_pos (by omega))
    have hw : s.workers[s.next]? = some (s.workers[s.next]) := List.getElem?_eq_getElem hlt
    have hidle : WorkerOk (s.workers[s.next]) none := by
      have hok := h.worker _ _ hw
      rwa [liveOn, hlive] at hok
    rw [if_neg (Nat.ne_of_gt hn)]
    simp only [Push0Fan.push, hne, Bool.false_eq_true, if_false, hw]
    split
    · next fmt wire hconn =>
        obtain ⟨w', l', hp, hg, hok⟩ := progress_settle (s := turned s msg) (i := s.next)
          (hidle.chosen hconn msg)
        exact ⟨h.chosen hlive hw hp hg hok, hp.pushed⟩
    · next items hconn =>
        exact ⟨h.chosen hlive hw ⟨rfl, rfl, rfl, rfl, rfl, fun _ hr => Or.inl hr⟩ rfl
          (hidle.chosenWs hconn msg), rfl⟩

theorem acceptLoop_workers {n : Nat} {workers : List Worker}
    {attempts : List (Option PushKind)}
    {out : List Worker} (hfresh : ∀ w ∈ workers, ∃ kind, w = .fresh kind)
    (hle : workers.length ≤ n) (h : Push0Fan.acceptLoop n workers attempts = some out) :
    out.length = n ∧ ∀ w ∈ out, ∃ kind, w = .fresh kind := by
  induction attempts generalizing workers with
  | nil =>
      rw [Push0Fan.acceptLoop] at h
      split at h
      · cases h
      · cases h
        exact ⟨by omega, hfresh⟩
  | cons a attempts ih =>
      unfold Push0Fan.acceptLoop at h
      split at h
      · next hlt =>
          cases a with
          | none => exact ih hfresh hle h
          | some kind =>
              refine ih (forall_mem_concat hfresh ⟨kind, rfl⟩) ?_ h
              rw [List.length_append]
              exact hlt
      · cases h
        exact ⟨by omega, hfresh⟩

theorem pushInv_listen {n : Nat} {attempts : List (Option PushKind)} {s : Push0Fan}
    (h : Push0Fan.listenAndAccept n attempts = some s) : PushInv n s := by
  obtain ⟨workers, hloop, rfl⟩ := Option.map_eq_some_iff.mp h
  obtain ⟨hlen, hfresh⟩ := acceptLoop_workers
    (fun _ hw => absurd hw List.not_mem_nil) (Nat.zero_le n) hloop
  refine ⟨hlen, rfl, fun _ => (Nat.zero_mod n).symm, ?_, ?_, nofun, fun _ => ⟨rfl, nofun⟩⟩
  · intro i w hw
    obtain ⟨kind, rfl⟩ := hfresh w (List.mem_of_getElem? hw)
    cases kind <;> rfl
  · intro i w hw
    obtain ⟨kind, rfl⟩ := hfresh w (List.mem_of_getElem? hw)
    exact workerOk_fresh kind

/-- A step adds to what was pushed the message of the call it starts. -/
theorem PushInv.step {n : Nat} {s t : Push0Fan} {a : PushAct} (h : PushInv n s)
    (hstep : s.step a = some t) : PushInv n t ∧
      (0 < n → t.pushed = s.pushed ++ (PushAct.message a).toList) := by
  rcases pushFan_moved hstep (fun c w hc hw => h.live hc hw) with
    ⟨msg, rfl, hlive, rfl⟩ | ⟨hnone, c, w, w', l', hc, hw, hp, hg, hok⟩
  · refine ⟨(h.push hlive msg).1, fun hn => ?_⟩
    rw [(h.push hlive msg).2, if_neg (Nat.ne_of_gt hn)]
    rfl
  · refine ⟨h.progress hc hw hp hg hok, fun _ => ?_⟩
    rw [hnone, hp.pushed]
    exact (List.append_nil _).symm

theorem pushInv_run {n : Nat} {s t : Push0Fan} {acts : List PushAct} (h : PushInv n s)
    (hrun : run Push0Fan.step s acts = some t) : PushInv n t ∧
      (0 < n → t.pushed = s.pushed ++ acts.filterMap PushAct.message) := by
  refine run_induction (I := fun bs u => PushInv n u ∧
    (0 < n → u.pushed = s.pushed ++ bs.filterMap PushAct.message)) ?_ ?_ hrun
  · exact ⟨h, fun _ => (List.append_nil _).symm⟩
  · intro bs u a v ⟨hu, hpushed⟩ hstep
    obtain ⟨hv, hmore⟩ := hu.step hstep
    refine ⟨hv, fun hn => ?_⟩
    rw [hmore hn, hpushed hn, List.filterMap_append, List.append_assoc]
    cases hm : PushAct.message a with
    | none => rw [List.filterMap_cons_none hm]; rfl
    | some msg => rw [List.filterMap_cons_some hm]; rfl

def twoWorkers : List (Option PushKind) := [some (.framed .tcp), none, some .ws]

def threeCalls : List PushAct :=
  [.push ⟨[], [1]⟩, .write (.ok 3), .drop false, .push ⟨[], [2]⟩, .sent (.ok ()) true,
    .push ⟨[], [3]⟩]

def threeCallsMade : Push0Fan where
  workers :=
    [⟨.framed .tcp [0, 0, 0], [⟨[], [1]⟩, ⟨[], [3]⟩], [], true⟩,
      ⟨.ws [[2]], [⟨[], [2]⟩], [⟨[], [2]⟩], false⟩]
  next := 1
  live := some ⟨0, ⟨[], [3]⟩, .framed ⟨[0, 0, 0, 0, 0, 0, 0, 1], 0, [[3]]⟩⟩
  pushed := [⟨[], [1]⟩, ⟨[], [2]⟩, ⟨[], [3]⟩]
  results := [.ok ()]
  panicked := false

/-- Any `n` calls in a row, however they end, give every worker one message more,
and it is that of one of the calls. -/
theorem push_serves_everyone (n : Nat) (attempts : List (Option PushKind))
    (acts acts' : List PushAct) {s₀ s t : Push0Fan}
    (hstart : Push0Fan.listenAndAccept n attempts = some s₀)
    (hrun : run Push0Fan.step s₀ acts = some s) (hrun' : run Push0Fan.step s acts' = some t)
    (hcalls : (acts'.filterMap PushAct.message).length = n) {i : Nat} {w w' : Worker}
    (hw : s.workers[i]? = some w) (hw' : t.workers[i]? = some w') :
    ∃ msg ∈ acts'.filterMap PushAct.message, w'.given = w.given ++ [msg] := by
  obtain ⟨hs, -⟩ := pushInv_run (pushInv_listen hstart) hrun
  obtain ⟨ht, hpushed⟩ := pushInv_run hs hrun'
  have hi : i < n := by
    have hlt := (List.getElem?_eq_some_iff.mp hw).1
    rwa [hs.count] at hlt
  obtain ⟨msg, hmem, hone⟩ := source_window hi s.pushed.length hcalls
  refine ⟨msg, hmem, ?_⟩
  rw [ht.given i w' hw', hs.given i w hw, hpushed (Nat.zero_lt_of_lt hi), deal_append, hone]

def twoCalls : List PushAct :=
  [.drop false, .push ⟨[], [4]⟩, .sent (.error "reset") false, .push ⟨[], [5]⟩]

theorem push_serves_everyone_two_calls :
    ∃ t : Push0Fan, run Push0Fan.step threeCallsMade twoCalls = some t ∧
      ∃ w w', threeCallsMade.workers[1]? = some w ∧ t.workers[1]? = some w' ∧
        ∃ msg ∈ ([⟨[], [4]⟩, ⟨[], [5]⟩] : List Message), w'.given = w.given ++ [msg] :=
  ⟨_, rfl, _, _, rfl, rfl, push_serves_everyone 2 twoWorkers threeCalls twoCalls
    (s := threeCallsMade) rfl (by decide +kernel) rfl rfl (i := 1) rfl rfl⟩

end NngCore.Proofs
