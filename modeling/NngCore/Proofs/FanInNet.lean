import NngCore.Proofs.FanOrder
import NngCore.Proofs.SendSide
import NngCore.Spec.FanInNet

/-!
# Pushed once, pulled at most once

Three things that are known already are put together: what a push socket leaves
on its connections (`SendSide`), that what is received on a connection is what was
written on it (`Wire`), and that a fan hands out what its readers received, each
reader's messages in order (`FanOrder`). Between them, nothing that was written is
taken back, and a reader has received what its receives returned.
-/

namespace NngCore.Proofs

open NngCore.Lib NngCore.Ref NngCore.Spec NngCore.Ref.Pull0Fan

variable {w : PointerWidth}

/-- An element gives way to one that looks the same. -/
theorem map_set_same {α β : Type} {f : α → β} {l : List α} {i : Nat} {x y : α}
    (hx : l[i]? = some x) (hsame : f y = f x) : (l.set i y).map f = l.map f := by
  have hmap : (l.map f)[i]? = some (f y) := by
    rw [List.getElem?_map, hx, hsame]
    rfl
  obtain ⟨hlt, hget⟩ := List.getElem?_eq_some_iff.mp hmap
  rw [List.map_set, ← hget]
  exact List.set_getElem_self hlt

/-- The messages a reader was given. -/
def givenOf (l : FanInLine) : List Message :=
  (l.conn.recv.results.take l.given).filterMap Except.toOption

structure FanInInv (w : PointerWidth) (s : FanInNet) : Prop where
  pushers : ∀ v ∈ s.pushers, SendSideInv v
  conns : ∀ l ∈ s.lines, ∃ line, s.sender l = some line ∧
    (∃ items p, FramedAt w line.conn.fmt l.conn items p) ∧ l.conn.took <+: line.conn.wire
  readers : s.fan.readers.map Reader.received = s.lines.map givenOf
  books : s.fan.chan.receiver = true → Accounted (passed s.fan) s.fan.readers
  distinct : (s.lines.map fun l => (l.pusher, l.line)).Nodup

/-! ## The fan -/

/-- What is not the business of a reader's receive leaves it as it is. -/
theorem fan_received_same {f g : Pull0Fan} {a : FanAct} (hmove : FanMoved f a g)
    (hadd : a ≠ .addPusher) (hrecv : ∀ i r, a ≠ .received i r) :
    g.readers.map Reader.received = f.readers.map Reader.received := by
  cases hmove with
  | spawned hopen => exact absurd rfl hadd
  | received hr hp => exact absurd rfl (hrecv _ _)
  | forwarded hr hp hopen hroom => exact map_set_same hr rfl
  | failed hr hp hopen hroom => exact map_set_same hr rfl
  | abandoned hr hp hgone => exact map_set_same hr rfl
  | cancelled hr hp hgone => exact map_set_same hr rfl
  | polled ha hcall =>
      rw [show f.poll.2.readers = f.readers from (recvLoop_passed f _).2]
  | dropped hopen => rfl

theorem FanInInv.fan {s : FanInNet} {f : Pull0Fan} {a : FanAct} (h : FanInInv w s)
    (hstep : s.fan.step a = some f) (hadd : a ≠ .addPusher)
    (hrecv : ∀ i r, a ≠ .received i r) :
    FanInInv w { s with fan := f } where
  pushers := h.pushers
  conns := h.conns
  readers := (fan_received_same (fan_moved hstep) hadd hrecv).trans h.readers
  books := accounted_step h.books (fan_moved hstep)
  distinct := h.distinct

/-! ## The other steps -/

theorem FanInInv.push {s : FanInNet} {p : Nat} {v v' : SendSide} {a : SendSideAct}
    (h : FanInInv w s)
    (hv : s.pushers[p]? = some v) (hstep : v.step a = some v') :
    FanInInv w { s with pushers := s.pushers.set p v' } where
  pushers u hu := by
    rcases List.mem_or_eq_of_mem_set hu with hu | rfl
    · exact h.pushers u hu
    · exact (h.pushers v (List.mem_of_getElem? hv)).step hstep
  conns l hl := by
    obtain ⟨line, hsender, hat, htook⟩ := h.conns l hl
    by_cases hp : p = l.pusher
    · subst hp
      have hgrows := (h.pushers v (List.mem_of_getElem? hv)).grows hstep
      rw [FanInNet.sender, hv] at hsender
      obtain ⟨line', hline', hfmt, hwire⟩ := hgrows.get hsender
      refine ⟨line', ?_, ?_, htook.trans hwire⟩
      · rw [FanInNet.sender, List.getElem?_set_self (List.getElem?_eq_some_iff.mp hv).1]
        exact hline'
      · rw [hfmt]
        exact hat
    · refine ⟨line, ?_, hat, htook⟩
      rw [FanInNet.sender, List.getElem?_set_ne hp]
      exact hsender
  readers := h.readers
  books := h.books
  distinct := h.distinct

theorem FanInInv.accept {s t : FanInNet} {p k : Nat} (h : FanInInv w s)
    (hstep : s.accept p k = some t) : FanInInv w t := by
  unfold FanInNet.accept at hstep
  split at hstep
  · cases hstep
  · next line hline =>
      split at hstep
      · cases hstep
      · next hnew =>
          split at hstep
          · cases hstep
          · next f hf =>
              cases hstep
              refine ⟨h.pushers, ?_, ?_, accounted_step h.books (fan_moved hf), ?_⟩
              · refine forall_mem_concat h.conns ⟨line, hline, ⟨[], [], framedAt_fresh⟩, ?_⟩
                exact List.nil_prefix
              · cases fan_moved hf with
                | spawned hopen =>
                    show (s.fan.readers ++ [Reader.spawned]).map _ = (s.lines ++ [_]).map _
                    rw [List.map_append, List.map_append, h.readers]
                    rfl
                | polled ha => rcases ha with ha | ha <;> cases ha
              · rw [List.map_append]
                refine List.nodup_append.mpr ⟨h.distinct, List.pairwise_singleton _ _, ?_⟩
                intro x hx y hy hxy
                rw [hxy, List.mem_singleton.mp hy] at hx
                exact hnew hx

/-- A line is replaced by one of the same connection. -/
theorem FanInInv.set_line {s : FanInNet} {i : Nat} {l l' : FanInLine} {f : Pull0Fan}
    (h : FanInInv w s) (hl : s.lines[i]? = some l)
    (hsame : (l'.pusher, l'.line) = (l.pusher, l.line))
    (hconn : ∃ line, s.sender l' = some line ∧
      (∃ items p, FramedAt w line.conn.fmt l'.conn items p) ∧ l'.conn.took <+: line.conn.wire)
    (hreaders : f.readers.map Reader.received = (s.lines.set i l').map givenOf)
    (hbooks : f.chan.receiver = true → Accounted (passed f) f.readers) :
    FanInInv w { s with fan := f, lines := s.lines.set i l' } where
  pushers := h.pushers
  conns m hm := by
    rcases List.mem_or_eq_of_mem_set hm with hm | rfl
    · exact h.conns m hm
    · exact hconn
  readers := hreaders
  books := hbooks
  distinct := by
    have hlines : (s.lines.set i l').map (fun l => (l.pusher, l.line)) =
        s.lines.map fun l => (l.pusher, l.line) := map_set_same hl hsame
    show ((s.lines.set i l').map fun l => (l.pusher, l.line)).Nodup
    rw [hlines]
    exact h.distinct

theorem FanInInv.read {s t : FanInNet} {i : Nat} {a : RecvAct Unit} (h : FanInInv w s)
    (hstep : s.read w i a = some t) : FanInInv w t := by
  unfold FanInNet.read at hstep
  split at hstep
  · cases hstep
  · next l hl =>
      split at hstep
      · cases hstep
      · next line hline =>
          split at hstep
          · next hgiven =>
              split at hstep
              · cases hstep
              · next c hc =>
                  split at hstep
                  · next hpre =>
                      cases hstep
                      obtain ⟨line', hline', ⟨items, p, hat⟩, -⟩ :=
                        h.conns l (List.mem_of_getElem? hl)
                      cases hline.symm.trans hline'
                      refine h.set_line hl rfl ⟨line, hline, hat.step hc,
                        List.isPrefixOf_iff_prefix.mp hpre⟩ ?_ h.books
                      -- what was given before is all that was there before
                      obtain ⟨-, rs, -, -, hres⟩ :=
                        hat.sound.step sized_vecZeroed (framedConn_step hc).1
                      have hsame : givenOf { l with conn := c } = givenOf l := by
                        rw [givenOf, givenOf, hres, hgiven, List.take_left, List.take_length]
                      exact h.readers.trans (map_set_same hl hsame).symm
                  · cases hstep
          · cases hstep

theorem FanInInv.received {s t : FanInNet} {i : Nat} (h : FanInInv w s)
    (hstep : s.received i = some t) : FanInInv w t := by
  unfold FanInNet.received at hstep
  split at hstep
  · cases hstep
  · next l hl =>
      split at hstep
      · cases hstep
      · next r hr =>
          split at hstep
          · cases hstep
          · next f hf =>
              cases hstep
              refine h.set_line hl rfl (h.conns l (List.mem_of_getElem? hl)) ?_
                (accounted_step h.books (fan_moved hf))
              cases fan_moved hf with
              | @received _ reader _ hreader hp =>
                  have hold : reader.received = givenOf l := by
                    have hget := congrArg (·[i]?) h.readers
                    simp only [List.getElem?_map, hreader, hl, Option.map_some] at hget
                    exact Option.some.inj hget
                  have hnew : givenOf { l with given := l.given + 1 } =
                      givenOf l ++ (r.mapError NngError.ofTransport).toOption.toList := by
                    show (l.conn.recv.results.take (l.given + 1)).filterMap Except.toOption = _
                    rw [List.take_add_one, hr, List.filterMap_append, givenOf]
                    cases r <;> rfl
                  show (s.fan.readers.set i _).map Reader.received =
                    (s.lines.set i _).map givenOf
                  rw [List.map_set, List.map_set, h.readers, hnew, ← hold]
              | polled ha => rcases ha with ha | ha <;> cases ha

theorem FanInInv.step {s t : FanInNet} {a : FanInAct} (h : FanInInv w s)
    (hstep : s.step w a = some t) : FanInInv w t := by
  unfold FanInNet.step at hstep
  split at hstep
  · split at hstep
    · cases hstep
    · next v hv =>
        obtain ⟨v', hv', rfl⟩ := Option.map_eq_some_iff.mp hstep
        exact h.push hv hv'
  · exact h.accept hstep
  · exact h.read hstep
  · exact h.received hstep
  · cases hstep
  · cases hstep
  · next a hadd hrecv =>
      obtain ⟨f, hf, rfl⟩ := Option.map_eq_some_iff.mp hstep
      exact h.fan hf (fun heq => hadd heq) fun i r heq => hrecv i r heq

/-- What went through a connection to its reader. -/
theorem FanInInv.messages {s : FanInNet} (h : FanInInv w s) {l : FanInLine} (hl : l ∈ s.lines)
    {v : SendSide} (hv : s.pushers[l.pusher]? = some v) {line : SendLine}
    (hline : v.lines[l.line]? = some line) (htorn : line.torn = false)
    (hfit : ∀ m ∈ v.sent, m.len ≤ maxFrameBytes) :
    l.conn.recv.results.filterMap Except.toOption <+: line.done.map Message.received ∧
      (l.conn.took = line.conn.wire →
        l.conn.recv.results.filterMap Except.toOption = line.done.map Message.received) := by
  obtain ⟨line', hsender, ⟨items, p, hat⟩, htook⟩ := h.conns l hl
  rw [FanInNet.sender, hv] at hsender
  cases hline.symm.trans hsender
  exact (h.pushers v (List.mem_of_getElem? hv)).messages
    (List.mem_of_getElem? hline) htorn hfit
    hat.ownFrames htook

/-- What a reader was given is with the caller, in the channel or in its hands. -/
theorem FanInInv.flow {s : FanInNet} (h : FanInInv w s) (halive : s.fan.chan.receiver = true)
    {i : Nat} {l : FanInLine} (hl : s.lines[i]? = some l) :
    source i (flow s.fan) = givenOf l := by
  rw [(forwardedOnce_of_accounted (h.books halive)).ordered i, receivedBy, h.readers,
    List.getElem?_map, hl]
  rfl

theorem pulled_prefix_flow (f : Pull0Fan) (i : Nat) :
    source i f.pulled <+: source i (Spec.flow f) := by
  rw [Spec.flow, List.append_assoc, source_append]
  exact List.prefix_append _ _

theorem FanInInv.order {s : FanInNet} (h : FanInInv w s) (halive : s.fan.chan.receiver = true)
    {p k : Nat} {v : SendSide} {line : SendLine} (hv : s.pushers[p]? = some v)
    (hline : v.lines[k]? = some line) (htorn : line.torn = false)
    (hfit : ∀ m ∈ v.sent, m.len ≤ maxFrameBytes) :
    pulledFrom s p k <+: line.done.map Message.received := by
  unfold pulledFrom
  split
  · next i hi =>
      obtain ⟨hlt, hown, -⟩ := List.findIdx?_eq_some_iff_getElem.mp hi
      obtain ⟨hp, hk⟩ := of_decide_eq_true hown
      have hl : s.lines[i]? = some s.lines[i] := List.getElem?_eq_getElem hlt
      have hmsgs := h.messages (List.getElem_mem hlt) (hp ▸ hv) (hk ▸ hline) htorn hfit
      have hgiven : givenOf s.lines[i] <+: _ :=
        (List.take_prefix s.lines[i].given _).filterMap Except.toOption
      exact ((h.flow halive hl ▸ pulled_prefix_flow s.fan i).trans hgiven).trans hmsgs.1
  · exact List.nil_prefix

end NngCore.Proofs
