import NngCore.Proofs.Send

/-!
# From send to recv, whatever the stream does to the bytes

Two machines meet on a byte stream: a sender that hands over its frames in
whatever pieces the writes accept, and a receiver that takes them in whatever
pieces the reads return and may be abandoned between any two. Neither needs to
know the other's pieces. The sender's side of the argument is that the bytes
written so far, the bytes its live future still has to write and the frames
not yet begun are, in that order, the frames of the messages; the receiver's
side is that it stands somewhere in the bytes written. Since frames delimit
themselves, the items the receiver has answered for can only be the first
frames sent.
-/

namespace NngCore.Proofs

open NngCore.Lib NngCore.Ref NngCore.Spec

variable {fmt : FrameFormat}

/-- The bytes a session has still to write for the `send` in progress. -/
def sendLeft : Option SendFut → List UInt8
  | some fut => fut.left
  | none => []

/-- The session's invariant: the receiver stands somewhere in what was written,
what was written is a prefix of the frames, and an end of stream was reported
only when the sender was through. -/
structure InSession (fmt : FrameFormat) (msgs : List Message) (s : Session)
    (written : List UInt8) (items : List (framing .w64 fmt).Item) (p : List UInt8)
    (n : Nat) : Prop where
  receiver : At .w64 fmt written s.inbound items p n
  sender : written ++ sendLeft s.sending ++ s.toSend.flatMap (frameBytes fmt) =
    msgs.flatMap (frameBytes fmt)
  through : 0 < n → s.toSend = [] ∧ s.sending = none

theorem inSession_start (fmt : FrameFormat) (msgs : List Message) :
    InSession fmt msgs (.start msgs) [] [] [] 0 where
  receiver := at_fresh .w64 fmt () []
  sender := rfl
  through := fun h => absurd h (Nat.lt_irrefl 0)

theorem sendLeft_settle (s : Session) (poll : SendPoll) :
    sendLeft (s.settle poll).sending = pollLeft poll := by
  cases poll <;> rfl

/-- More bytes arriving does not move the receiver. -/
theorem At.arrive {K S : Type} {w : PointerWidth} {src bs : List UInt8}
    {i : Inbound K S} {items : List (framing w fmt).Item} {p : List UInt8}
    (h : At w fmt src i items p 0) :
    At w fmt (src ++ bs) { i with input := i.input ++ bs } items p 0 where
  sound := h.sound
  bytes := by
    rw [← h.bytes]
    simp only [List.append_assoc]
  results := h.results
  ended := fun hpos => absurd hpos (Nat.lt_irrefl 0)

/-- No end was reported to a receiver whose sender has work left. -/
theorem InSession.not_ended {msgs : List Message} {s : Session} {written : List UInt8}
    {items : List (framing .w64 fmt).Item} {p : List UInt8} {n : Nat}
    (h : InSession fmt msgs s written items p n)
    (hwork : ¬ (s.toSend = [] ∧ s.sending = none)) : n = 0 :=
  Nat.eq_zero_of_not_pos fun hpos => hwork (h.through hpos)

/-- Every step of a session keeps the invariant. -/
theorem InSession.step {msgs : List Message} {s s' : Session} {written : List UInt8}
    {items : List (framing .w64 fmt).Item} {p : List UInt8} {n : Nat} {a : SessionAct}
    (h : InSession fmt msgs s written items p n) (hstep : s.step fmt a = some s') :
    ∃ written' items' p' n', InSession fmt msgs s' written' items' p' n' := by
  have hsender := h.sender
  cases a with
  | send =>
      simp only [Session.step] at hstep
      split at hstep
      · next m rest hnone hsome =>
          cases hstep
          have hn : n = 0 := by
            apply h.not_ended
            rintro ⟨hdone, -⟩
            exact List.cons_ne_nil m rest (hsome.symm.trans hdone)
          subst hn
          refine ⟨written, items, p, 0, ?_, ?_, fun hpos => absurd hpos (Nat.lt_irrefl 0)⟩
          · cases hpoll : sendStart fmt m <;> exact h.receiver
          · rw [sendLeft_settle, sendStart_left, ← hsender, hnone, hsome]
            show written ++ frameBytes fmt m ++
              (({ s with toSend := rest }.settle (sendStart fmt m)).toSend).flatMap
                (frameBytes fmt) = _
            have htail : ({ s with toSend := rest }.settle (sendStart fmt m)).toSend =
                rest := by
              cases sendStart fmt m <;> rfl
            rw [htail, List.flatMap_cons]
            simp only [sendLeft, List.append_nil, List.append_assoc]
      · cases hstep
  | write m =>
      simp only [Session.step] at hstep
      split at hstep
      · cases hstep
      · next fut hsome =>
          split at hstep
          · next hm =>
              cases hstep
              have hn : n = 0 := by
                apply h.not_ended
                rintro ⟨-, hidle⟩
                rw [hidle] at hsome
                cases hsome
              subst hn
              have hleft := resume_left hm.1 hm.2
              have hrest : ((s.arrive (fut.offered.take m)).settle
                  (fut.resume (.ok m))).toSend = s.toSend := by
                cases fut.resume (.ok m) <;> rfl
              refine ⟨written ++ fut.offered.take m, items, p, 0, ?_, ?_,
                fun hpos => absurd hpos (Nat.lt_irrefl 0)⟩
              · cases fut.resume (.ok m) <;> exact h.receiver.arrive
              · rw [sendLeft_settle, hrest, ← hsender, hsome]
                show _ = written ++ fut.left ++ _
                rw [← hleft]
                simp only [List.append_assoc]
          · cases hstep
  | inbound a =>
      simp only [Session.step] at hstep
      split at hstep
      · cases hstep
      · next hopen =>
          split at hstep
          · cases hstep
          · next i hin =>
              cases hstep
              obtain ⟨items', p', n', hat, hkeep⟩ := h.receiver.step sized_vecZeroed hin
              refine ⟨written, items', p', n', hat, hsender, fun hpos => ?_⟩
              by_cases heof : a = .eof
              · simpa [heof] using hopen
              · rw [hkeep heof] at hpos
                exact h.through hpos

theorem inSession_run {msgs : List Message} {acts : List SessionAct} {s : Session}
    (hrun : run (Session.step fmt) (.start msgs) acts = some s) :
    ∃ written items p n, InSession fmt msgs s written items p n :=
  run_invariant (I := fun s => ∃ written items p n, InSession fmt msgs s written items p n)
    ⟨[], [], [], 0, inSession_start fmt msgs⟩
    (fun _ _ _ ⟨_, _, _, _, h⟩ hstep => h.step hstep) hrun

/-- What the `recv` calls returned, read off the items answered for. -/
theorem delivered_eq {msgs : List Message} {s : Session} {written : List UInt8}
    {items : List (framing .w64 fmt).Item} {p : List UInt8} {n : Nat}
    (h : InSession fmt msgs s written items p n) :
    s.delivered = (items.map (answer .w64 fmt)).filterMap Except.toOption := by
  have hclosed : (List.replicate n
      (Except.error TransportError.closed : Except TransportError Message)).filterMap
        Except.toOption = [] := by
    rw [List.filterMap_replicate]
    rfl
  rw [Session.delivered, h.receiver.results, List.filterMap_append, hclosed,
    List.append_nil]

/-- End-to-end framing: whatever the writes accept, whatever the reads return
and however often a receive is abandoned and taken up again, the messages
received are the first of the messages sent, each with its header in front of
its body, and they are all of them once every byte has been read. -/
theorem session_delivers (fmt : FrameFormat) (msgs : List Message)
    (hsize : ∀ m ∈ msgs, m.len ≤ maxFrameBytes) (acts : List SessionAct) (s : Session)
    (hrun : run (Session.step fmt) (.start msgs) acts = some s) :
    s.delivered <+: msgs.map Message.received ∧
      (s.AllRead → s.delivered = msgs.map Message.received) := by
  obtain ⟨written, items, p, n, h⟩ := inSession_run hrun
  obtain ⟨ys, henc, hans⟩ := frames_items .w64 fmt hsize
  have hall : msgs.map Message.received =
      (ys.map (answer .w64 fmt)).filterMap Except.toOption := by
    rw [hans, List.filterMap_map]
    exact (congrFun List.filterMap_eq_map' msgs).symm
  rw [delivered_eq h, hall]
  have hstream : (framing .w64 fmt).encode items ++ p ++ s.inbound.input ++
      sendLeft s.sending ++ s.toSend.flatMap (frameBytes fmt) =
        (framing .w64 fmt).encode ys := by
    rw [h.receiver.bytes, h.sender, henc]
  constructor
  · have hpre : items <+: ys := by
      refine Framing.prefix_of_encode_prefix Framing.partial_nil ?_
      rw [← hstream]
      simp only [List.append_assoc]
      exact List.prefix_append _ _
    exact (hpre.map _).filterMap _
  · rintro ⟨htodo, hnone, hread⟩
    rw [htodo, hnone, hread] at hstream
    simp only [sendLeft, List.flatMap_nil, List.append_nil] at hstream
    rw [(Framing.eq_of_encode_eq h.receiver.sound.hold.isPartial hstream).1]

/-- One message over TCP framing: the header arrives in two pieces, and the
receive is dropped after the first of them. -/
theorem session_delivers_dropped :
    Session.delivered
      ⟨[], none, ⟨⟨⟨.idle, #v[0, 0, 0, 0, 0, 0, 0, 3, 0], 8, [], 3⟩, (), none,
        [.ok ⟨[], [1, 2, 3]⟩], false⟩, []⟩⟩ = [⟨[], [1, 2, 3]⟩] :=
  (session_delivers .tcp [⟨[1], [2, 3]⟩] (by decide)
    [.send, .write 8, .inbound (.call ()), .inbound (.read 5), .inbound .drop,
      .write 1, .inbound (.call ()), .inbound (.read 3), .write 2,
      .inbound (.read 2), .inbound (.read 1)] _ (by decide)).2 ⟨rfl, rfl, rfl⟩

end NngCore.Proofs
