import NngCore.Proofs.Decode
import NngCore.Proofs.Request
import NngCore.Spec.Request

/-!
# What abandoned calls leave on the wire

As long as every send runs to its end the connection holds whole frames, and
while one is going on it holds the beginning of one more. A send that is
dropped, or fails, inside its frame leaves that beginning behind, and that is
still in order; what is not is the next call's frame behind it, which a server
reads as the rest of the old one. So the invariant needs one thing of a run,
that nothing is written behind such a tear, and then it carries the frames and
everything a server makes of them.
-/

namespace NngCore.Proofs

open NngCore.Lib NngCore.Ref NngCore.Spec

variable {fmt : FrameFormat}

/-! ## The bytes -/

/-- The message the live call is about. -/
def Doing.Known (iss : List Message) : Doing → Prop
  | .nothing => True
  | .sending m _ => m ∈ iss
  | .waiting m => m ∈ iss
  | .redialing m _ => m ∈ iss

/-- What stands behind the whole frames: some of an issued request's frame once
the connection is torn, and before that what the live send has written. -/
def Tail (fmt : FrameFormat) (conn : Conn) (iss : List Message) (part : List UInt8) :
    Doing → Prop
  | .sending m fut => fut.offered ≠ [] ∧
      if conn.torn then Incomplete fmt iss part else part ++ fut.left = frameBytes fmt m
  | _ => if conn.torn then Incomplete fmt iss part else part = []

structure Framed (fmt : FrameFormat) (conn : Conn) (iss : List Message) (d : Doing) :
    Prop where
  sizes : ∀ m ∈ iss, m.len < 2 ^ 64
  known : d.Known iss
  frames : ∃ (msgs : List Message) (part : List UInt8),
    conn.wire = msgs.flatMap (frameBytes fmt) ++ part ∧ (∀ m ∈ msgs, m ∈ iss) ∧
      Tail fmt conn iss part d

theorem Incomplete.mono {iss iss' : List Message} {part : List UInt8}
    (h : Incomplete fmt iss part) (hsub : ∀ m ∈ iss, m ∈ iss') :
    Incomplete fmt iss' part := by
  obtain ⟨m, hm, hpart⟩ := h
  exact ⟨m, hsub m hm, hpart⟩

/-- A call that is not sending starts to send behind the same bytes. -/
theorem tail_start {conn : Conn} {iss iss' : List Message} {part : List UInt8} {d : Doing}
    {m : Message} {fut : SendFut} (h : Tail fmt conn iss part d)
    (hd : ∀ m' fut', d ≠ .sending m' fut') (hsub : ∀ m ∈ iss, m ∈ iss')
    (hfut : fut.left = frameBytes fmt m) (hoff : fut.offered ≠ []) :
    Tail fmt conn iss' part (.sending m fut) := by
  refine ⟨hoff, ?_⟩
  have hrest : if conn.torn then Incomplete fmt iss part else part = [] := by
    cases d with
    | sending m' fut' => exact absurd rfl (hd m' fut')
    | nothing => exact h
    | waiting m' => exact h
    | redialing m' op => exact h
  split at hrest
  · next htorn =>
      rw [if_pos htorn]
      exact Incomplete.mono hrest hsub
  · next hwhole =>
      rw [if_neg hwhole, hrest, List.nil_append, hfut]

/-- A send that ends inside its frame leaves some of it, and one that ends in
front of it nothing. -/
theorem tail_broke {conn : Conn} {iss : List Message} {part : List UInt8} {m : Message}
    {fut : SendFut} (hm : m ∈ iss) (h : Tail fmt conn iss part (.sending m fut)) :
    let b := decide (fut.left.length < (frameBytes fmt m).length)
    if (conn.tear b).torn then Incomplete fmt iss part else part = [] := by
  obtain ⟨hoff, htail⟩ := h
  intro b
  show if (conn.torn || b) = true then _ else _
  split at htail
  · next htorn =>
      rw [if_pos (by rw [htorn, Bool.true_or])]
      exact htail
  · next hwhole =>
      have hlen := congrArg List.length htail
      rw [List.length_append] at hlen
      rw [Bool.eq_false_of_not_eq_true hwhole, Bool.false_or]
      by_cases hmid : fut.left.length < (frameBytes fmt m).length
      · rw [if_pos (decide_eq_true hmid)]
        refine ⟨m, hm, ⟨fut.left, htail⟩, fun heq => ?_⟩
        have hnil : fut.left = [] := by
          rw [← heq] at htail
          exact List.append_right_eq_self.mp htail
        exact left_ne_nil hoff hnil
      · rw [if_neg (by simpa [b] using hmid)]
        exact List.length_eq_zero_iff.mp (by omega)

/-- Bytes are written on a connection only while its frames are whole. -/
theorem whole_of_write {conn : Conn} {n : Nat} (hpos : 0 < n)
    (hadm : ¬ (conn.torn = true ∧ writesBytes (.write (.ok n)) = true)) :
    ¬ conn.torn = true := by
  intro htorn
  refine hadm ⟨htorn, ?_⟩
  obtain ⟨k, rfl⟩ : ∃ k, n = k + 1 := ⟨n - 1, by omega⟩
  rfl

theorem Moved.framed {a : Req0Act} {conn conn' : Conn} {iss iss' : List Message}
    {d d' : Doing} (h : Moved fmt a conn iss d conn' iss' d') (hf : Framed fmt conn iss d)
    (hadm : ¬ (conn.torn = true ∧ writesBytes a = true)) : Framed fmt conn' iss' d' := by
  obtain ⟨hsizes, hknown, msgs, part, hwire, hmsgs, htail⟩ := hf
  have hfresh : ∀ d, d.Known iss → Tail fmt Conn.fresh iss [] d → Framed fmt .fresh iss d :=
    fun d hd ht => ⟨hsizes, hd, [], [], rfl, nofun, ht⟩
  cases h with
  | @issued _ _ msg m fut hlen hfut hoff =>
      have hsub : ∀ x ∈ iss, x ∈ iss ++ [m] := fun x hx => List.mem_append_left _ hx
      refine ⟨?_, List.mem_append_right _ (List.mem_singleton_self m), msgs, part, hwire,
        fun x hx => hsub x (hmsgs x hx), ?_⟩
      · exact forall_mem_concat hsizes hlen
      · have hstart : Tail fmt conn (iss ++ [m]) part (.sending m fut) :=
          tail_start htail nofun hsub hfut hoff
        exact hstart
  | @resent _ _ m fut _ hd hfut hoff =>
      have hm : m ∈ iss := by
        rcases hd with rfl | rfl
        · exact hknown
        · exact hknown
      refine ⟨hsizes, hm, msgs, part, hwire, hmsgs,
        tail_start htail ?_ (fun x hx => hx) hfut hoff⟩
      intro m' fut'
      rcases hd with rfl | rfl
      · exact nofun
      · exact nofun
  | redialedSend hfut hoff => exact hfresh _ hknown ⟨hoff, by rw [hfut]; rfl⟩
  | redialedRecv => exact hfresh _ hknown rfl
  | @wrote _ _ m fut fut' n hpos hleft hoff =>
      have hwhole := whole_of_write hpos hadm
      obtain ⟨_, htail⟩ := htail
      rw [if_neg hwhole] at htail
      refine ⟨hsizes, hknown, msgs, part ++ fut.offered.take n, ?_, hmsgs, hoff, ?_⟩
      · show conn.wire ++ _ = _
        rw [hwire, List.append_assoc]
      · show if conn.torn = true then _ else _
        rw [if_neg hwhole, List.append_assoc, hleft, htail]
  | @completed _ _ m fut n hpos hleft =>
      have hwhole := whole_of_write hpos hadm
      obtain ⟨_, htail⟩ := htail
      rw [if_neg hwhole] at htail
      refine ⟨hsizes, hknown, msgs ++ [m], [], ?_, ?_, ?_⟩
      · show conn.wire ++ _ = _
        rw [hwire, hleft, List.append_assoc, htail, List.flatMap_append,
          List.flatMap_singleton, List.append_nil]
      · exact forall_mem_concat hmsgs hknown
      · show if conn.torn = true then _ else _
        rw [if_neg hwhole]
  | broke hd =>
      have hleft := tail_broke hknown htail
      rcases hd with rfl | rfl
      · exact ⟨hsizes, trivial, msgs, part, hwire, hmsgs, hleft⟩
      · exact ⟨hsizes, hknown, msgs, part, hwire, hmsgs, hleft⟩
  | quiet hd =>
      rcases hd with ⟨rfl, hnot⟩ | ⟨m, ⟨rfl, rfl⟩ | ⟨rfl, rfl⟩ | ⟨op, rfl, rfl⟩⟩
      · refine ⟨hsizes, trivial, msgs, part, hwire, hmsgs, ?_⟩
        cases d with
        | sending m fut => exact absurd rfl (hnot m fut)
        | nothing => exact htail
        | waiting m => exact htail
        | redialing m op => exact htail
      · exact ⟨hsizes, hknown, msgs, part, hwire, hmsgs, htail⟩
      · exact ⟨hsizes, hknown, msgs, part, hwire, hmsgs, htail⟩
      · exact ⟨hsizes, hknown, msgs, part, hwire, hmsgs, htail⟩

/-! ## What a server makes of them -/

theorem payloadLen_oversize (fmt : FrameFormat) {m : Message} (hsize : m.len < 2 ^ 64)
    (hbig : maxFrameBytes < m.len) :
    payloadLen .w64 fmt (wireHeader fmt m.len) = .error (.frameTooLarge m.len) := by
  have hlen : m.len < 256 ^ 8 := Nat.lt_of_lt_of_eq hsize (by decide)
  rw [payloadLen_wireHeader .w64 fmt hlen, PointerWidth.asUsize_w64 hlen, if_pos hbig]

/-- No message is decoded from an incomplete frame. -/
theorem nextFrame_incomplete {m : Message} {part : List UInt8} (hsize : m.len < 2 ^ 64)
    (hpre : part <+: frameBytes fmt m) (hne : part ≠ frameBytes fmt m) :
    nextFrame .w64 fmt part = none := by
  cases hnext : nextFrame .w64 fmt part with
  | none => rfl
  | some out =>
      obtain ⟨it, hsrc, hans⟩ :=
        nextFrame_eq_some.mp (show _ = some (out.1, out.2) from hnext)
      have hit : it.symbols <+: frameBytes fmt m := List.IsPrefix.trans ⟨out.2, hsrc⟩ hpre
      by_cases hbig : maxFrameBytes < m.len
      · have hhdr : it.header = wireHeader fmt m.len := by
          rw [Framing.Item.header_eq_take hit, frameBytes_eq]
          show (wireHeader fmt m.len ++ m.payload).take fmt.needed = _
          rw [← length_wireHeader fmt m.len, List.take_left]
        have herr := payloadLen_oversize fmt hsize hbig
        rw [← hhdr] at herr
        rw [answer_error it herr] at hans
        cases hans
      · have hle := Nat.le_of_not_lt hbig
        have heq : it = frameItem .w64 fmt m hle := by
          refine Framing.Item.eq_of_prefix hit ?_
          rw [symbols_frameItem]
        have hsym : it.symbols = frameBytes fmt m := by rw [heq, symbols_frameItem]
        refine absurd (hpre.eq_of_length (Nat.le_antisymm hpre.length_le ?_)) hne
        rw [← hsrc, hsym, List.length_append]
        exact Nat.le_add_right _ _

/-- Whole frames and a part that holds none decode to some of the messages
framed: all of them, or those in front of one too long to be accepted. -/
theorem mem_decodeAll_frames {msgs : List Message} {part : List UInt8}
    (hsizes : ∀ m ∈ msgs, m.len < 2 ^ 64) (hpart : nextFrame .w64 fmt part = none) :
    ∀ x ∈ (decodeAll .w64 fmt (msgs.flatMap (frameBytes fmt) ++ part)).1,
      ∃ m ∈ msgs, x = m.received := by
  have hstop : ∀ src, nextFrame .w64 fmt src = none → (decodeAll .w64 fmt src).1 = [] := by
    intro src hsrc
    have hall : decodeAll .w64 fmt ((framing .w64 fmt).encode [] ++ src) = ([], src) :=
      decodeAll_items rfl hsrc
    exact congrArg Prod.fst hall
  induction msgs with
  | nil =>
      intro x hx
      rw [List.flatMap_nil, List.nil_append, hstop part hpart] at hx
      cases hx
  | cons m msgs ih =>
      intro x hx
      have hm := hsizes m List.mem_cons_self
      rw [List.flatMap_cons, List.append_assoc] at hx
      by_cases hbig : maxFrameBytes < m.len
      · rw [frameBytes_eq, List.append_assoc, hstop _ (nextFrame_rejected
          (length_wireHeader fmt m.len) (payloadLen_oversize fmt hm hbig))] at hx
        cases hx
      · have hle := Nat.le_of_not_lt hbig
        have hans : [frameItem .w64 fmt m hle].map (answer .w64 fmt) =
            [m.received].map .ok := by
          rw [List.map_singleton, answer_frameItem, List.map_singleton]
        rw [← symbols_frameItem .w64 fmt m hle, ← Framing.encode_singleton,
          decodeAll_append hans] at hx
        rcases List.mem_append.mp hx with hx | hx
        · exact ⟨m, List.mem_cons_self, List.mem_singleton.mp hx⟩
        · obtain ⟨m', hm', hx'⟩ :=
            ih (fun y hy => hsizes y (List.mem_cons_of_mem _ hy)) x hx
          exact ⟨m', List.mem_cons_of_mem _ hm', hx'⟩

theorem wellFramed_of_framed {s : Req0} (h : Framed s.fmt s.conn s.issued (doing s)) :
    WellFramed s := by
  obtain ⟨_, hknown, msgs, part, hwire, hmsgs, htail⟩ := h
  refine ⟨msgs, part, hwire, hmsgs, ?_⟩
  have hother : (if s.conn.torn then Incomplete s.fmt s.issued part else part = []) →
      part = [] ∨ Incomplete s.fmt s.issued part := by
    intro hrest
    split at hrest
    · exact Or.inr hrest
    · exact Or.inl hrest
  cases hd : doing s with
  | nothing => exact hother (by rw [hd] at htail; exact htail)
  | waiting m => exact hother (by rw [hd] at htail; exact htail)
  | redialing m op => exact hother (by rw [hd] at htail; exact htail)
  | sending m fut =>
      rw [hd] at htail hknown
      obtain ⟨hoff, hrest⟩ := htail
      split at hrest
      · exact Or.inr hrest
      · refine Or.inr ⟨m, hknown, ⟨fut.left, hrest⟩, fun heq => ?_⟩
        rw [← heq] at hrest
        exact left_ne_nil hoff (List.append_right_eq_self.mp hrest)

theorem serverSees_of_wellFramed {s : Req0} (hsizes : ∀ m ∈ s.issued, m.len < 2 ^ 64)
    (h : WellFramed s) : ServerSeesRequests s := by
  obtain ⟨msgs, part, hwire, hmsgs, hpart⟩ := h
  have hstop : nextFrame .w64 s.fmt part = none := by
    rcases hpart with rfl | ⟨m, hm, hpre, hne⟩
    · exact nextFrame_stopped Framing.partial_nil
    · exact nextFrame_incomplete (hsizes m hm) hpre hne
  intro seen acts i hseen hrun x hx
  obtain ⟨items, p, n, hat⟩ := at_run sized_vecZeroed hrun
  have hmem := (decodeAll_mono hseen).subset (hat.agrees.1.subset hx)
  rw [hwire] at hmem
  obtain ⟨m, hm, hx'⟩ := mem_decodeAll_frames (fun m hm => hsizes m (hmsgs m hm)) hstop x hmem
  exact ⟨m, hmsgs m hm, hx'⟩

/-- In every run that writes nothing behind a frame left incomplete, whatever
is dropped where, every state has its connection well framed and its server
seeing requests only. -/
theorem framing_kept (fmt : FrameFormat) (resendTime : Option Nat)
    (reconnect : Option ReconnectOptions) (acts : List Req0Act)
    (hadm : EveryStep Req0.step (fun s a => ¬ WritesBehindTear s a)
      (.dial fmt resendTime reconnect) acts) :
    EveryState Req0.step (fun s => WellFramed s ∧ ServerSeesRequests s)
      (.dial fmt resendTime reconnect) acts := by
  have hinv := everyState_of_everyStep
    (I := fun s => Framed s.fmt s.conn s.issued (doing s))
    (fun s a s' hf hok hstep => by
      obtain ⟨hfmt, hmove⟩ := step_moved hstep
      rw [hfmt]
      exact hmove.framed hf hok)
    (show Framed fmt Conn.fresh [] .nothing from
      ⟨nofun, trivial, [], [], rfl, nofun, rfl⟩) hadm
  refine hinv.imp fun s hs => ?_
  have hwell := wellFramed_of_framed hs
  exact ⟨hwell, serverSees_of_wellFramed hs.sizes hwell⟩

/-- A call that completes, and one that is dropped three bytes into its frame. -/
theorem framing_kept_dropped :
    EveryState Req0.step (fun s => WellFramed s ∧ ServerSeesRequests s)
      (.dial .tcp none none)
      [.call ⟨[], [5]⟩, .write (.ok 8), .write (.ok 4), .write (.ok 1),
        .received (.ok ⟨[], [128, 0, 0, 1, 9]⟩), .call ⟨[], [6]⟩, .write (.ok 3), .drop] :=
  framing_kept .tcp none none _ (by decide)

/-- A call is dropped three bytes into its frame and the next one sends its
own behind them: the server reads eight zero bytes and with them a message
that nobody sent. -/
theorem server_sees_empty_message :
    ¬ EveryState Req0.step (fun s => WellFramed s ∧ ServerSeesRequests s)
      (.dial .tcp none none)
      [.call ⟨[], [5]⟩, .write (.ok 3), .drop, .call ⟨[], [6]⟩, .write (.ok 8),
        .write (.ok 4), .write (.ok 1)] := by
  intro h
  have hlast := (h.last (t :=
    { fmt := .tcp
      state := ⟨3⟩
      resendTime := none
      reconnect := none
      conn := ⟨[0, 0, 0, 0, 0, 0, 0, 0, 0, 0, 5, 128, 0, 0, 2, 6],
        [0, 0, 0, 0, 0, 0, 0, 5, 128, 0, 0, 2, 6], true⟩
      live := some ⟨⟨[128, 0, 0, 2], [6]⟩, 2, .recv false⟩
      issued := [⟨[128, 0, 0, 1], [5]⟩, ⟨[128, 0, 0, 2], [6]⟩]
      returned := []
      panicked := false }) (by decide)).2
  obtain ⟨r, hr, heq⟩ := hlast [0, 0, 0, 0, 0, 0, 0, 0] [.call (), .read 8]
    ⟨⟨⟨.idle, #v[0, 0, 0, 0, 0, 0, 0, 0, 0], 8, [], 0⟩, (), none, [.ok ⟨[], []⟩], false⟩, []⟩
    (by decide) (by decide) ⟨[], []⟩ (by decide)
  exact absurd heq (by revert r; decide)

end NngCore.Proofs
