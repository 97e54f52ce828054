import NngCore.Proofs.Decode

/-!
# What a refused header leaves behind

Refusing a header puts the receiver back to idle with the payload of that
header still unread, so the next receive takes the payload's first bytes for a
header. Whether that ever yields a message is decided by the bytes alone: it
does exactly when a whole frame sits right behind the refused header, or
behind the further headers refused after it. The proof reads both directions
off the receiver's place in the stream. A run that returned a message after a
refusal has answered for such a frame; and a stream that holds one can be read
to its end, which answers for all of its items.
-/

namespace NngCore.Proofs

open NngCore.Lib NngCore.Ref NngCore.Spec

variable {w : PointerWidth} {fmt : FrameFormat}

/-- A header is refused for its type byte or for its length. -/
theorem framingError_of_payloadLen {hdr : List UInt8} {e : TransportError}
    (h : payloadLen w fmt hdr = .error e) : framingError (.error e) = true := by
  cases fmt with
  | tcp =>
      simp only [payloadLen] at h
      split at h
      · cases h
        rfl
      · cases h
  | ipc =>
      simp only [payloadLen] at h
      split at h
      · cases h
        rfl
      · split at h
        · cases h
          rfl
        · cases h

theorem accepted_iff {frame : List UInt8} :
    Accepted w fmt frame ↔ ∃ it : (framing w fmt).Item, it.symbols = frame ∧
      returnsOk (answer w fmt it) = true := by
  constructor
  · intro h
    obtain ⟨hdr, payload, rfl, hh, hok⟩ := h
    let it : (framing w fmt).Item :=
      ⟨hdr, payload, hh, (framing_payloadLen_ok hok).symm⟩
    refine ⟨it, rfl, ?_⟩
    rw [answer_ok it hok]
    rfl
  · intro h
    obtain ⟨it, rfl, hok⟩ := h
    cases hlen : payloadLen w fmt it.header with
    | error e =>
        rw [answer_error it hlen] at hok
        cases hok
    | ok len =>
        refine ⟨it.header, it.payload, rfl, it.header_len, ?_⟩
        rw [hlen, it.payload_len, framing_payloadLen_ok hlen]

theorem rejected_iff {hdr : List UInt8} :
    Rejected w fmt hdr ↔ ∃ it : (framing w fmt).Item, it.symbols = hdr ∧
      returnsOk (answer w fmt it) = false := by
  constructor
  · intro h
    obtain ⟨hh, e, herr⟩ := h
    let it : (framing w fmt).Item := ⟨hdr, [], hh, (framing_payloadLen_error herr).symm⟩
    refine ⟨it, List.append_nil _, ?_⟩
    rw [answer_error it herr]
    rfl
  · intro h
    obtain ⟨it, rfl, hbad⟩ := h
    cases hlen : payloadLen w fmt it.header with
    | error e =>
        rw [symbols_rejected it hlen]
        exact ⟨it.header_len, e, hlen⟩
    | ok len =>
        rw [answer_ok it hlen] at hbad
        cases hbad

theorem framingError_answer {it : (framing w fmt).Item}
    (h : returnsOk (answer w fmt it) = false) :
    framingError (answer w fmt it) = true := by
  cases hlen : payloadLen w fmt it.header with
  | error e =>
      rw [answer_error it hlen]
      exact framingError_of_payloadLen hlen
  | ok len =>
      rw [answer_ok it hlen] at h
      cases h

/-- Pieces of a stream that are one item each are its items. -/
theorem items_of_pieces {P : (framing w fmt).Item → Prop} {pieces : List (List UInt8)}
    (h : ∀ f ∈ pieces, ∃ it : (framing w fmt).Item, it.symbols = f ∧ P it) :
    ∃ xs : List (framing w fmt).Item,
      (framing w fmt).encode xs = pieces.flatten ∧ ∀ x ∈ xs, P x := by
  induction pieces with
  | nil => exact ⟨[], rfl, nofun⟩
  | cons f pieces ih =>
      obtain ⟨it, rfl, hit⟩ := h f List.mem_cons_self
      obtain ⟨xs, henc, hxs⟩ := ih (fun g hg => h g (List.mem_cons_of_mem _ hg))
      refine ⟨it :: xs, ?_, ?_⟩
      · rw [Framing.encode_cons, henc, List.flatten_cons]
      · intro x hx
        rcases List.mem_cons.mp hx with rfl | hx
        · exact hit
        · exact hxs x hx

theorem pieces_of_items {P : List UInt8 → Prop} (xs : List (framing w fmt).Item)
    (h : ∀ x ∈ xs, P x.symbols) :
    ∃ pieces : List (List UInt8), pieces.flatten = (framing w fmt).encode xs ∧
      ∀ f ∈ pieces, P f := by
  refine ⟨xs.map Framing.Item.symbols, List.flatMap_def.symm, ?_⟩
  intro f hf
  obtain ⟨x, hx, rfl⟩ := List.mem_map.mp hf
  exact h x hx

/-- Results no header was refused in, and behind them results without a
message, are in order. -/
theorem silent_append {as bs : List (Except TransportError Message)}
    (has : ∀ r ∈ as, framingError r = false) (hbs : ∀ r ∈ bs, returnsOk r = false) :
    SilentAfterError (as ++ bs) := by
  refine List.pairwise_append.mpr ⟨?_, ?_, ?_⟩
  · exact List.pairwise_of_forall_mem_list fun a ha b _ h =>
      absurd (has a ha) (by rw [h]; decide)
  · exact List.pairwise_of_forall_mem_list fun a _ b hb _ => hbs b hb
  · intro a ha b hb _
    exact hbs b hb

theorem not_framingError_of_ok {rs : List (Except TransportError Message)}
    {ms : List Message} (h : rs = ms.map .ok) : ∀ r ∈ rs, framingError r = false := by
  intro r hr
  rw [h] at hr
  obtain ⟨m, _, rfl⟩ := List.mem_map.mp hr
  rfl

theorem not_ok_of_closed {n : Nat} :
    ∀ r ∈ List.replicate n (Except.error TransportError.closed : Except _ Message),
      returnsOk r = false := by
  intro r hr
  rw [List.eq_of_mem_replicate hr]
  rfl

/-- A run that received something after a refusal has read a frame behind it. -/
theorem resyncs_of_at {src : List UInt8} {i : Inbound Unit Unit}
    {items : List (framing w fmt).Item} {p : List UInt8} {n : Nat}
    (h : At w fmt src i items p n) (hloud : ¬ SilentAfterError i.recv.results) :
    Resyncs w fmt src := by
  rw [h.results] at hloud
  rcases split_answers items with ⟨ms, hms⟩ | ⟨xs, bad, more, hitems, ⟨ms, hms⟩, e, hbad⟩
  · exact absurd (silent_append (not_framingError_of_ok hms) not_ok_of_closed) hloud
  · have hrej : returnsOk (answer w fmt bad) = false := by
      rw [answer_error bad hbad]
      rfl
    cases hfind : more.find? fun it => returnsOk (answer w fmt it) with
    | none =>
        refine absurd ?_ hloud
        rw [hitems, List.map_append, List.append_assoc]
        refine silent_append (not_framingError_of_ok hms) fun r hr => ?_
        rcases List.mem_append.mp hr with hr | hr
        · obtain ⟨it, hit, rfl⟩ := List.mem_map.mp hr
          rcases List.mem_cons.mp hit with rfl | hmem
          · exact hrej
          · simpa using List.find?_eq_none.mp hfind it hmem
        · exact not_ok_of_closed r hr
    | some good =>
        obtain ⟨hgood, front, back, hmore, hfront⟩ :=
          List.find?_eq_some_iff_append.mp hfind
        obtain ⟨frames, hframes, haccept⟩ :=
          pieces_of_items (P := Accepted w fmt) xs fun x hx => by
            refine accepted_iff.mpr ⟨x, rfl, ?_⟩
            have hmem := List.mem_map_of_mem (f := answer w fmt) hx
            rw [hms] at hmem
            obtain ⟨m, _, hm⟩ := List.mem_map.mp hmem
            rw [← hm]
            rfl
        obtain ⟨skipped, hskipped, hreject⟩ :=
          pieces_of_items (P := Rejected w fmt) front fun x hx =>
            rejected_iff.mpr ⟨x, rfl, by simpa using hfront x hx⟩
        refine ⟨frames, skipped, bad.symbols, good.symbols,
          (framing w fmt).encode back ++ p ++ i.input, ?_, haccept,
          rejected_iff.mpr ⟨bad, rfl, hrej⟩, hreject, accepted_iff.mpr ⟨good, rfl, hgood⟩⟩
        rw [← h.bytes, hitems, hmore, hframes, hskipped]
        simp only [Framing.encode_append, Framing.encode_cons, List.append_assoc]

/-- A frame behind a refusal is received by a caller that reads on. -/
theorem loud_of_resyncs {src : List UInt8} (h : Resyncs w fmt src) :
    ∃ acts i, run (Inbound.step vecZeroed w fmt) (.fresh () src) acts = some i ∧
      ¬ SilentAfterError i.recv.results := by
  obtain ⟨frames, skipped, bad, frame, post, rfl, haccept, hbad, hreject, hframe⟩ := h
  obtain ⟨xs, hxs, _⟩ := items_of_pieces fun f hf => accepted_iff.mp (haccept f hf)
  obtain ⟨front, hfront, _⟩ := items_of_pieces fun f hf => rejected_iff.mp (hreject f hf)
  obtain ⟨b, rfl, hrej⟩ := rejected_iff.mp hbad
  obtain ⟨good, rfl, hgood⟩ := accepted_iff.mp hframe
  obtain ⟨back, q, rfl, hq⟩ := Framing.exists_parse (F := framing w fmt) post
  obtain ⟨acts, i, items, p, n, hrun, hend, hat⟩ :=
    (at_fresh (K := Unit) w fmt () _).drain sized_vecZeroed
  refine ⟨acts, i, hrun, fun hsilent => ?_⟩
  have hcut : (framing w fmt).encode items ++ p =
      (framing w fmt).encode (xs ++ b :: (front ++ good :: back)) ++ q := by
    have hbytes := hat.bytes
    rw [hend, List.append_nil] at hbytes
    rw [hbytes, ← hxs, ← hfront]
    simp only [Framing.encode_append, Framing.encode_cons, List.append_assoc]
  obtain ⟨rfl, _⟩ := Framing.parse_unique hat.sound.hold.isPartial hq hcut
  rw [hat.results, List.map_append, List.append_assoc] at hsilent
  have htail := (List.pairwise_append.mp hsilent).2.1
  rw [List.map_cons, List.cons_append] at htail
  have hlater := (List.pairwise_cons.mp htail).1 (answer w fmt good) ?_
    (framingError_answer hrej)
  · rw [hgood] at hlater
    cases hlater
  · refine List.mem_append_left _ (List.mem_map_of_mem ?_)
    exact List.mem_append_right _ List.mem_cons_self

/-- Exactly which streams stay silent after a refused header, whatever the
chunking and the calls. -/
theorem silentAfterError_iff (w : PointerWidth) (fmt : FrameFormat) (src : List UInt8) :
    (∀ (acts : List (InAct Unit)) (i : Inbound Unit Unit),
      run (Inbound.step vecZeroed w fmt) (.fresh () src) acts = some i →
        SilentAfterError i.recv.results) ↔ ¬ Resyncs w fmt src := by
  constructor
  · intro h hre
    obtain ⟨acts, i, hrun, hloud⟩ := loud_of_resyncs hre
    exact hloud (h acts i hrun)
  · intro h acts i hrun
    obtain ⟨items, p, n, hat⟩ := at_run sized_vecZeroed hrun
    by_contra hloud
    exact h (resyncs_of_at hat hloud)

/-- A header that declares the largest length there is, and inside the payload
it announces a whole frame: the second receive returns it. -/
theorem message_inside_rejected_frame :
    ¬ ∀ (acts : List (InAct Unit)) (i : Inbound Unit Unit),
      run (Inbound.step vecZeroed .w64 .tcp)
        (.fresh () [255, 255, 255, 255, 255, 255, 255, 255, 0, 0, 0, 0, 0, 0, 0, 1, 7])
        acts = some i → SilentAfterError i.recv.results := by
  intro h
  have hloud := h [.call (), .read 8, .call (), .read 8, .read 1]
    ⟨⟨⟨.idle, #v[0, 0, 0, 0, 0, 0, 0, 1, 0], 8, [], 1⟩, (), none,
      [.error (.frameTooLarge 18446744073709551615), .ok ⟨[], [7]⟩], false⟩, []⟩
    (by decide)
  exact absurd hloud (by decide)

end NngCore.Proofs
