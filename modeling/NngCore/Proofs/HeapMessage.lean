import NngCore.Proofs.MessageBuf
import NngCore.Spec.HeapMessage

/-!
# A message is two deques

Every call works on one `Vec` and puts it back, and on that `Vec` it does what
the list operation says: `step_cases` is all there is to a call. The one with
something in it is `push_front`. It makes its room at the wrong end and moves
the old contents over themselves; since the move reads before it writes, it
does not matter which of data and contents is the longer.

Two lengths of at most `isize::MAX` add up in a `usize`, so neither the new
length in `push_front` nor `len` wraps.

The protocols know three of the operations, and what these do to the `Vec`s they
do to the byte strings in them.
-/

namespace NngCore.Proofs

open NngCore.Lib NngCore.Ref NngCore.Spec

variable {w : PointerWidth}

theorem asUsize_add {a b : Nat} (ha : a ≤ w.isizeMax) (hb : b ≤ w.isizeMax) :
    w.asUsize (a + b) = a + b := by
  apply Nat.mod_eq_of_lt
  cases w with
  | w32 =>
      have hmax : PointerWidth.w32.isizeMax = 2147483647 := rfl
      have hbits : 2 ^ PointerWidth.w32.bits = 4294967296 := rfl
      omega
  | w64 =>
      have hmax : PointerWidth.w64.isizeMax = 9223372036854775807 := rfl
      have hbits : 2 ^ PointerWidth.w64.bits = 18446744073709551616 := rfl
      omega

/-! ## One part -/

/-- `r` is what became of `part`: the list operation, as far as it fits. -/
structure Does (op : DequeOp UInt8) (part : VecU8 w) (r : Option (VecU8 w)) : Prop where
  data : ∀ part', r = some part' → part'.data = op.apply part.data
  fits : (∃ part', r = some part') ↔ op.Fits w.isizeMax part.data

theorem does_extendFromSlice (part data : VecU8 w) :
    Does (.append data.data) part (part.extendFromSlice data.data) where
  data _ h := ByteVec.grown_eq_some.mp h
  fits := by
    rw [ByteVec.extendFromSlice, ByteVec.exists_grown, List.length_append]
    rfl

/-- Growing, moving and copying put the data in front of the old contents. -/
theorem pushFrontOn_eq (part data : VecU8 w) :
    HeapMessage.pushFrontOn part data = ByteVec.grown (data.data ++ part.data) := by
  have hsum : w.asUsize (part.len + data.len) = part.len + data.data.length :=
    asUsize_add part.fits data.fits
  simp only [HeapMessage.pushFrontOn, hsum]
  cases hres : part.resize (part.len + data.data.length) 0 with
  | none =>
      -- what cannot be grown is too long in either order
      rw [ByteVec.resize_add, ByteVec.grown_eq_none] at hres
      symm
      rw [ByteVec.grown_eq_none]
      simp only [List.length_append, List.length_replicate] at hres ⊢
      omega
  | some wide =>
      obtain ⟨moved, part', hmove, hcopy, hdata⟩ := ByteVec.prepended hres
      have hlen : data.len = data.data.length := rfl
      simp only [hlen, hmove, hcopy]
      exact (ByteVec.grown_eq_some.mpr hdata).symm

example : (HeapMessage.pushFrontOn ⟨[3, 4, 5], by decide⟩ ⟨[1, 2], by decide⟩ :
    Option (VecU8 .w64)).map ByteVec.data = some [1, 2, 3, 4, 5] := by decide

theorem does_pushFrontOn (part data : VecU8 w) :
    Does (.prepend data.data) part (HeapMessage.pushFrontOn part data) where
  data _ h := ByteVec.grown_eq_some.mp (pushFrontOn_eq part data ▸ h)
  fits := by
    rw [pushFrontOn_eq, ByteVec.exists_grown, List.length_append, Nat.add_comm]
    rfl

theorem does_drainTo (part : VecU8 w) (n : Nat) :
    Does (.dropFront n) part (part.drainTo n) where
  data _ h := ByteVec.drainTo_eq_some h
  fits := ByteVec.exists_drainTo

theorem does_trimBackOn (part : VecU8 w) (n : Nat) :
    Does (.dropBack n) part (some (HeapMessage.trimBackOn part n)) where
  data _ h := by
    cases h
    rfl
  fits := ⟨fun _ => trivial, fun _ => ⟨_, rfl⟩⟩

/-! ## One call -/

/-- Everything a call can do. -/
theorem step_cases (m : HeapMessage w) (call : MessageCall w) :
    (∃ op r, headerOp call = some op ∧ bodyOp call = none ∧ Does op m.header r ∧
      m.step call = r.map m.setHeader) ∨
    (∃ op r, headerOp call = none ∧ bodyOp call = some op ∧ Does op m.body r ∧
      m.step call = r.map m.setBody) := by
  cases call with
  | headerPushBack data =>
      exact Or.inl ⟨_, _, rfl, rfl, does_extendFromSlice m.header data, rfl⟩
  | headerPushFront data =>
      exact Or.inl ⟨_, _, rfl, rfl, does_pushFrontOn m.header data, rfl⟩
  | headerTrimFront n => exact Or.inl ⟨_, _, rfl, rfl, does_drainTo m.header n, rfl⟩
  | headerTrimBack n => exact Or.inl ⟨_, _, rfl, rfl, does_trimBackOn m.header n, rfl⟩
  | pushBack data => exact Or.inr ⟨_, _, rfl, rfl, does_extendFromSlice m.body data, rfl⟩
  | pushFront data => exact Or.inr ⟨_, _, rfl, rfl, does_pushFrontOn m.body data, rfl⟩
  | trimFront n => exact Or.inr ⟨_, _, rfl, rfl, does_drainTo m.body n, rfl⟩
  | trimBack n => exact Or.inr ⟨_, _, rfl, rfl, does_trimBackOn m.body n, rfl⟩
  | write buf =>
      refine Or.inr ⟨_, _, rfl, rfl, does_extendFromSlice m.body buf, ?_⟩
      simp only [HeapMessage.step, HeapMessage.write, HeapMessage.pushBack, Option.map_map]
      rfl
  | writeStr s =>
      refine Or.inr ⟨_, _, rfl, rfl, does_extendFromSlice m.body s.asBytes, ?_⟩
      simp only [HeapMessage.step, HeapMessage.writeStr, HeapMessage.pushBack, Option.map_map]
      rfl

theorem step_header (m : HeapMessage w) (call : MessageCall w) (m' : HeapMessage w)
    (h : m.step call = some m') :
    m'.header.data = DequeOp.applyIf m.header.data (headerOp call) := by
  rcases step_cases m call with ⟨op, r, hop, -, hdoes, hstep⟩ | ⟨op, r, hop, -, -, hstep⟩
  · rw [hstep] at h
    obtain ⟨header, hr, rfl⟩ := Option.map_eq_some_iff.mp h
    rw [hop]
    exact hdoes.data header hr
  · rw [hstep] at h
    obtain ⟨body, -, rfl⟩ := Option.map_eq_some_iff.mp h
    rw [hop]
    rfl

theorem step_body (m : HeapMessage w) (call : MessageCall w) (m' : HeapMessage w)
    (h : m.step call = some m') :
    m'.body.data = DequeOp.applyIf m.body.data (bodyOp call) := by
  rcases step_cases m call with ⟨op, r, -, hop, -, hstep⟩ | ⟨op, r, -, hop, hdoes, hstep⟩
  · rw [hstep] at h
    obtain ⟨header, -, rfl⟩ := Option.map_eq_some_iff.mp h
    rw [hop]
    rfl
  · rw [hstep] at h
    obtain ⟨body, hr, rfl⟩ := Option.map_eq_some_iff.mp h
    rw [hop]
    exact hdoes.data body hr

theorem step_returns_iff (m : HeapMessage w) (call : MessageCall w) :
    (∃ m', m.step call = some m') ↔
      DequeOp.FitsIf w.isizeMax m.header.data (headerOp call) ∧
        DequeOp.FitsIf w.isizeMax m.body.data (bodyOp call) := by
  rcases step_cases m call with ⟨op, r, hh, hb, hdoes, hstep⟩ | ⟨op, r, hh, hb, hdoes, hstep⟩
  · rw [hstep, ← Option.isSome_iff_exists, Option.isSome_map, Option.isSome_iff_exists,
      hdoes.fits, hh, hb]
    exact ⟨fun hfits => ⟨hfits, trivial⟩, And.left⟩
  · rw [hstep, ← Option.isSome_iff_exists, Option.isSome_map, Option.isSome_iff_exists,
      hdoes.fits, hh, hb]
    exact ⟨fun hfits => ⟨trivial, hfits⟩, And.right⟩

/-! ## Every sequence of calls -/

theorem header_of_run {m m' : HeapMessage w} {calls : List (MessageCall w)}
    (hrun : run HeapMessage.step m calls = some m') :
    m'.header.data = (calls.filterMap headerOp).foldl DequeOp.apply m.header.data :=
  run_part step_header hrun

theorem body_of_run {m m' : HeapMessage w} {calls : List (MessageCall w)}
    (hrun : run HeapMessage.step m calls = some m') :
    m'.body.data = (calls.filterMap bodyOp).foldl DequeOp.apply m.body.data :=
  run_part step_body hrun

/-- For every message and every sequence of calls, on either pointer width. -/
theorem message_two_deques (w : PointerWidth) :
    (∀ (m : HeapMessage w) (calls : List (MessageCall w)), TwoDeques m calls) ∧
      PartsInverse w := by
  refine ⟨fun m calls => ?_, ⟨fun _ _ => rfl, fun _ => rfl⟩⟩
  refine ⟨?_, fun _ => header_of_run, fun _ => body_of_run, ?_, ?_, ?_⟩
  · exact run_completes_iff step_header step_body step_returns_iff m calls
  · intro m' hrun hnone
    have hdata := header_of_run hrun
    rw [List.filterMap_eq_nil_iff.mpr hnone] at hdata
    exact ByteVec.ext hdata
  · intro m' hrun hnone
    have hdata := body_of_run hrun
    rw [List.filterMap_eq_nil_iff.mpr hnone] at hdata
    exact ByteVec.ext hdata
  · intro m' _
    exact asUsize_add m'.header.fits m'.body.fits

/-! ## The message of the protocols -/

theorem exists_extended {part : VecU8 w} {data : List UInt8}
    (hroom : part.len + data.length ≤ w.isizeMax) :
    ∃ part' : VecU8 w, part.extendFromSlice data = some part' ∧
      part'.data = part.data ++ data := by
  rw [ByteVec.len, ← List.length_append] at hroom
  obtain ⟨part', h⟩ := ByteVec.exists_grown.mpr hroom
  exact ⟨part', h, ByteVec.grown_eq_some.mp h⟩

theorem toMessage_setBody {m : HeapMessage w} {body : VecU8 w} {bs : List UInt8}
    (h : body.data = bs) : (m.setBody body).toMessage = { m.toMessage with body := bs } :=
  congrArg (Message.fromParts _) h

theorem toMessage_setHeader {m : HeapMessage w} {header : VecU8 w} {bs : List UInt8}
    (h : header.data = bs) :
    (m.setHeader header).toMessage = { m.toMessage with header := bs } :=
  congrArg (Message.fromParts · _) h

/-- The message is what the two `Vec`s hold. -/
def heapSim (w : PointerWidth) : MessageSim Message (HeapMessage w) where
  rel m z := z.toMessage = m
  bodyRoom z n := z.body.len + n ≤ w.isizeMax
  headerRoom z n := z.header.len + n ≤ w.isizeMax
  body h := h ▸ rfl
  pushBack {m z data} h hroom := by
    obtain ⟨body, hbody, hdata⟩ := exists_extended hroom
    subst h
    exact ⟨_, z.setBody body, rfl, congrArg (Option.map z.setBody) hbody,
      toMessage_setBody hdata⟩
  headerPushBack {m z data} h hroom := by
    obtain ⟨header, hheader, hdata⟩ := exists_extended hroom
    subst h
    exact ⟨_, z.setHeader header, rfl, congrArg (Option.map z.setHeader) hheader,
      toMessage_setHeader hdata⟩
  trimFront {m z n} h hn := by
    obtain ⟨body, hbody⟩ := ByteVec.exists_drainTo.mpr hn
    subst h
    exact ⟨_, z.setBody body, Message.trimFront_of_le hn,
      congrArg (Option.map z.setBody) hbody,
      toMessage_setBody (ByteVec.drainTo_eq_some hbody)⟩

theorem heapSim_fits (s : Handled (HeapMessage w)) (op : MessageOp) :
    (heapSim w).Fits s op = VecsFit s op := by
  cases op <;> rfl

/-- What `Vec` promises is what the codec asks of a message. -/
theorem representable_toMessage (m : HeapMessage .w64) : Representable m.toMessage :=
  ⟨Nat.lt_succ_of_le m.header.fits, Nat.lt_succ_of_le m.body.fits⟩

/-- The protocols work on two `Vec`s as they do on two byte strings, from any message
on and for as long as the `Vec`s can hold what they are given. -/
theorem protocols_on_heap (w : PointerWidth) (p : Protocols) (m : HeapMessage w)
    (ops : List MessageOp) (hfits : EveryStep Handled.step VecsFit ⟨p, m, []⟩ ops) :
    ∃ a b, HandledAsMessage w p m ops a b := by
  have hfits' : EveryStep Handled.step (heapSim w).Fits ⟨p, m, []⟩ ops := by
    rwa [show (heapSim w).Fits = VecsFit from funext₂ heapSim_fits]
  obtain ⟨a, b, ha, hb, hresults, hprotocols, hmsg⟩ :=
    run_sim (heapSim w) (a := ⟨p, m.toMessage, []⟩) (b := ⟨p, m, []⟩) rfl rfl rfl hfits'
  refine ⟨a, b, ha, hb, hresults, hprotocols, hmsg, ?_⟩
  rintro rfl
  exact hmsg ▸ representable_toMessage b.msg

/-- A survey goes out, and its response comes in behind it with the ID in front. -/
theorem protocols_on_heap_survey :
    ∃ a b, HandledAsMessage .w64 ⟨.new, .new, ⟨8, by decide⟩, .new⟩ ⟨.empty, .empty⟩
      [.prepareSurvey, .pushBack [128, 0, 0, 1, 9], .processResponse] a b := by
  refine protocols_on_heap .w64 _ _ _
    ⟨?_, fun s hs => ⟨?_, fun t ht => ⟨trivial, fun _ _ => trivial⟩⟩⟩
  · exact Nat.le_of_ble_eq_true rfl
  · cases hs
    exact Nat.le_of_ble_eq_true rfl

end NngCore.Proofs
