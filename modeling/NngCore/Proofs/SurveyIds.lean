import NngCore.Proofs.ReqRepIds
import NngCore.Proofs.Survey
import NngCore.Spec.SurveyIds

/-!
# The surveyor takes the response to its last survey

Surveys are numbered the way requests are, by a 32-bit counter that goes round
without zero, and here nothing is lost of a number on its way. The ID kept is
the ID issued last, so a response is taken when it carries that one, and the
IDs of a whole round before it are all different from it.

Before the first survey the ID kept is zero. No survey ever has it, but a
message can, and the comparison does not know that there is nothing to answer.
-/

namespace NngCore.Proofs

open NngCore.Lib NngCore.Ref NngCore.Spec

/-- The counter runs through `2 ^ 32 - 1` values before it repeats one. -/
theorem idAfter_inj {n k : Nat} (h : idAfter n = idAfter k) (hlt : n < k) :
    n + (2 ^ 32 - 1) ≤ k := by
  simp only [idAfter] at h
  omega

theorem startsWith_iff_carries {id : UInt32} {msg : Message} :
    StartsWith id msg ↔ Carries id msg := by
  constructor
  · rintro ⟨hlong, htake⟩
    exact ⟨hlong, by rw [htake, u32FromBeBytes_u32ToBeBytes]⟩
  · rintro ⟨hlong, hid⟩
    have h4 : (msg.body.take 4).length = 4 := by rw [List.length_take, Nat.min_eq_left hlong]
    have hword : (u32FromBeBytes (msg.body.take 4)).toNat = beNat (msg.body.take 4) :=
      UInt32.toNat_ofNat_of_lt' (beNat_lt_of_length h4)
    refine ⟨hlong, ?_⟩
    rw [← hid, u32ToBeBytes, hword, beBytes_beNat h4]

theorem accepts_iff (s : Surveyor0State) (msg : Message) :
    Accepts s msg ↔ StartsWith s.currentId msg := by
  obtain ⟨res, rest, hproc, hok⟩ := processResponse_message s msg
  rw [startsWith_iff_carries, ← hok, Accepts, hproc]
  constructor
  · rintro ⟨rest', hrest⟩
    cases hrest
    rfl
  · rintro rfl
    exact ⟨rest, rfl⟩

/-! ## The log -/

structure SurveyLogged (n : Nat) (l : SurveyLog) : Prop where
  next : l.state.nextId.toNat = idAfter n
  issued : l.issued.map UInt32.toNat = (List.range n).map idAfter
  current : l.state.currentId = l.issued.getLastD 0

theorem surveyLogged_start : SurveyLogged 0 .start := ⟨rfl, rfl, rfl⟩

theorem SurveyLogged.step {n : Nat} {l l' : SurveyLog} {msg : Message}
    (h : SurveyLogged n l) (hstep : l.step msg = some l') : SurveyLogged (n + 1) l' := by
  have hl' : l' = ⟨⟨max (l.state.nextId + 1) 1, l.state.nextId⟩,
      l.issued ++ [l.state.nextId]⟩ := (Option.some.inj hstep).symm
  subst hl'
  refine ⟨nextId_step h.next, ?_, ?_⟩
  · rw [List.map_append, h.issued, List.range_succ, List.map_append]
    simp only [List.map_cons, List.map_nil, h.next]
  · show l.state.nextId = (l.issued ++ [l.state.nextId]).getLastD 0
    simp

theorem surveyLogged_run {msgs : List Message} {l : SurveyLog}
    (hrun : run SurveyLog.step .start msgs = some l) : SurveyLogged msgs.length l := by
  refine run_induction (I := fun msgs l => SurveyLogged msgs.length l) surveyLogged_start
    ?_ hrun
  intro msgs u msg v h hstep
  rw [List.length_append, List.length_singleton]
  exact h.step hstep

theorem SurveyLogged.length {n : Nat} {l : SurveyLog} (h : SurveyLogged n l) :
    l.issued.length = n := by
  have hlen := congrArg List.length h.issued
  rwa [List.length_map, List.length_map, List.length_range] at hlen

theorem SurveyLogged.get {n k : Nat} {l : SurveyLog} {id : UInt32} (h : SurveyLogged n l)
    (hk : l.issued[k]? = some id) : id.toNat = idAfter k := by
  have hlt : k < n := h.length ▸ (List.getElem?_eq_some_iff.mp hk).1
  have hget := congrArg (fun ids => ids[k]?) h.issued
  simp only [List.getElem?_map, hk, List.getElem?_range hlt, Option.map_some] at hget
  exact Option.some.inj hget

theorem SurveyLogged.nonzero {n : Nat} {l : SurveyLog} {id : UInt32} (h : SurveyLogged n l)
    (hid : id ∈ l.issued) : id ≠ 0 := by
  obtain ⟨k, hk⟩ := List.mem_iff_getElem?.mp hid
  have hval := h.get hk
  rintro rfl
  exact absurd hval (Nat.succ_ne_zero _).symm

/-- What a surveyor that has issued something takes. -/
theorem acceptsLatest_of_issued {n : Nat} {l : SurveyLog} (h : SurveyLogged (n + 1) l)
    (msg : Message) : AcceptsLatest l msg := by
  have hlast : l.issued.getLast? = some l.state.currentId := by
    have hne : l.issued ≠ [] := by
      intro hnil
      have hlen := h.length
      rw [hnil] at hlen
      cases hlen
    rw [h.current, List.getLastD_eq_getLast?, List.getLast?_eq_getLast_of_ne_nil hne]
    rfl
  refine ⟨?_, fun id hid => h.nonzero hid, ?_⟩
  · rw [accepts_iff, hlast]
    constructor
    · intro hmsg
      exact ⟨_, rfl, hmsg⟩
    · rintro ⟨id, hid, hmsg⟩
      cases hid
      exact hmsg
  · intro k id hk hlt hclose hmsg hacc
    rw [accepts_iff] at hacc
    have hsame : id = l.state.currentId := by
      rw [startsWith_iff_carries] at hmsg hacc
      rw [← hmsg.2, hacc.2]
    have hcur : l.issued[n]? = some l.state.currentId := by
      rw [← hlast, List.getLast?_eq_getElem?, h.length]
      rfl
    rw [h.length] at hlt hclose
    have hround := idAfter_inj (n := k) (k := n)
      (by rw [← h.get hk, ← h.get hcur, hsame]) (by omega)
    omega

/-- A surveyor takes the response to its last survey and no other, once it has
issued one; before, it takes whatever starts with four zero bytes. -/
theorem acceptsLatest_iff (msgs : List Message) (l : SurveyLog)
    (hrun : run SurveyLog.step .start msgs = some l) (msg : Message) :
    AcceptsLatest l msg ↔ msgs ≠ [] ∨ ¬ StartsWith 0 msg := by
  have h := surveyLogged_run hrun
  cases msgs with
  | cons m ms =>
      exact ⟨fun _ => Or.inl (List.cons_ne_nil m ms), fun _ => acceptsLatest_of_issued h msg⟩
  | nil =>
      cases hrun
      have hacc : Accepts SurveyLog.start.state msg ↔ StartsWith 0 msg := accepts_iff _ msg
      constructor
      · intro hlatest
        refine Or.inr fun hzero => ?_
        obtain ⟨id, hid, -⟩ := hlatest.accepts.mp (hacc.mpr hzero)
        cases hid
      · rintro (hne | hzero)
        · exact absurd rfl hne
        · refine ⟨?_, fun id hid => absurd hid List.not_mem_nil, fun k id hk => ?_⟩
          · rw [hacc]
            constructor
            · intro hmsg
              exact absurd hmsg hzero
            · rintro ⟨id, hid, -⟩
              cases hid
          · cases hk

theorem acceptsLatest_iff_once :
    ∃ l, run SurveyLog.step .start [Message.new] = some l ∧
      AcceptsLatest l (Message.fromParts [] [0, 0, 0, 1, 7]) := by
  refine ⟨⟨⟨2, 1⟩, [1]⟩, rfl, ?_⟩
  exact (acceptsLatest_iff [Message.new] _ rfl _).mpr (Or.inl (List.cons_ne_nil _ _))

/-- No survey was issued, and four zero bytes are taken for a response to it. -/
theorem zero_accepted_before_survey :
    run SurveyLog.step .start [] = some .start ∧
      Accepts SurveyLog.start.state (Message.fromParts [] [0, 0, 0, 0]) ∧
      ¬ AcceptsLatest .start (Message.fromParts [] [0, 0, 0, 0]) := by
  have hacc : Accepts SurveyLog.start.state (Message.fromParts [] [0, 0, 0, 0]) :=
    ⟨Message.new, rfl⟩
  refine ⟨rfl, hacc, fun h => ?_⟩
  obtain ⟨id, hid, -⟩ := h.accepts.mp hacc
  cases hid

end NngCore.Proofs
