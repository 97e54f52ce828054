import NngCore.Ref.Survey

/-!
# Which responses a surveyor takes

`prepare_survey` called over and over, with the IDs it returned, and what the
IDs are for: a response is taken when it answers the survey issued last, and
not when it answers one of those before it, or none at all.
-/

namespace NngCore.Spec

open NngCore.Lib NngCore.Ref

structure SurveyLog where
  state : Surveyor0State
  issued : List UInt32

def SurveyLog.start : SurveyLog := ⟨.new, []⟩

def SurveyLog.step (l : SurveyLog) (msg : Message) : Option SurveyLog :=
  match l.state.prepareSurvey msg with
  | none => none
  | some (id, _, s) => some ⟨s, l.issued ++ [id]⟩

/-- `process_response` returns `Ok`. -/
def Accepts (s : Surveyor0State) (msg : Message) : Prop :=
  ∃ rest, s.processResponse msg = some (.ok (), rest)

/-- The body starts with the four big-endian bytes of `id`. -/
def StartsWith (id : UInt32) (msg : Message) : Prop :=
  4 ≤ msg.body.length ∧ msg.body.take 4 = u32ToBeBytes id

instance (id : UInt32) (msg : Message) : Decidable (StartsWith id msg) :=
  inferInstanceAs (Decidable (_ ∧ _))

structure AcceptsLatest (l : SurveyLog) (msg : Message) : Prop where
  accepts : Accepts l.state msg ↔ ∃ id, l.issued.getLast? = some id ∧ StartsWith id msg
  nonzero : ∀ id ∈ l.issued, id ≠ 0
  -- the calls in front of the last one, back to the `2 ^ 32 - 2`nd
  earlier : ∀ n id, l.issued[n]? = some id → n + 1 < l.issued.length →
    l.issued.length ≤ n + 1 + (2 ^ 32 - 2) → StartsWith id msg → ¬ Accepts l.state msg

end NngCore.Spec
