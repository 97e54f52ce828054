import NngCore.Lib.Run
import NngCore.Ref.SurveyNet

/-!
# Answers belong to the survey that returns them

The vector a survey returns holds answers to that survey: messages that a
respondent passed to `respond`, as they are, on a handle made from that very
survey, and at most one from each connection.
-/

namespace NngCore.Spec

open NngCore.Lib NngCore.Ref

/-- `x` is a connection and a message that was passed to `respond` there, on a
handle made from survey `k`. -/
def RespondedTo (s : SurveyNet) (k : Nat) (x : Nat × Message) : Prop :=
  ∃ c, s.conns[x.1]? = some c ∧ (k, x.2) ∈ c.responded

structure AnswersBelong (s : SurveyNet) : Prop where
  made : ∀ r ∈ s.returned, 1 ≤ r.1 ∧ r.1 ≤ s.count
  numbered : (s.returned.map Prod.fst).Nodup
  belong : ∀ r ∈ s.returned, ∀ x ∈ r.2, RespondedTo s r.1 x
  once : ∀ r ∈ s.returned, (r.2.map Prod.fst).Nodup

/-- The application leaves the message header to the protocol. -/
def PlainAct : SurveyNetAct → Prop
  | .survey msg => msg.header = []
  | .respond _ msg _ => msg.header = []
  | _ => True

end NngCore.Spec
