import NngCore.Ref.Survey

/-!
# What a survey owes its respondents

A survey that stops before its deadline has stopped because nobody was left to
wait for. Nobody's current answer should be missing then: each respondent the
survey reached has failed, or its answer to this survey is among the responses.
The conditions are about what the respondents' next polls will give, so they
can be read off the socket before the survey starts.
-/

namespace NngCore.Spec

open NngCore.Ref

/-- A response carries this survey ID. -/
def Carries (id : UInt32) (raw : Message) : Prop :=
  4 ≤ raw.body.length ∧ u32FromBeBytes (raw.body.take 4) = id

instance (id : UInt32) (raw : Message) : Decidable (Carries id raw) :=
  inferInstanceAs (Decidable (_ ∧ _))

/-- The next `n` polls find nothing. -/
def Silent (r : Respondent) (n : Nat) : Prop :=
  ∀ v < n, r.polls (r.polled + v) = .pending

/-- Within the next `n` polls something arrives, and what arrives first is a
message that does not carry `id`: a late answer, or one too short to tell. -/
def StaleFirst (id : UInt32) (r : Respondent) (n : Nat) : Prop :=
  ∃ u < n, Silent r u ∧ ∃ raw, r.polls (r.polled + u) = .ok raw ∧ ¬ Carries id raw

/-- The next survey reaches respondent `i`, which is `r`. -/
def Reaches (s : Surveyor0) (i : Nat) (r : Respondent) : Prop :=
  s.respondents[i]? = some r ∧ r.accepting = true

/-- Stopping before the deadline loses no current answer. -/
def KeepsCurrent (id : UInt32) (out : Surveyed) : Prop :=
  out.early = true → ∀ i ∈ out.sentTo, i ∈ out.failed ∨
    ∃ e, out.responses.filter (fun e => e.peer = i) = [e] ∧ Carries id e.raw

end NngCore.Spec
