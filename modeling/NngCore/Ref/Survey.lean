import NngCore.Lib.Run
import NngCore.Ref.ReqRep
import NngCore.Ref.Transport

/-!
# The surveyor (`src/protocols/survey.rs`, `src/socket/survey0.rs`)

A survey is broadcast to every respondent and the answers are collected until
a deadline. The collecting loop polls the receive of every respondent that is
still pending once per pass; between two passes it yields and looks at the
clock. A respondent is therefore known to the loop by the results its polls
give, one after the other, and the clock by the number of passes it allows
before the deadline is seen to have gone by.

Two things are kept here that the source does not keep, and nothing reads
them: who a response came from and what it looked like on arrival, and which
receives failed.
-/

namespace NngCore.Ref

open NngCore.Lib

inductive SurveyError where
  | staleSurveyId (got expected : UInt32)
  | messageTooShort
  deriving DecidableEq, Repr

structure Surveyor0State where
  nextId : UInt32
  currentId : UInt32
  deriving DecidableEq, Repr

namespace Surveyor0State

variable {M : Type} [MessageBuf M]

def new : Surveyor0State := ⟨1, 0⟩

def prepareSurvey (s : Surveyor0State) (msg : M) : Option (UInt32 × M × Surveyor0State) :=
  let id := s.nextId
  match MessageBuf.headerPushBack msg (u32ToBeBytes id) with
  | none => none
  | some msg => some (id, msg, ⟨max (s.nextId + 1) 1, id⟩)

def processResponse (s : Surveyor0State) (msg : M) : Option (Except SurveyError Unit × M) :=
  if (MessageBuf.body msg).length < 4 then some (.error .messageTooShort, msg)
  else
    let id := u32FromBeBytes ((MessageBuf.body msg).take 4)
    match MessageBuf.trimFront msg 4 with
    | none => none
    | some msg =>
        if id ≠ s.currentId then some (.error (.staleSurveyId id s.currentId), msg)
        else some (.ok (), msg)

def currentSurveyId (s : Surveyor0State) : UInt32 := s.currentId

end Surveyor0State

/-- `SurveyRoutingInfo`: the survey ID as it came. -/
structure SurveyRoutingInfo where
  bytes : Vector UInt8 4
  deriving DecidableEq, Repr

namespace Respondent0State

variable {M : Type} [MessageBuf M]

theorem size_idBytes {msg : M} (h : ¬ (MessageBuf.body msg).length < 4) :
    ((MessageBuf.body msg).take 4).toArray.size = 4 := by
  rw [List.size_toArray, List.length_take]
  omega

def processIncoming (msg : M) : Option (Except SurveyError SurveyRoutingInfo × M) :=
  if h : (MessageBuf.body msg).length < 4 then some (.error .messageTooShort, msg)
  else
    let idBytes : Vector UInt8 4 := ⟨((MessageBuf.body msg).take 4).toArray, size_idBytes h⟩
    match MessageBuf.trimFront msg 4 with
    | none => none
    | some msg => some (.ok ⟨idBytes⟩, msg)

def prepareResponse (msg : M) (routing : SurveyRoutingInfo) : Option M :=
  MessageBuf.headerPushBack msg routing.bytes.toList

end Respondent0State

/-! ## Respondents -/

/-- What one poll of a respondent's `recv` gives. -/
inductive RespPoll where
  | pending
  | ok (raw : Message)
  | err (e : TransportError)
  deriving DecidableEq

/-- A respondent's connection: what its polls and its sends will give, and how
many of either were made. -/
structure Respondent where
  polls : Nat → RespPoll
  polled : Nat
  accepts : Nat → Bool
  handed : List Message

namespace Respondent

/-- The result the next poll gives. -/
def next (r : Respondent) : RespPoll := r.polls r.polled

def poll (r : Respondent) : RespPoll × Respondent :=
  (r.next, { r with polled := r.polled + 1 })

/-- The next `send` to this respondent succeeds. -/
def accepting (r : Respondent) : Bool := r.accepts r.handed.length

def send (r : Respondent) (msg : Message) : Bool × Respondent :=
  (r.accepting, { r with handed := r.handed ++ [msg] })

end Respondent

/-! ## The socket -/

structure Surveyor0 where
  respondents : List Respondent
  state : Surveyor0State

/-- A collected response: whose it is, as it arrived, and as it is returned. -/
structure Response where
  peer : Nat
  raw : Message
  msg : Message
  deriving DecidableEq

/-- The loop's variables during one pass. -/
structure Round where
  respondents : List Respondent
  stillPending : List Nat
  responses : List Response
  failed : List Nat

/-- What a call of `survey_with_timeout` leaves and returns. -/
structure Surveyed where
  socket : Surveyor0
  sentTo : List Nat
  responses : List Response
  failed : List Nat
  early : Bool

namespace Surveyor0

def listen : Surveyor0 := ⟨[], .new⟩

def addRespondent (s : Surveyor0) (r : Respondent) : Surveyor0 :=
  { s with respondents := s.respondents ++ [r] }

/-- The sending loop over the respondents from index `i` on. -/
def broadcast (msg : Message) (i : Nat) : List Respondent → List Nat × List Respondent
  | [] => ([], [])
  | r :: rs =>
      let (ok, r) := r.send msg
      let (pending, rs) := broadcast msg (i + 1) rs
      (if ok then i :: pending else pending, r :: rs)

/-- One pass: poll everyone who is pending, once. -/
def pass (st : Surveyor0State) : List Nat → Round → Option Round
  | [], c => some c
  | i :: pending, c =>
      match c.respondents[i]? with
      | none => none
      | some r =>
          let (result, r) := r.poll
          let c := { c with respondents := c.respondents.set i r }
          match result with
          | .ok raw =>
              match st.processResponse raw with
              | none => none
              | some (.ok (), msg) =>
                  pass st pending { c with responses := c.responses ++ [⟨i, raw, msg⟩] }
              | some (.error _, _) => pass st pending c
          | .err _ => pass st pending { c with failed := c.failed ++ [i] }
          | .pending => pass st pending { c with stillPending := c.stillPending ++ [i] }

/-- The loop. The deadline is seen to have passed after `passes` further
passes; the answer says whether the loop stopped before that. -/
def collect (st : Surveyor0State) : Nat → Round → Option (Round × Bool)
  | passes, c =>
      if c.stillPending = [] then some (c, true)
      else
        match pass st c.stillPending { c with stillPending := [] } with
        | none => none
        | some c =>
            if c.stillPending = [] then some (c, true)
            else
              match passes with
              | 0 => some (c, false)
              | passes + 1 => collect st passes c

def surveyWithTimeout (s : Surveyor0) (msg : Message) (passes : Nat) : Option Surveyed :=
  match s.state.prepareSurvey msg with
  | none => none
  | some (_, outgoing, st) =>
      let (pending, respondents) := broadcast outgoing 0 s.respondents
      match collect st passes ⟨respondents, pending, [], []⟩ with
      | none => none
      | some (c, early) => some ⟨⟨c.respondents, st⟩, pending, c.responses, c.failed, early⟩

end Surveyor0

/-- What happens to a surveyor: a respondent is admitted, or a survey is made. -/
inductive SurveyAct where
  | join (r : Respondent)
  | survey (msg : Message) (passes : Nat)

def Surveyor0.step (s : Surveyor0) : SurveyAct → Option Surveyor0
  | .join r => some (s.addRespondent r)
  | .survey msg passes => (s.surveyWithTimeout msg passes).map Surveyed.socket

end NngCore.Ref
