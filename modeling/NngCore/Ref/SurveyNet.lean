import NngCore.Ref.Survey

/-!
# A surveyor and its respondents (`src/socket/survey0.rs`)

One `Surveyor0` and any number of `Respondent0` sockets, one connection each,
every party at its own pace. A connection delivers whole messages in order, in
either direction, until that direction fails for good. From then on nothing
that is sent arrives, whether the send reports it or not, and the receiving
side reports the failure once it has had what still arrived.

`survey_with_timeout` stands at one of its sends, at a poll of one respondent's
receive, or at its yield, where the deadline is looked at and where the call
may be dropped. A poll may find nothing although a message is under way. A
respondent receives a survey and gets a handle, which borrows the socket; the
handle is used for one response or dropped, and then the next survey can be
received. A respondent that redials has a new connection.

For the statements the surveys are numbered as they are made. A survey under
way carries its number, and so does the handle made from it; a connection
keeps what was passed to `respond` and on which handle; and the vectors
returned are kept with the number of the survey and, for each message, the
connection it came in on.
-/

namespace NngCore.Ref

open NngCore.Lib

structure SurveyMsg where
  number : Nat
  msg : Message
  deriving DecidableEq

/-- `SurveyHandle`. -/
structure SurveyHandle where
  routing : SurveyRoutingInfo
  number : Nat
  deriving DecidableEq

/-- One connection and the respondent at its far end. `down` leads to the
respondent, `up` to the surveyor. -/
structure SurveyConn where
  down : List SurveyMsg
  up : List Message
  downCut : Bool
  upCut : Bool
  handle : Option SurveyHandle
  responded : List (Nat × Message)
  deriving DecidableEq

namespace SurveyConn

def fresh : SurveyConn := ⟨[], [], false, false, none, []⟩

/-- What is sent on a direction that has failed goes nowhere. -/
def putDown (c : SurveyConn) (x : SurveyMsg) : SurveyConn :=
  if c.downCut then c else { c with down := c.down ++ [x] }

def putUp (c : SurveyConn) (msg : Message) : SurveyConn :=
  if c.upCut then c else { c with up := c.up ++ [msg] }

def failDown (c : SurveyConn) : SurveyConn := { c with downCut := true }

def failUp (c : SurveyConn) : SurveyConn := { c with upCut := true }

/-- The direction fails with what is under way. -/
def cutDown (c : SurveyConn) : SurveyConn := { c.failDown with down := [] }

def cutUp (c : SurveyConn) : SurveyConn := { c.failUp with up := [] }

/-! ## The respondent -/

/-- `Respondent0::receive` got the next survey. One that is too short to carry
an ID is an error and makes no handle. -/
def receive (c : SurveyConn) : Option SurveyConn :=
  match c.handle, c.down with
  | none, x :: down =>
      match Respondent0State.processIncoming x.msg with
      | none => none
      | some (.error _, _) => some { c with down := down }
      | some (.ok routing, _) =>
          some { c with down := down, handle := some ⟨routing, x.number⟩ }
  | _, _ => none

/-- `SurveyHandle::respond(msg)`. A send that fails was the last. -/
def respond (c : SurveyConn) (msg : Message) (ok : Bool) : Option SurveyConn :=
  match c.handle with
  | none => none
  | some h =>
      match Respondent0State.prepareResponse msg h.routing with
      | none => none
      | some outgoing =>
          let c := { c with handle := none, responded := c.responded ++ [(h.number, msg)] }
          some (if ok then c.putUp outgoing.received else c.failUp)

def dropHandle (c : SurveyConn) : Option SurveyConn :=
  match c.handle with
  | none => none
  | some _ => some { c with handle := none }

end SurveyConn

/-! ## The surveyor -/

/-- Where a `survey_with_timeout` stands: `todo` is what is left of the pass, and
`still` the `still_pending` of it. -/
inductive SurveyPhase where
  | idle
  | sending (outgoing : Message) (i : Nat) (pending : List Nat)
  | polling (todo still : List Nat) (responses : List (Nat × Message))
  | yielded (pending : List Nat) (responses : List (Nat × Message))
  deriving DecidableEq

structure SurveyNet where
  conns : List SurveyConn
  state : Surveyor0State
  phase : SurveyPhase
  count : Nat
  returned : List (Nat × List (Nat × Message))
  deriving DecidableEq

/-- What a poll of a receive finds. -/
inductive PollFinds where
  | nothing
  | message
  | failure
  deriving DecidableEq

inductive SurveyNetAct where
  | join
  | survey (msg : Message)
  | sent (ok : Bool)
  | poll (finds : PollFinds)
  | resume
  | deadline
  | abandon
  | receive (i : Nat)
  | respond (i : Nat) (msg : Message) (ok : Bool)
  | dropHandle (i : Nat)
  | cutDown (i : Nat)
  | cutUp (i : Nat)
  deriving DecidableEq

namespace SurveyNet

def start : SurveyNet := ⟨[], .new, .idle, 0, []⟩

def setConn (s : SurveyNet) (i : Nat) (c : SurveyConn) : SurveyNet :=
  { s with conns := s.conns.set i c }

def await (s : SurveyNet) (p : SurveyPhase) : SurveyNet := { s with phase := p }

/-- The call returns. -/
def finish (s : SurveyNet) (responses : List (Nat × Message)) : SurveyNet :=
  { s with phase := .idle, returned := s.returned ++ [(s.count, responses)] }

/-- The head of the loop. -/
def loopHead (s : SurveyNet) (pending : List Nat) (responses : List (Nat × Message)) :
    SurveyNet :=
  if pending = [] then s.finish responses else s.await (.polling pending [] responses)

/-- The pass from its loop test on. -/
def passOn (s : SurveyNet) (todo still : List Nat) (responses : List (Nat × Message)) :
    SurveyNet :=
  match todo with
  | _ :: _ => s.await (.polling todo still responses)
  | [] => if still = [] then s.finish responses else s.await (.yielded still responses)

/-- The sending loop from its loop test on. -/
def sendOn (s : SurveyNet) (outgoing : Message) (i : Nat) (pending : List Nat) : SurveyNet :=
  if i < s.conns.length then s.await (.sending outgoing i pending) else s.loopHead pending []

def survey (s : SurveyNet) (msg : Message) : Option SurveyNet :=
  match s.state.prepareSurvey msg with
  | none => none
  | some (_, outgoing, st) =>
      some ({ s with state := st, count := s.count + 1 }.sendOn outgoing 0 [])

/-- The send to respondent `i` came back. One that fails was the last. -/
def sent (s : SurveyNet) (outgoing : Message) (i : Nat) (pending : List Nat) (ok : Bool) :
    Option SurveyNet :=
  match s.conns[i]? with
  | none => none
  | some c =>
      if ok then
        some ((s.setConn i (c.putDown ⟨s.count, outgoing.received⟩)).sendOn outgoing (i + 1)
          (pending ++ [i]))
      else some ((s.setConn i c.failDown).sendOn outgoing (i + 1) pending)

/-- The poll of respondent `i` found something or nothing. -/
def polled (s : SurveyNet) (i : Nat) (todo still : List Nat)
    (responses : List (Nat × Message)) : PollFinds → Option SurveyNet
  | .nothing => some (s.passOn todo (still ++ [i]) responses)
  | .failure =>
      match s.conns[i]? with
      | none => none
      | some c =>
          if c.upCut ∧ c.up = [] then some (s.passOn todo still responses) else none
  | .message =>
      match s.conns[i]? with
      | none => none
      | some c =>
          match c.up with
          | [] => none
          | raw :: up =>
              let s := s.setConn i { c with up := up }
              match s.state.processResponse raw with
              | none => none
              | some (.ok (), msg) => some (s.passOn todo still (responses ++ [(i, msg)]))
              | some (.error _, _) => some (s.passOn todo still responses)

/-- Something happens at connection `i`. -/
def atConn (s : SurveyNet) (i : Nat) (f : SurveyConn → Option SurveyConn) : Option SurveyNet :=
  match s.conns[i]? with
  | none => none
  | some c => (f c).map (s.setConn i)

def step (s : SurveyNet) (a : SurveyNetAct) : Option SurveyNet :=
  match a, s.phase with
  -- a call borrows the socket, so nobody joins and no other call starts
  | .join, .idle => some { s with conns := s.conns ++ [.fresh] }
  | .survey msg, .idle => s.survey msg
  | .sent ok, .sending outgoing i pending => s.sent outgoing i pending ok
  | .poll finds, .polling (i :: todo) still responses => s.polled i todo still responses finds
  | .resume, .yielded pending responses => some (s.loopHead pending responses)
  | .deadline, .yielded _ responses => some (s.finish responses)
  | .abandon, .yielded _ _ => some (s.await .idle)
  | .receive i, _ => s.atConn i fun c => c.receive
  | .respond i msg ok, _ => s.atConn i fun c => c.respond msg ok
  | .dropHandle i, _ => s.atConn i fun c => c.dropHandle
  | .cutDown i, _ => s.atConn i fun c => some c.cutDown
  | .cutUp i, _ => s.atConn i fun c => some c.cutUp
  | _, _ => none

end SurveyNet

end NngCore.Ref
