import NngCore.Lib.Run
import NngCore.Ref.Socket

/-!
# The fan-out push socket (`Push0Fan` in `src/socket/pipeline0.rs`)

`listen_and_accept` waits for `n` workers and never looks for more; the vector
it fills is the one the socket keeps. `push` takes the worker whose turn it is,
moves the turn on, and only then sends: the turn has passed on whatever becomes
of the send, which may fail, and may be dropped at any of its awaits.

A worker's transport is a framed stream or a WebSocket, as the listener is. A
framed send is `Ref.Transport`'s. A WebSocket send is awaited in another crate,
which has either taken the message into its own buffer by the time the future
ends or not; a send that returned `Ok` has.

For the statements a worker keeps the messages it was chosen for, those whose
send returned `Ok`, and whether a send on it ended inside its frame; and the
socket keeps the messages of the calls that chose a worker.
-/

namespace NngCore.Ref

open NngCore.Lib

/-! ## Workers -/

/-- What a listener makes of a connection. -/
inductive PushKind where
  | framed (fmt : FrameFormat)
  | ws
  deriving DecidableEq

inductive PushConn where
  | framed (fmt : FrameFormat) (wire : List UInt8)
  | ws (items : List (List UInt8))
  deriving DecidableEq

/-- A send on a worker's transport at one of its awaits. -/
inductive PushFut where
  | framed (fut : SendFut)
  | ws
  deriving DecidableEq

structure Worker where
  conn : PushConn
  given : List Message
  done : List Message
  torn : Bool
  deriving DecidableEq

namespace Worker

def fresh : PushKind → Worker
  | .framed fmt => ⟨.framed fmt [], [], [], false⟩
  | .ws => ⟨.ws [], [], [], false⟩

/-- The bytes `fut` has written are not yet a frame, and are more than none. -/
def midFrame (w : Worker) (msg : Message) (fut : SendFut) : Bool :=
  match w.conn with
  | .framed fmt _ => decide (fut.left.length < (frameBytes fmt msg).length)
  | .ws _ => false

def write (w : Worker) (bs : List UInt8) : Worker :=
  match w.conn with
  | .framed fmt wire => { w with conn := .framed fmt (wire ++ bs) }
  | .ws _ => w

/-- The WebSocket took the message. -/
def take (w : Worker) (msg : Message) : Worker :=
  match w.conn with
  | .framed _ _ => w
  | .ws items => { w with conn := .ws (items ++ [msg.header ++ msg.body]) }

end Worker

/-! ## The socket -/

structure PushCall where
  worker : Nat
  msg : Message
  fut : PushFut
  deriving DecidableEq

structure Push0Fan where
  workers : List Worker
  next : Nat
  live : Option PushCall
  pushed : List Message
  results : List (Except NngError Unit)
  panicked : Bool
  deriving DecidableEq

/-- `passed` says whether the WebSocket had taken the message. -/
inductive PushAct where
  | push (msg : Message)
  | write (r : WriteResult)
  | sent (r : Except String Unit) (passed : Bool)
  | drop (passed : Bool)
  deriving DecidableEq

namespace Push0Fan

/-- The loop of `listen_and_accept`, on what its calls of `accept_as_transport`
come to; nothing while it still waits. -/
def acceptLoop (n : Nat) (workers : List Worker) :
    List (Option PushKind) → Option (List Worker)
  | [] => if workers.length < n then none else some workers
  | a :: attempts =>
      if workers.length < n then
        match a with
        | some kind => acceptLoop n (workers ++ [.fresh kind]) attempts
        | none => acceptLoop n workers attempts
      else some workers

def listenAndAccept (n : Nat) (attempts : List (Option PushKind)) : Option Push0Fan :=
  (acceptLoop n [] attempts).map fun workers => ⟨workers, 0, none, [], [], false⟩

def setWorker (s : Push0Fan) (i : Nat) (w : Worker) : Push0Fan :=
  { s with workers := s.workers.set i w }

def finish (s : Push0Fan) (r : Except NngError Unit) : Push0Fan :=
  { s with live := none, results := s.results ++ [r] }

/-- Where a call stands after a piece of a framed send. -/
def settle (s : Push0Fan) (i : Nat) (w : Worker) (msg : Message) : SendPoll → Push0Fan
  | .pending fut => { s.setWorker i w with live := some ⟨i, msg, .framed fut⟩ }
  | .ready (.ok ()) => (s.setWorker i { w with done := w.done ++ [msg] }).finish (.ok ())
  | .ready (.error e) => (s.setWorker i w).finish (.error (.ofTransport e))

/-- `push` up to its first await. -/
def push (s : Push0Fan) (msg : Message) : Push0Fan :=
  if s.workers.isEmpty then s.finish (.error .noPeers)
  else
    let i := s.next
    let s := { s with next := (s.next + 1) % s.workers.length, pushed := s.pushed ++ [msg] }
    match s.workers[i]? with
    | none => { s with panicked := true }
    | some w =>
        let w := { w with given := w.given ++ [msg] }
        match w.conn with
        | .framed fmt _ => s.settle i w msg (sendStart fmt msg)
        | .ws _ => { s.setWorker i w with live := some ⟨i, msg, .ws⟩ }

/-- A write came back. It never accepts more than it was offered. -/
def written (s : Push0Fan) (i : Nat) (w : Worker) (msg : Message) (fut : SendFut) :
    WriteResult → Option Push0Fan
  | .ok n =>
      if n ≤ fut.offered.length then
        let w := { w.write (fut.offered.take n) with
          torn := w.torn || (n = 0 && w.midFrame msg fut) }
        some (s.settle i w msg (fut.resume (.ok n)))
      else none
  | .err e =>
      some (s.settle i { w with torn := w.torn || w.midFrame msg fut } msg
        (fut.resume (.err e)))

/-- A WebSocket send came back. -/
def wsSent (s : Push0Fan) (i : Nat) (w : Worker) (msg : Message) (passed : Bool) :
    Except String Unit → Option Push0Fan
  | .ok () =>
      if passed then
        some ((s.setWorker i { w.take msg with done := w.done ++ [msg] }).finish (.ok ()))
      else none
  | .error e =>
      some ((s.setWorker i (if passed then w.take msg else w)).finish (.error (.io e)))

/-- The future of a call is dropped. -/
def dropped (s : Push0Fan) (i : Nat) (w : Worker) (msg : Message) (passed : Bool) :
    PushFut → Push0Fan
  | .framed fut =>
      { s.setWorker i { w with torn := w.torn || w.midFrame msg fut } with live := none }
  | .ws => { s.setWorker i (if passed then w.take msg else w) with live := none }

def step (s : Push0Fan) (a : PushAct) : Option Push0Fan :=
  match a, s.live with
  | .push msg, none => if s.panicked then none else some (s.push msg)
  | .write r, some ⟨i, msg, .framed fut⟩ =>
      match s.workers[i]? with
      | none => none
      | some w => s.written i w msg fut r
  | .sent r passed, some ⟨i, msg, .ws⟩ =>
      match s.workers[i]? with
      | none => none
      | some w => s.wsSent i w msg passed r
  | .drop passed, some ⟨i, msg, fut⟩ =>
      match s.workers[i]? with
      | none => none
      | some w => some (s.dropped i w msg passed fut)
  | _, _ => none

end Push0Fan

end NngCore.Ref
