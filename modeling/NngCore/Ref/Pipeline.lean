import NngCore.Lib.Channel
import NngCore.Lib.Run
import NngCore.Ref.Socket

/-!
# The fan-in pull socket (`src/socket/pipeline0.rs`)

`Pull0Fan` runs one reader task for every pusher. A reader receives from its
connection and sends what it gets, message or error, into a channel shared by
all of them; an error ends it. The caller takes messages out of the channel
and skips the errors.

The channel's sending handles are the fan's own `tx` and the clone each reader
took when it was spawned, which goes when the reader exits. The fan's
`shutdown` sender is dropped together with the receiving half, so one flag,
the channel's `receiver`, stands for both.

A reader stops in two places: in the `select!` that receives or is cancelled,
and in the send of what it received. A step is what a reader, the accept loop
or the caller does next, in any order. `pull_any` and `poll_next` keep nothing
between two polls, so a call is known by its polls and a dropped one is a call
that is not polled again. Kept for the statements alone: what each reader
received, which reader an item came from and what the caller was given.
-/

namespace NngCore.Ref

open NngCore.Lib

structure FanItem where
  reader : Nat
  result : Except NngError Message

inductive ReaderPhase where
  | receiving
  | sending (result : Except NngError Message)
  | exited

structure Reader where
  phase : ReaderPhase
  received : List Message

namespace Reader

/-- The task that `spawn_reader` starts. -/
def spawned : Reader := ⟨.receiving, []⟩

def live (r : Reader) : Bool :=
  match r.phase with
  | .exited => false
  | _ => true

end Reader

/-- `awaited` is how many pushers the accept loop of `listen_and_accept` is to
admit before the caller has the fan. -/
structure Pull0Fan where
  chan : Channel FanItem
  readers : List Reader
  n : Nat
  awaited : Nat
  pulled : List (Nat × Message)

namespace Pull0Fan

/-! ## Making one -/

/-- The largest channel: `usize::MAX >> 3` permits. -/
def maxPermits (w : PointerWidth) : Nat := (2 ^ w.bits - 1) / 2 ^ 3

def empty (w : PointerWidth) (capacity awaited : Nat) : Option Pull0Fan :=
  match Channel.new (maxPermits w) capacity with
  | none => none
  | some chan => some ⟨chan, [], 0, awaited, []⟩

/-- The accept loop is ahead of it; its pushers come in as steps. -/
def listenAndAccept (w : PointerWidth) (n : Nat) : Option Pull0Fan :=
  empty w (w.asUsize (n * 4)) n

def bind (w : PointerWidth) : Option Pull0Fan := empty w 64 0

/-- The caller has the fan, and has not dropped it. -/
def callable (s : Pull0Fan) : Bool := s.chan.receiver && s.awaited ≤ s.n

def senderCount (s : Pull0Fan) : Nat := s.n

/-! ## The readers -/

def setReader (s : Pull0Fan) (i : Nat) (r : Reader) : Pull0Fan :=
  { s with readers := s.readers.set i r }

def spawnReader (s : Pull0Fan) : Pull0Fan :=
  { s with
    chan := s.chan.cloneSender
    readers := s.readers ++ [.spawned]
    n := s.n + 1 }

/-- The task is over, and its handle with it. -/
def exitReader (s : Pull0Fan) (i : Nat) (r : Reader) : Pull0Fan :=
  { s with
    chan := s.chan.dropSender
    readers := s.readers.set i { r with phase := .exited } }

/-- `transport.recv()` came back with `result`. -/
def received (s : Pull0Fan) (i : Nat) (r : Reader) (result : Except NngError Message) :
    Pull0Fan :=
  s.setReader i ⟨.sending result, r.received ++ result.toOption.toList⟩

/-- `tx.send(result)` came back: only a message that was taken lets the reader
go on. -/
def sent (s : Pull0Fan) (i : Nat) (r : Reader) (result : Except NngError Message) :
    Option Pull0Fan :=
  match s.chan.send ⟨i, result⟩ with
  | none => none
  | some (taken, chan) =>
      let s := { s with chan := chan }
      match taken, result with
      | true, .ok _ => some (s.setReader i { r with phase := .receiving })
      | _, _ => some (s.exitReader i r)

/-! ## The caller -/

/-- The loop of `pull_any` and `poll_next`: errors are skipped, and a closed
channel is the end. -/
def recvLoop : Nat → Pull0Fan → Poll (Option Message) × Pull0Fan
  | 0, s => (.pending, s)
  | fuel + 1, s =>
      match s.chan.pollRecv with
      | (.ready none, chan) => (.ready none, { s with chan := chan })
      | (.ready (some ⟨i, .ok msg⟩), chan) =>
          (.ready (some msg), { s with chan := chan, pulled := s.pulled ++ [(i, msg)] })
      | (.ready (some ⟨_, .error _⟩), chan) => recvLoop fuel { s with chan := chan }
      | (.pending, chan) => (.pending, { s with chan := chan })

/-- Every turn but the last takes an item out. -/
def poll (s : Pull0Fan) : Poll (Option Message) × Pull0Fan :=
  recvLoop (s.chan.items.length + 1) s

def pullAny (s : Pull0Fan) : Poll (Except NngError Message) × Pull0Fan :=
  (s.poll.1.map fun
    | none => .error .noPeers
    | some msg => .ok msg, s.poll.2)

def pollNext (s : Pull0Fan) : Poll (Option Message) × Pull0Fan := s.poll

/-! ## The system -/

inductive FanAct where
  | addPusher
  | received (i : Nat) (result : Except NngError Message)
  | sent (i : Nat)
  | cancelled (i : Nat)
  | pullAny
  | pollNext
  | drop

def step (s : Pull0Fan) : FanAct → Option Pull0Fan
  -- by the accept loop as long as that runs, by `add_pusher` afterwards
  | .addPusher => if s.chan.receiver then some s.spawnReader else none
  | .received i result =>
      match s.readers[i]? with
      | some r =>
          match r.phase with
          | .receiving => some (s.received i r result)
          | _ => none
      | none => none
  | .sent i =>
      match s.readers[i]? with
      | some r =>
          match r.phase with
          | .sending result => s.sent i r result
          | _ => none
      | none => none
  | .cancelled i =>
      match s.readers[i]? with
      | some r =>
          match r.phase with
          | .receiving => if s.chan.receiver then none else some (s.exitReader i r)
          | _ => none
      | none => none
  | .pullAny => if s.callable then some s.pullAny.2 else none
  | .pollNext => if s.callable then some s.pollNext.2 else none
  | .drop =>
      if s.chan.receiver then some { s with chan := s.chan.dropReceiver.dropSender } else none

end Pull0Fan

end NngCore.Ref
