import NngCore.Ref.Transport

/-!
# Two sides connecting to each other (`FramedTransport::connect`)

`connect` writes the eight bytes of the local handshake with `write_all`, then
reads eight bytes with `read_exact` and checks them. It is a future like `send`
and `recv`, with an await in each of the two loops; what it returns is a
transport, or an error, and with the error the stream is dropped.

Two sides stand at the ends of two pipes, one in either direction. A pipe holds
a bounded number of bytes, keeps their order and loses none, also when the
side that wrote them is gone; a write takes as much as there is room for, a
read as much as is there. A write to a side that is gone fails, and a read
from one gets the end of the stream once the pipe is empty. A side that is
connected sends messages, each to its end, and receives; it does one of the
two at a time, since both borrow the transport.

For the statements a side keeps what it wrote, what it took out of its pipe and
which messages it was given to send.
-/

namespace NngCore.Ref

open NngCore.Lib

/-! ## `connect` -/

/-- A `connect` future at one of its awaits. -/
inductive ConnectFut where
  | writing (written : Nat)
  | reading (rx : Vector UInt8 8) (read : Nat)
  deriving DecidableEq

inductive ConnectPoll where
  | pending (fut : ConnectFut)
  | ready (r : Except TransportError Unit)
  deriving DecidableEq

/-- What `connect` makes of the eight bytes it has read. -/
def connectDone (loc : ProtocolId) (rx : Vector UInt8 8) : Except TransportError Unit :=
  match decodeHandshake rx with
  | .error e => .error (.handshake e)
  | .ok remote =>
      match checkPeer loc remote with
      | .error e => .error (.handshake e)
      | .ok () => .ok ()

/-- `read_exact` from its loop test on. -/
def connectRead (loc : ProtocolId) (rx : Vector UInt8 8) (read : Nat) : ConnectPoll :=
  if read < rx.toList.length then .pending (.reading rx read) else .ready (connectDone loc rx)

/-- `write_all` from its loop test on, and through into `read_exact`. -/
def connectWrite (loc : ProtocolId) (written : Nat) : ConnectPoll :=
  if written < (encodeHandshake loc).toList.length then .pending (.writing written)
  else connectRead loc (Vector.replicate 8 0) 0

/-- `connect` up to its first await. -/
def connectStart (loc : ProtocolId) : ConnectPoll := connectWrite loc 0

/-- `connect` from the result of the write it awaits. -/
def connectWritten (loc : ProtocolId) (written : Nat) : WriteResult → ConnectPoll
  | .ok 0 => .ready (.error .closed)
  | .ok (n + 1) => connectWrite loc (written + (n + 1))
  | .err e => .ready (.error (.io e))

/-- `connect` from the result of the read it awaits. -/
def connectGot (loc : ProtocolId) (rx : Vector UInt8 8) (read : Nat) :
    ReadResult → ConnectPoll
  | .err e => .ready (.error (.io e))
  | .ok bs =>
      if bs.length = 0 then .ready (.error .closed)
      else connectRead loc (overwriteVec rx read bs) (read + bs.length)

/-! ## One side -/

inductive EndState where
  | connecting (fut : ConnectFut)
  | failed (e : TransportError)
  | connected (recv : Receiver Unit Unit) (sending : Option SendFut)
  deriving DecidableEq

structure Endpoint where
  loc : ProtocolId
  state : EndState
  sent : List Message
  wrote : List UInt8
  took : List UInt8
  deriving DecidableEq

namespace Endpoint

def settle (e : Endpoint) : ConnectPoll → Endpoint
  | .pending fut => { e with state := .connecting fut }
  | .ready (.ok ()) => { e with state := .connected (.fresh ()) none }
  | .ready (.error err) => { e with state := .failed err }

/-- `connect(inner, loc, format)` up to its first await. -/
def start (loc : ProtocolId) : Endpoint :=
  settle ⟨loc, .connected (.fresh ()) none, [], [], []⟩ (connectStart loc)

/-- What the call has returned. -/
def outcome (e : Endpoint) : Option (Except TransportError Unit) :=
  match e.state with
  | .connecting _ => none
  | .failed err => some (.error err)
  | .connected _ _ => some (.ok ())

/-- A failed call has dropped its stream. -/
def gone (e : Endpoint) : Bool :=
  match e.state with
  | .failed _ => true
  | _ => false

/-- The slice the awaited write was given; there is none if no write is awaited. -/
def offered (e : Endpoint) : List UInt8 :=
  match e.state with
  | .connecting (.writing written) => (encodeHandshake e.loc).toList.drop written
  | .connected _ (some fut) => fut.offered
  | _ => []

/-- The length of the slice the awaited read was given. -/
def room (e : Endpoint) : Nat :=
  match e.state with
  | .connecting (.reading rx read) => rx.toList.length - read
  | .connected recv none =>
      match recv.live with
      | some fut => fut.room
      | none => 0
  | _ => 0

variable (w : PointerWidth) (fmt : FrameFormat)

def settleSend (e : Endpoint) (recv : Receiver Unit Unit) : SendPoll → Endpoint
  | .pending fut => { e with state := .connected recv (some fut) }
  | .ready _ => { e with state := .connected recv none }

/-- The awaited write came back. -/
def written (e : Endpoint) (r : WriteResult) : Option Endpoint :=
  match e.state with
  | .connecting (.writing k) => some (e.settle (connectWritten e.loc k r))
  | .connected recv (some fut) => some (e.settleSend recv (fut.resume r))
  | _ => none

/-- The awaited read came back. -/
def got (e : Endpoint) (r : ReadResult) : Option Endpoint :=
  match e.state with
  | .connecting (.reading rx read) => some (e.settle (connectGot e.loc rx read r))
  | .connected recv none =>
      match recv.step vecZeroed w fmt (.read r) with
      | none => none
      | some recv => some { e with state := .connected recv none }
  | _ => none

def send (e : Endpoint) (msg : Message) : Option Endpoint :=
  match e.state with
  | .connected recv none =>
      match recv.live with
      | some _ => none
      | none =>
          some ({ e with sent := e.sent ++ [msg] }.settleSend recv (sendStart fmt msg))
  | _ => none

/-- A receive is started, or dropped. -/
def recv (e : Endpoint) (a : RecvAct Unit) : Option Endpoint :=
  match e.state with
  | .connected recv none =>
      match recv.step vecZeroed w fmt a with
      | none => none
      | some recv => some { e with state := .connected recv none }
  | _ => none

end Endpoint

/-! ## Both sides -/

inductive Side where
  | left
  | right
  deriving DecidableEq, Repr

def Side.other : Side → Side
  | .left => .right
  | .right => .left

structure Pipe where
  capacity : Nat
  bytes : List UInt8
  deriving DecidableEq

/-- `pipes d` is the pipe that side `d` writes to and the other one reads from. -/
structure Duplex where
  ends : Side → Endpoint
  pipes : Side → Pipe

inductive DuplexAct where
  | write (d : Side) (n : Nat)
  | broken (d : Side) (e : String)
  | read (d : Side) (n : Nat)
  | eof (d : Side)
  | send (d : Side) (msg : Message)
  | call (d : Side)
  | drop (d : Side)

namespace Duplex

def start (loc : Side → ProtocolId) (capacity : Side → Nat) : Duplex where
  ends d := .start (loc d)
  pipes d := ⟨capacity d, []⟩

variable (w : PointerWidth) (fmt : FrameFormat)

def setEnd (s : Duplex) (d : Side) (e : Endpoint) : Duplex :=
  { s with ends := Function.update s.ends d e }

def setBytes (s : Duplex) (d : Side) (bytes : List UInt8) : Duplex :=
  { s with pipes := Function.update s.pipes d { s.pipes d with bytes := bytes } }

/-- The bytes go into the pipe, and the writer is told how many. -/
def write (s : Duplex) (d : Side) (n : Nat) : Option Duplex :=
  let e := s.ends d
  let pipe := s.pipes d
  if (s.ends d.other).gone = false ∧ 0 < n ∧ n ≤ e.offered.length ∧
      pipe.bytes.length + n ≤ pipe.capacity then
    let bs := e.offered.take n
    match e.written (.ok n) with
    | none => none
    | some e =>
        some ((s.setEnd d { e with wrote := e.wrote ++ bs }).setBytes d (pipe.bytes ++ bs))
  else none

/-- Bytes come out of the pipe, as many as the slice holds at most. -/
def read (s : Duplex) (d : Side) (n : Nat) : Option Duplex :=
  let e := s.ends d
  let pipe := s.pipes d.other
  if 0 < n ∧ n ≤ e.room ∧ n ≤ pipe.bytes.length then
    let bs := pipe.bytes.take n
    match e.got w fmt (.ok bs) with
    | none => none
    | some e =>
        some ((s.setEnd d { e with took := e.took ++ bs }).setBytes d.other
          (pipe.bytes.drop n))
  else none

def step (s : Duplex) : DuplexAct → Option Duplex
  | .write d n => s.write d n
  | .broken d err =>
      if (s.ends d.other).gone then ((s.ends d).written (.err err)).map (s.setEnd d) else none
  | .read d n => s.read w fmt d n
  | .eof d =>
      if (s.ends d.other).gone ∧ (s.pipes d.other).bytes = [] then
        ((s.ends d).got w fmt (.ok [])).map (s.setEnd d)
      else none
  | .send d msg => ((s.ends d).send fmt msg).map (s.setEnd d)
  | .call d => ((s.ends d).recv w fmt (.call ())).map (s.setEnd d)
  | .drop d => ((s.ends d).recv w fmt .drop).map (s.setEnd d)

end Duplex

end NngCore.Ref
