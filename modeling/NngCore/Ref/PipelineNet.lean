import NngCore.Ref.Push0Fan
import NngCore.Ref.Sub0

/-!
# A push socket and its pull sockets (`src/socket/pipeline0.rs`)

`Push0Fan` at one end of `n` connections and a `Pull0` at the other end of each.
`Pull0::pull` is `recv_raw`, and without reconnect that is one `recv` of the
transport; with it nothing is added, since the listener is gone once
`listen_and_accept` has returned and no redial comes through. So a pull socket
is its transport, and what it has pulled is what its receives returned.

The connection between the two is a stream that is read in the order it was
written: what was read is a beginning of what was written. What is read at a
time, and when, is up to the network.
-/

namespace NngCore.Ref

open NngCore.Lib

/-- The payload of a binary message. -/
def WsItem.data? : WsItem → Option (List UInt8)
  | .binary data => some data
  | _ => none

/-- What was read so far is a beginning of what was written. -/
def PushConn.carries (conn : PushConn) (c : SubConn) : Bool :=
  match conn, c with
  | .framed _ wire, .framed c => c.took.isPrefixOf wire
  | .ws items, .ws c => (c.took.filterMap WsItem.data?).isPrefixOf items
  | _, _ => false

def PushConn.fmt : PushConn → FrameFormat
  | .framed fmt _ => fmt
  | .ws _ => .tcp

/-- The other end of a connection. -/
def PushConn.other : PushConn → SubConn
  | .framed _ _ => .fresh .framed
  | .ws _ => .fresh .ws

structure PipelineNet where
  fan : Push0Fan
  pullers : List SubConn

inductive PipelineAct where
  | fan (a : PushAct)
  | pull (i : Nat) (a : SubConnAct)

namespace PipelineNet

/-- All `n` workers are connected. -/
def connected (fan : Push0Fan) : PipelineNet := ⟨fan, fan.workers.map fun w => w.conn.other⟩

def step (w : PointerWidth) (s : PipelineNet) : PipelineAct → Option PipelineNet
  | .fan a => (s.fan.step a).map fun fan => { s with fan := fan }
  | .pull i a =>
      match s.fan.workers[i]?, s.pullers[i]? with
      | some worker, some c =>
          match c.step w worker.conn.fmt a with
          | none => none
          | some c =>
              if worker.conn.carries c then some { s with pullers := s.pullers.set i c }
              else none
      | _, _ => none

end PipelineNet

end NngCore.Ref
