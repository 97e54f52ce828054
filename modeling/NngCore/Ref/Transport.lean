import NngCore.Ref.Codec

/-!
# The framed transport (`src/transport.rs`)

`send` and `recv` are futures, and a future is more than its answer: it stops
at every `await`, the executor decides what the awaited call comes back with,
and the caller may drop it there and never look at it again. So each of the
two is given here as the pieces of code between its awaits. Starting a future
runs to the first await or to the end; resuming one with the result of the
read or write it waits for runs to the next. What a dropped future leaves
behind is then whatever the pieces run so far wrote to the transport, and
nothing else: a local variable of `recv_inner` that should survive a drop has
to be a field of `RecvBuf`, which is exactly what the source is organised
around.

The stream below is not modelled here. A read comes back with some bytes (none
of them means end of stream) or an error; a write with a count or an error.
-/

namespace NngCore.Ref

open NngCore.Lib

inductive FrameFormat where
  | tcp
  | ipc
  deriving DecidableEq, Repr

/-- `MAX_FRAME_BYTES`, one gibibyte. -/
def maxFrameBytes : Nat := 1 <<< 30

inductive TransportError where
  | handshake (e : CodecError)
  | io (e : String)
  | closed
  | badFrameType (b : UInt8)
  | frameTooLarge (len : Nat)
  deriving DecidableEq, Repr

/-! ## Receiving -/

inductive RecvPhase where
  | idle
  | len
  | body
  deriving DecidableEq, Repr

/-- `RecvBuf`: the progress of a receive, kept in the transport so that it
outlives the future that made it. -/
structure RecvBuf where
  phase : RecvPhase
  lenBuf : Vector UInt8 9
  lenFilled : Nat
  body : List UInt8
  bodyFilled : Nat
  deriving DecidableEq, Repr

def RecvBuf.default : RecvBuf where
  phase := .idle
  lenBuf := Vector.replicate 9 0
  lenFilled := 0
  body := []
  bodyFilled := 0

/-- The two reads of `recv_inner`, which are its two awaits. -/
inductive RecvAwait where
  | len
  | body
  deriving DecidableEq, Repr

inductive ReadResult where
  | ok (bs : List UInt8)
  | err (e : String)
  deriving DecidableEq, Repr

/-- Where a run of `recv_inner` stops: in `inner.read` on a slice of `room`
bytes, at a `return`, or on a slice index out of range. -/
inductive RecvPoll where
  | pending (point : RecvAwait) (room : Nat)
  | ready (r : Except TransportError Message)
  | panicked
  deriving DecidableEq

/-- The length of `buf[lo..hi]` for a buffer of `len` bytes, if it exists. -/
def sliceLen (len lo hi : Nat) : Option Nat :=
  if lo ≤ hi ∧ hi ≤ len then some (hi - lo) else none

/-- `needed`: the length of the frame header. -/
def FrameFormat.needed : FrameFormat → Nat
  | .tcp => 8
  | .ipc => 9

/-- The middle of `recv_inner`, from a complete header to `payload_len` or to
one of its two early returns. -/
def payloadLen (w : PointerWidth) (fmt : FrameFormat) (lenBuf : List UInt8) :
    Except TransportError Nat :=
  let checked (len : Nat) : Except TransportError Nat :=
    if len > maxFrameBytes then .error (.frameTooLarge len) else .ok len
  match fmt with
  | .tcp => checked (w.asUsize (beNat (lenBuf.take 8)))
  | .ipc =>
      let kind := lenBuf.headD 0
      if kind ≠ 0x01 then .error (.badFrameType kind)
      else checked (w.asUsize (beNat ((lenBuf.drop 1).take 8)))

section Recv

/-! The `FnOnce` that allocates the body may change what it captured (a pool,
for `recv_pooled`), so it is handed that state and returns it. `K` says which
of the receive methods was called, each with its own closure. -/

variable {K S : Type} (alloc : K → S → Nat → List UInt8 × S)
variable (w : PointerWidth) (fmt : FrameFormat)

/-- Phase 2 from its loop test on. -/
def recvBody (rx : RecvBuf) : RecvBuf × RecvPoll :=
  if rx.bodyFilled < rx.body.length then
    match sliceLen rx.body.length rx.bodyFilled rx.body.length with
    | none => (rx, .panicked)
    | some room => (rx, .pending .body room)
  else
    ({ rx with phase := .idle, body := [] },
      .ready (.ok (Message.fromParts [] rx.body)))

/-- Phase 1 from its loop test on, and through into phase 2. -/
def recvLen (k : K) (s : S) (rx : RecvBuf) : S × RecvBuf × RecvPoll :=
  if rx.lenFilled < fmt.needed then
    match sliceLen 9 rx.lenFilled fmt.needed with
    | none => (s, rx, .panicked)
    | some room => (s, rx, .pending .len room)
  else
    match payloadLen w fmt rx.lenBuf.toList with
    | .error e => (s, { rx with phase := .idle }, .ready (.error e))
    | .ok len =>
        let (body, s') := alloc k s len
        (s', recvBody { rx with body := body, bodyFilled := 0, phase := .body })

/-- `recv_inner` up to its first await. -/
def recvInner (k : K) (s : S) (rx : RecvBuf) : S × RecvBuf × RecvPoll :=
  let rx := if rx.phase = .idle then { rx with lenFilled := 0, phase := .len } else rx
  if rx.phase = .len then recvLen alloc w fmt k s rx else (s, recvBody rx)

/-- `recv_inner` from the result of the read it awaits. -/
def recvResume (k : K) (s : S) (rx : RecvBuf) (point : RecvAwait) :
    ReadResult → S × RecvBuf × RecvPoll
  | .err e => (s, rx, .ready (.error (.io e)))
  | .ok bs =>
      if bs.length = 0 then (s, rx, .ready (.error .closed))
      else
        match point with
        | .len =>
            recvLen alloc w fmt k s
              { rx with
                lenBuf := overwriteVec rx.lenBuf rx.lenFilled bs
                lenFilled := rx.lenFilled + bs.length }
        | .body =>
            (s, recvBody
              { rx with
                body := overwrite rx.body rx.bodyFilled bs
                bodyFilled := rx.bodyFilled + bs.length })

end Recv

/-- The closure of `recv`: a fresh zeroed buffer every time. -/
def vecZeroed (_ : Unit) (s : Unit) (len : Nat) : List UInt8 × Unit :=
  (List.replicate len 0, s)

/-! ## A transport being received from

The caller's side of `recv`: at most one receive future is live at a time
(`recv` borrows the transport mutably), it was started by some method `k`, and
it is either resumed with what its read came back with or dropped. -/

structure LiveRecv (K : Type) where
  method : K
  point : RecvAwait
  room : Nat
  deriving DecidableEq

structure Receiver (K S : Type) where
  rx : RecvBuf
  captured : S
  live : Option (LiveRecv K)
  results : List (Except TransportError Message)
  panicked : Bool
  deriving DecidableEq

inductive RecvAct (K : Type) where
  | call (k : K)
  | read (r : ReadResult)
  | drop
  deriving DecidableEq

/-- A read never reports more bytes than the slice it was given holds. -/
def ReadResult.fits (room : Nat) : ReadResult → Bool
  | .ok bs => bs.length ≤ room
  | .err _ => true

namespace Receiver

variable {K S : Type} (alloc : K → S → Nat → List UInt8 × S)
variable (w : PointerWidth) (fmt : FrameFormat)

def fresh (s : S) : Receiver K S where
  rx := .default
  captured := s
  live := none
  results := []
  panicked := false

/-- Book where a piece of `recv_inner` stopped. -/
def settle (r : Receiver K S) (k : K) : S × RecvBuf × RecvPoll → Receiver K S
  | (s, rx, .pending point room) =>
      { r with rx := rx, captured := s, live := some ⟨k, point, room⟩ }
  | (s, rx, .ready res) =>
      { r with rx := rx, captured := s, live := none, results := r.results ++ [res] }
  | (s, rx, .panicked) =>
      { r with rx := rx, captured := s, live := none, panicked := true }

def step (r : Receiver K S) : RecvAct K → Option (Receiver K S)
  | .call k =>
      match r.live with
      | some _ => none
      | none =>
          if r.panicked then none
          else some (r.settle k (recvInner alloc w fmt k r.captured r.rx))
  | .read res =>
      match r.live with
      | none => none
      | some fut =>
          if res.fits fut.room then
            some (r.settle fut.method
              (recvResume alloc w fmt fut.method r.captured r.rx fut.point res))
          else none
  | .drop =>
      match r.live with
      | none => none
      | some _ => some { r with live := none }

end Receiver

/-! ## Sending -/

inductive WriteResult where
  | ok (n : Nat)
  | err (e : String)
  deriving DecidableEq, Repr

/-- A `send` future at one of its awaits: inside `write_all` on `buf`, of which
`written` bytes were accepted, with the `write_all` calls still to come. -/
structure SendFut where
  buf : List UInt8
  written : Nat
  rest : List (List UInt8)
  deriving DecidableEq, Repr

/-- The buffers `send` hands to `write_all`, in order. -/
def sendParts (fmt : FrameFormat) (msg : Message) : List (List UInt8) :=
  (if fmt = .ipc then [[0x01]] else [])
    ++ [beBytes 8 (msg.header.length + msg.body.length)]
    ++ (if msg.header = [] then [] else [msg.header])
    ++ (if msg.body = [] then [] else [msg.body])

/-- The next `write_all` that has anything to write; on an empty buffer the
loop of `write_all` does not run at all. -/
def nextWrite : List (List UInt8) → Option SendFut
  | [] => none
  | buf :: rest => if 0 < buf.length then some ⟨buf, 0, rest⟩ else nextWrite rest

/-- Where a run of `send` stops. -/
inductive SendPoll where
  | pending (fut : SendFut)
  | ready (r : Except TransportError Unit)
  deriving DecidableEq

def SendPoll.ofNext : Option SendFut → SendPoll
  | some fut => .pending fut
  | none => .ready (.ok ())

/-- `send` up to its first await. -/
def sendStart (fmt : FrameFormat) (msg : Message) : SendPoll :=
  .ofNext (nextWrite (sendParts fmt msg))

/-- The slice the awaited write was given. -/
def SendFut.offered (fut : SendFut) : List UInt8 := fut.buf.drop fut.written

/-- The bytes of the frame that no write has accepted yet. -/
def SendFut.left (fut : SendFut) : List UInt8 := fut.offered ++ fut.rest.flatten

/-- `send` from the result of the write it awaits. -/
def SendFut.resume (fut : SendFut) : WriteResult → SendPoll
  | .ok 0 => .ready (.error .closed)
  | .ok (n + 1) =>
      let written := fut.written + (n + 1)
      if written < fut.buf.length then .pending { fut with written := written }
      else .ofNext (nextWrite fut.rest)
  | .err e => .ready (.error (.io e))

/-- The bytes a completed `send` has written. -/
def frameBytes (fmt : FrameFormat) (msg : Message) : List UInt8 :=
  (if fmt = .ipc then [0x01] else []) ++ encodeFrame msg

end NngCore.Ref
