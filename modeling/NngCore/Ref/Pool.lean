import NngCore.Lib.Run
import NngCore.Ref.Transport

/-!
# Pooled receive (`src/transport.rs`)

`recv_pooled` is `recv_inner` with another closure: the body buffer comes out
of a `BufferPool`, resized in place and not cleared. The pool is what the
closure captures, so a receiver that knows both methods is the receiver of
`Transport` with the method as its label and the pool as its captured state,
and one more thing its owner can do: give a message back with `recycle`.

A `Vec` has a capacity beside its contents, and `recycle` looks at nothing
else.
-/

namespace NngCore.Ref

open NngCore.Lib

/-- A `Vec<u8>` seen with its allocation. -/
structure Buf where
  data : List UInt8
  capacity : Nat
  fits : data.length ≤ capacity
  deriving DecidableEq

/-- `Vec::new()`, which is also the `Vec`'s default. -/
def Buf.empty : Buf := ⟨[], 0, Nat.le_refl 0⟩

/-- The contents after `resize(len, value)`: cut, or filled up with `value`. -/
def Buf.resize (buf : Buf) (len : Nat) (value : UInt8) : List UInt8 :=
  buf.data.take len ++ List.replicate (len - buf.data.length) value

/-- `BufferPool`. -/
structure BufferPool where
  bufs : List Buf
  maxBufs : Nat
  maxBufBytes : Nat
  deriving DecidableEq

namespace BufferPool

def withCapacity (maxBufs maxBufBytes : Nat) : BufferPool := ⟨[], maxBufs, maxBufBytes⟩

def new : BufferPool := withCapacity 16 (64 * 1024)

/-- `recycle`, on the two parts of the message. -/
def recycle (pool : BufferPool) (msg : List UInt8 × Buf) : BufferPool :=
  let (_, body) := msg
  if pool.bufs.length < pool.maxBufs ∧ body.capacity ≤ pool.maxBufBytes then
    { pool with bufs := pool.bufs ++ [body] }
  else pool

/-- `take`: the buffer pushed last, or an empty one. -/
def take (pool : BufferPool) : Buf × BufferPool :=
  (pool.bufs.getLast?.getD Buf.empty, { pool with bufs := pool.bufs.dropLast })

end BufferPool

/-! ## Both receive methods -/

inductive RecvMethod where
  | recv
  | recvPooled
  deriving DecidableEq, Repr

/-- The closure each method hands to `recv_inner`. -/
def allocBody : RecvMethod → BufferPool → Nat → List UInt8 × BufferPool
  | .recv, pool, len => (List.replicate len 0, pool)
  | .recvPooled, pool, len =>
      let (buf, pool) := pool.take
      (buf.resize len 0, pool)

inductive PoolAct where
  | transport (a : RecvAct RecvMethod)
  | recycle (msg : List UInt8 × Buf)
  deriving DecidableEq

/-- A transport and a pool in the hands of one owner. A live `recv_pooled`
borrows the pool, a live `recv` does not. -/
def poolStep (w : PointerWidth) (fmt : FrameFormat) (r : Receiver RecvMethod BufferPool) :
    PoolAct → Option (Receiver RecvMethod BufferPool)
  | .transport a => r.step allocBody w fmt a
  | .recycle msg =>
      if r.live.map LiveRecv.method = some .recvPooled then none
      else some { r with captured := r.captured.recycle msg }

end NngCore.Ref
