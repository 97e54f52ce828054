import NngCore.Ref.Pool

/-!
# The pool must not show

What an owner who knows nothing of pools would have seen: the same calls and
the same reads, every call a `recv`, and nothing recycled.
-/

namespace NngCore.Spec

open NngCore.Lib NngCore.Ref

/-- The same call, drop or read with `recv` in place of either method. -/
def recvOnly : RecvAct RecvMethod → RecvAct Unit
  | .call _ => .call ()
  | .read r => .read r
  | .drop => .drop

/-- What the owner without a pool does; to recycle is not among it. -/
def withoutPool : PoolAct → Option (RecvAct Unit)
  | .transport a => some (recvOnly a)
  | .recycle _ => none

/-- The transport as the owner without a pool has it. -/
def forgetPool (r : Receiver RecvMethod BufferPool) : Receiver Unit Unit where
  rx := r.rx
  captured := ()
  live := r.live.map fun fut => ⟨(), fut.point, fut.room⟩
  results := r.results
  panicked := r.panicked

/-- The two bounds of a pool, and that they are the ones it was made with. -/
structure WithinCaps (maxBufs maxBufBytes : Nat) (pool : BufferPool) : Prop where
  maxBufs_eq : pool.maxBufs = maxBufs
  maxBufBytes_eq : pool.maxBufBytes = maxBufBytes
  count : pool.bufs.length ≤ maxBufs
  size : ∀ buf ∈ pool.bufs, buf.capacity ≤ maxBufBytes

end NngCore.Spec
