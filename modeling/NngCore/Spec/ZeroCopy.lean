import NngCore.Lib.Run
import NngCore.Ref.ZeroCopy

/-!
# The layout of a stack message

The picture in the source: header, free header space, trimmed bytes, body and
tailroom stand in this order, and the start of the body only moves right.
-/

namespace NngCore.Spec

open NngCore.Ref NngCore.Ref.ZeroCopyMessage

variable {N : UInt64}

structure Layout (z : ZeroCopyMessage N) : Prop where
  header : z.hEnd ≤ headerCap N
  trimmed : headerCap N ≤ z.bStart
  body : z.bStart ≤ z.bEnd
  tail : z.bEnd ≤ N.toNat

/-- A call that comes back leaves the layout in order, moved the body's start to
the right if at all, and trimmed no more than there was. -/
def KeepsLayout (z : ZeroCopyMessage N) (op : Op) : Prop :=
  ∀ z', z.apply op = some z' → Layout z' ∧ z.bStart ≤ z'.bStart ∧
    ∀ n, op = .trimFront n → n.toNat ≤ z.body.length

/-- The call is a `trim_front` whose guard adds past the largest `usize`. -/
def TrimWraps (z : ZeroCopyMessage N) (op : Op) : Prop :=
  ∃ n, op = .trimFront n ∧ 2 ^ 64 ≤ z.bStart + n.toNat

end NngCore.Spec
