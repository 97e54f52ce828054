import NngCore.Ref.Message

/-!
# The stack message (`src/message.rs`)

`ZeroCopyMessage<N>` keeps header and body in one array of `N` bytes: the
header grows inside the first quarter, the body in the rest, and trimming the
body moves its start and no byte. `N` and the three offsets are `usize`, of 64
bits here, and their sums wrap, as they do in a release build.

Every operation checks its new offset and then slices the array up to it. Both
can panic, and neither has changed anything when it does: the offset is stored
last.
-/

namespace NngCore.Ref

open NngCore.Lib

/-- `a + b` on `usize`, in a release build. -/
def usizeAdd (a b : Nat) : Nat := (a + b) % 2 ^ 64

structure ZeroCopyMessage (N : UInt64) where
  buf : Vector UInt8 N.toNat
  hEnd : Nat
  bStart : Nat
  bEnd : Nat
  deriving DecidableEq

namespace ZeroCopyMessage

variable {N : UInt64}

/-- `HEADER_CAP`. -/
def headerCap (N : UInt64) : Nat := N.toNat / 4

def new : ZeroCopyMessage N := ⟨Vector.replicate N.toNat 0, 0, headerCap N, headerCap N⟩

def bodyRemaining (z : ZeroCopyMessage N) : Nat := N.toNat - z.bEnd

/-- `&self.buf[self.b_start..self.b_end]`. -/
def body (z : ZeroCopyMessage N) : List UInt8 :=
  (z.buf.toList.take z.bEnd).drop z.bStart

/-- `&self.buf[..self.h_end]`. -/
def header (z : ZeroCopyMessage N) : List UInt8 := z.buf.toList.take z.hEnd

/-- `self.buf[lo..hi].copy_from_slice(data)`. -/
def copyFromSlice (buf : Vector UInt8 N.toNat) (lo hi : Nat) (data : List UInt8) :
    Option (Vector UInt8 N.toNat) :=
  if lo ≤ hi ∧ hi ≤ N.toNat ∧ hi - lo = data.length then some (overwriteVec buf lo data)
  else none

def pushBack (z : ZeroCopyMessage N) (data : List UInt8) : Option (ZeroCopyMessage N) :=
  let newEnd := usizeAdd z.bEnd data.length
  if newEnd ≤ N.toNat then
    match copyFromSlice z.buf z.bEnd newEnd data with
    | none => none
    | some buf => some { z with buf := buf, bEnd := newEnd }
  else none

def headerPushBack (z : ZeroCopyMessage N) (data : List UInt8) :
    Option (ZeroCopyMessage N) :=
  let newEnd := usizeAdd z.hEnd data.length
  if newEnd ≤ headerCap N then
    match copyFromSlice z.buf z.hEnd newEnd data with
    | none => none
    | some buf => some { z with buf := buf, hEnd := newEnd }
  else none

def trimFront (z : ZeroCopyMessage N) (n : Nat) : Option (ZeroCopyMessage N) :=
  if usizeAdd z.bStart n ≤ z.bEnd then some { z with bStart := usizeAdd z.bStart n }
  else none

instance : MessageBuf (ZeroCopyMessage N) where
  body := body
  header := header
  pushBack := pushBack
  headerPushBack := headerPushBack
  trimFront := trimFront

/-! ## A message in use -/

inductive Op where
  | pushBack (data : List UInt8)
  | headerPushBack (data : List UInt8)
  | trimFront (n : UInt64)
  deriving DecidableEq

def apply (z : ZeroCopyMessage N) : Op → Option (ZeroCopyMessage N)
  | .pushBack data => z.pushBack data
  | .headerPushBack data => z.headerPushBack data
  | .trimFront n => z.trimFront n.toNat

/-- A call that panics leaves the message as it was. -/
def step (z : ZeroCopyMessage N) (op : Op) : Option (ZeroCopyMessage N) :=
  some ((z.apply op).getD z)

end ZeroCopyMessage

end NngCore.Ref
