import NngCore.Ref.ReqRep

/-!
# The hop count of PAIR1 (`src/protocols/pair.rs`)
-/

namespace NngCore.Ref

open NngCore.Lib

inductive PairError where
  | ttlExpired
  | messageTooShort
  deriving DecidableEq, Repr

/-- `Pair1State`; `new` panics on anything but 1 to 15. -/
structure Pair1State where
  maxTtl : UInt8
  valid : 1 ≤ maxTtl ∧ maxTtl ≤ 15
  deriving DecidableEq

namespace Pair1State

variable {M : Type} [MessageBuf M]

def new (maxTtl : UInt8) : Option Pair1State :=
  if h : 1 ≤ maxTtl ∧ maxTtl ≤ 15 then some ⟨maxTtl, h⟩ else none

def attachTtl (s : Pair1State) (msg : M) : Option M :=
  let ttlField : UInt32 := 0x80000000 ||| s.maxTtl.toUInt32
  MessageBuf.headerPushBack msg (u32ToBeBytes ttlField)

def processIncoming (_s : Pair1State) (msg : M) : Option (Except PairError UInt8 × M) :=
  if (MessageBuf.body msg).length < 4 then some (.error .messageTooShort, msg)
  else
    let raw := u32FromBeBytes ((MessageBuf.body msg).take 4)
    match MessageBuf.trimFront msg 4 with
    | none => none
    | some msg =>
        let ttl := (raw &&& 0x0F).toUInt8
        if ttl = 0 then some (.error .ttlExpired, msg) else some (.ok ttl, msg)

end Pair1State

end NngCore.Ref
