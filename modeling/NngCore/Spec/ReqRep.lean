import NngCore.Lib.Run
import NngCore.Ref.ReqRep

/-!
# What request numbers are for

A requester calls `prepare_outgoing` over and over; the log keeps what each
call returned, so that the `k`-th request of a socket is an entry of it. A
request is answered by the other machine: the bytes of the request go through
`process_incoming` and come back on the reply. `Correlates k` is the purpose
of the whole numbering, seen from the requester that waits for the reply to
its `k`-th request: of all the replies that can still be on their way, that
one and no other is taken.
-/

namespace NngCore.Spec

open NngCore.Lib NngCore.Ref

/-- A requester and the IDs and stamped messages of its requests so far. -/
structure ReqLog where
  state : Req0State
  issued : List (UInt32 × Message)

def ReqLog.start : ReqLog := ⟨.new, []⟩

def ReqLog.step (l : ReqLog) (msg : Message) : Option ReqLog :=
  match l.state.prepareOutgoing msg with
  | none => none
  | some (id, out, s) => some ⟨s, l.issued ++ [(id, out)]⟩

/-- The reply message a replier sends for a request, as it leaves the replier. -/
def answered (request reply : Message) : Option Message :=
  match Rep0State.processIncoming request.received with
  | some (.ok routing, _) => Rep0State.prepareReply reply routing
  | _ => none

/-- Two request numbers so close that replies to both can be under way. -/
def Close (k j : Nat) : Prop := k < j + (2 ^ 31 - 1) ∧ j < k + (2 ^ 31 - 1)

/-- The requester waiting for the reply to its `k`-th request takes that reply,
unchanged, and no reply to a request `j` close to it. -/
def Correlates (k : Nat) : Prop :=
  ∀ (msgs : List Message) (l : ReqLog) (reply : Message) (j : Nat)
    (sentId id : UInt32) (waiting request : Message),
    (∀ m ∈ msgs, m.header = []) → reply.header = [] →
    run ReqLog.step .start msgs = some l → 1 ≤ j → Close k j →
    l.issued[k - 1]? = some (sentId, waiting) → l.issued[j - 1]? = some (id, request) →
      ∃ wire res msg, answered request reply = some wire ∧
        l.state.processIncoming wire.received sentId = some (res, msg) ∧
        (res = .ok () ↔ j = k) ∧ (res = .ok () → msg.body = reply.body)

/-! ## Backtraces

A request that came through forwarders has their words in front of its ID. The
high bit marks the last word of this backtrace, which is the ID itself. -/

structure HopWord where
  bytes : Vector UInt8 4
  clear : bytes.get 0 < 0x80

structure FinalWord where
  bytes : Vector UInt8 4
  marked : (0x80 : UInt8) ≤ bytes.get 0

def backtrace (hops : List HopWord) (last : FinalWord) : List UInt8 :=
  hops.flatMap (fun hop => hop.bytes.toList) ++ last.bytes.toList

/-- The replier takes the whole backtrace off such a request, and puts the whole
of it on the reply. -/
def Retraces (hops : List HopWord) (last : FinalWord) (payload : List UInt8) : Prop :=
  ∀ request reply : Message, request.body = backtrace hops last ++ payload →
    reply.header = [] →
      ∃ routing rest out, Rep0State.processIncoming request = some (.ok routing, rest) ∧
        rest.body = payload ∧ Rep0State.prepareReply reply routing = some out ∧
        out.header = backtrace hops last

end NngCore.Spec
