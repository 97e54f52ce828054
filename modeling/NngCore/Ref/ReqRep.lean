import NngCore.Ref.Message

/-!
# The REQ0 and REP0 state machines (`src/protocols/reqrep.rs`)

The requester numbers its requests with a wrapping 32-bit counter that skips
zero, writes the number with its high bit set in front of the body, and takes
the high bit off again before it compares a reply. The replier copies the four
bytes it was sent and knows nothing about numbers.

Both are written against `MessageBuf`, whose operations may panic; the outer
`Option` of every function here is that panic. A message that fails a check
has still been trimmed, as in the source, so the message comes back either way.
-/

namespace NngCore.Ref

open NngCore.Lib

inductive ReqRepError where
  | idMismatch (got expected : UInt32)
  | messageTooShort
  deriving DecidableEq, Repr

/-- `u32::to_be_bytes`. -/
def u32ToBeBytes (n : UInt32) : List UInt8 := beBytes 4 n.toNat

/-- `u32::from_be_bytes`. -/
def u32FromBeBytes (bs : List UInt8) : UInt32 := UInt32.ofNat (beNat bs)

structure Req0State where
  nextId : UInt32
  deriving DecidableEq, Repr

namespace Req0State

variable {M : Type} [MessageBuf M]

def new : Req0State := ⟨1⟩

/-- `prepare_outgoing`: the raw ID, the stamped message, the state after. -/
def prepareOutgoing (s : Req0State) (msg : M) : Option (UInt32 × M × Req0State) :=
  let id := s.nextId
  let wireId := id ||| 0x80000000
  match MessageBuf.headerPushBack msg (u32ToBeBytes wireId) with
  | none => none
  | some msg => some (id, msg, ⟨max (s.nextId + 1) 1⟩)

/-- `process_incoming`: strip the ID and compare it with `sentId`. -/
def processIncoming (_s : Req0State) (msg : M) (sentId : UInt32) :
    Option (Except ReqRepError Unit × M) :=
  if (MessageBuf.body msg).length < 4 then some (.error .messageTooShort, msg)
  else
    let wireId := u32FromBeBytes ((MessageBuf.body msg).take 4)
    match MessageBuf.trimFront msg 4 with
    | none => none
    | some msg =>
        let id := wireId &&& 0x7fffffff
        if id ≠ sentId then some (.error (.idMismatch id sentId), msg)
        else some (.ok (), msg)

end Req0State

/-- `RoutingInfo`: the four ID bytes as they came. -/
structure RoutingInfo where
  bytes : Vector UInt8 4
  deriving DecidableEq, Repr

namespace Rep0State

variable {M : Type} [MessageBuf M]

/-- `Rep0State::process_incoming`. -/
def processIncoming (msg : M) : Option (Except ReqRepError RoutingInfo × M) :=
  if h : (MessageBuf.body msg).length < 4 then some (.error .messageTooShort, msg)
  else
    let idBytes : Vector UInt8 4 := ⟨((MessageBuf.body msg).take 4).toArray, by
      rw [List.size_toArray, List.length_take]
      omega⟩
    match MessageBuf.trimFront msg 4 with
    | none => none
    | some msg => some (.ok ⟨idBytes⟩, msg)

/-- `Rep0State::prepare_reply`. -/
def prepareReply (msg : M) (routing : RoutingInfo) : Option M :=
  MessageBuf.headerPushBack msg routing.bytes.toList

end Rep0State

/-! ## The heap message

What the two machines do to the message the sockets use, with the panics gone:
the length test in front of it is what makes `trim_front` safe. -/

@[simp] theorem length_u32ToBeBytes (n : UInt32) : (u32ToBeBytes n).length = 4 :=
  length_beBytes 4 n.toNat

theorem u32FromBeBytes_u32ToBeBytes (n : UInt32) :
    u32FromBeBytes (u32ToBeBytes n) = n := by
  have hlt : n.toNat < 256 ^ 4 := n.toNat_lt
  rw [u32FromBeBytes, u32ToBeBytes, beNat_beBytes_of_lt hlt, UInt32.ofNat_toNat]

theorem prepareOutgoing_message (s : Req0State) (msg : Message) :
    s.prepareOutgoing msg =
      some (s.nextId, msg.headerPushBack (u32ToBeBytes (s.nextId ||| 0x80000000)),
        ⟨max (s.nextId + 1) 1⟩) := rfl

theorem req_processIncoming_message (s : Req0State) (msg : Message) (sentId : UInt32) :
    s.processIncoming msg sentId =
      if msg.body.length < 4 then some (.error .messageTooShort, msg)
      else if u32FromBeBytes (msg.body.take 4) &&& 0x7fffffff ≠ sentId then
        some (.error (.idMismatch (u32FromBeBytes (msg.body.take 4) &&& 0x7fffffff) sentId),
          { msg with body := msg.body.drop 4 })
      else some (.ok (), { msg with body := msg.body.drop 4 }) := by
  simp only [Req0State.processIncoming, MessageBuf.body, MessageBuf.trimFront]
  split
  · rfl
  · next hlong => rw [Message.trimFront_of_le (Nat.le_of_not_lt hlong)]

/-- The requester reads a wire ID back off the front of a reply. -/
theorem req_processIncoming_stamped (s : Req0State) (wireId sentId : UInt32)
    (rest : List UInt8) :
    s.processIncoming (Message.fromParts [] (u32ToBeBytes wireId ++ rest)) sentId =
      if wireId &&& 0x7fffffff ≠ sentId then
        some (.error (.idMismatch (wireId &&& 0x7fffffff) sentId), Message.fromParts [] rest)
      else some (.ok (), Message.fromParts [] rest) := by
  have h4 := length_u32ToBeBytes wireId
  have htake : (u32ToBeBytes wireId ++ rest).take 4 = u32ToBeBytes wireId := by
    rw [← h4, List.take_left]
  have hdrop : (u32ToBeBytes wireId ++ rest).drop 4 = rest := by
    rw [← h4, List.drop_left]
  have hlong : ¬ (u32ToBeBytes wireId ++ rest).length < 4 := by
    rw [List.length_append]
    omega
  rw [req_processIncoming_message]
  simp only [Message.fromParts, if_neg hlong, htake, hdrop, u32FromBeBytes_u32ToBeBytes]

/-- The replier copies the four bytes in front. -/
theorem rep_processIncoming_message (msg : Message) :
    Rep0State.processIncoming msg =
      if h : msg.body.length < 4 then some (.error .messageTooShort, msg)
      else some (.ok ⟨⟨(msg.body.take 4).toArray, by
          rw [List.size_toArray, List.length_take]
          omega⟩⟩, { msg with body := msg.body.drop 4 }) := by
  simp only [Rep0State.processIncoming, MessageBuf.body, MessageBuf.trimFront]
  split
  · rfl
  · next hlong => rw [Message.trimFront_of_le (Nat.le_of_not_lt hlong)]

end NngCore.Ref
