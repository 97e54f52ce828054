import NngCore.Ref.PubSub
import NngCore.Ref.Reconnect

/-!
# The subscriber (`Sub0` in `src/socket/pubsub0.rs`)

`next` receives until a message matches a subscription. A receive that fails
ends the call, or, on a socket that was told to reconnect, starts the redial
loop, which puts a new transport in the place of the old one: a framed one
with a new `RecvBuf`, or a new WebSocket, as the address says.

The call is one future with three awaits: the read of `recv`, and the sleep
and the dial of the redial loop. Between two of them it may come past the head
of its own loop, which is a step of its own here, `recv`; nothing else can
happen there. `subscribe_to` and `unsubscribe_from` borrow the socket as `next`
does, so they come between calls.

For the statements the socket keeps, of every connection it held, what was read
on it; the messages received, each with the calls that had changed the
subscriptions when it was; and what the calls of `next` returned.
-/

namespace NngCore.Ref

open NngCore.Lib

/-! ## The transports -/

/-- A framed connection being received from, and the bytes read on it. -/
structure FramedConn where
  recv : Receiver Unit Unit
  took : List UInt8

def FramedConn.fresh : FramedConn := ⟨.fresh (), []⟩

/-- The bytes a step of a receive takes off its stream. -/
def RecvAct.bytes {K : Type} : RecvAct K → List UInt8
  | .read (.ok bs) => bs
  | _ => []

/-- What a WebSocket stream yields: `other` is Ping, Pong and Text, and `ended`
the end of the stream. Fragments are put together before they get here. -/
inductive WsItem where
  | binary (data : List UInt8)
  | close
  | other
  | failed (e : String)
  | ended
  deriving DecidableEq

/-- `WsTransport::recv` handed an item, its error as `ws_err_to_nng` makes it;
`none` where it goes on to the next one. -/
def WsItem.received : WsItem → Option (Except NngError Message)
  | .binary data => some (.ok (Message.new.pushBack data))
  | .close => some (.error .connectionClosed)
  | .ended => some (.error .connectionClosed)
  | .other => none
  | .failed e => some (.error (.io e))

/-- A WebSocket being received from, and the items it has yielded. -/
structure WsConn where
  waiting : Bool
  took : List WsItem
  results : List (Except NngError Message)

def WsConn.fresh : WsConn := ⟨false, [], []⟩

def WsConn.read (c : WsConn) (i : WsItem) : WsConn :=
  let c := { c with took := c.took ++ [i] }
  match i.received with
  | none => c
  | some r => { c with waiting := false, results := c.results ++ [r] }

/-- The variants of `AnyTransport` that `connect_transport` makes. -/
inductive SubConn where
  | framed (c : FramedConn)
  | ws (c : WsConn)

inductive SubConnKind where
  | framed
  | ws

inductive SubConnAct where
  | call
  | read (r : ReadResult)
  | item (i : WsItem)
  | drop

def SubConnAct.recvAct : SubConnAct → Option (RecvAct Unit)
  | .call => some (.call ())
  | .read r => some (.read r)
  | .item _ => none
  | .drop => some .drop

namespace SubConn

def fresh : SubConnKind → SubConn
  | .framed => framed .fresh
  | .ws => ws .fresh

def kind : SubConn → SubConnKind
  | framed _ => .framed
  | ws _ => .ws

/-- What the calls of `AnyTransport::recv` returned. -/
def results : SubConn → List (Except NngError Message)
  | framed c => c.recv.results.map (Except.mapError .ofTransport)
  | ws c => c.results

def waiting : SubConn → Bool
  | framed c => c.recv.live.isSome
  | ws c => c.waiting

def panicked : SubConn → Bool
  | framed c => c.recv.panicked
  | ws _ => false

end SubConn

/-! ## The socket -/

/-- Where a `next` future stands: at the head of its loop, in the read of `recv`,
or in the redial loop. -/
inductive NextPhase where
  | looping
  | receiving
  | redialing (loop : Reconnect SubConn)

structure Sub0 where
  conn : SubConn
  past : List SubConn
  state : Sub0State
  dialAddr : Option String
  reconnect : Option ReconnectOptions
  live : Option NextPhase
  calls : List SubCall
  consumed : List (Message × List SubCall)
  returned : List (Except NngError Message)
  panicked : Bool

inductive Sub0Act where
  | change (call : SubCall)
  | next
  | recv
  | read (r : ReadResult)
  | item (i : WsItem)
  | slept
  | dialed (ok : Bool)
  | drop

section

variable (w : PointerWidth) (fmt : FrameFormat)

def FramedConn.step (c : FramedConn) (a : RecvAct Unit) : Option FramedConn :=
  match c.recv.step vecZeroed w fmt a with
  | none => none
  | some recv => some ⟨recv, c.took ++ a.bytes⟩

def WsConn.step (c : WsConn) (a : SubConnAct) : Option WsConn :=
  match a, c.waiting with
  | .call, false => some { c with waiting := true }
  | .item i, true => some (c.read i)
  | .drop, true => some { c with waiting := false }
  | _, _ => none

def SubConn.step (c : SubConn) (a : SubConnAct) : Option SubConn :=
  match c with
  | framed c => (a.recvAct.bind (c.step w fmt)).map framed
  | ws c => (c.step a).map ws

namespace Sub0

/-- The socket of the three `dial` functions; two of them leave the address and
the options out. -/
def dial (kind : SubConnKind) (dialAddr : Option String)
    (reconnect : Option ReconnectOptions) : Sub0 where
  conn := .fresh kind
  past := []
  state := .new
  dialAddr := dialAddr
  reconnect := reconnect
  live := none
  calls := []
  consumed := []
  returned := []
  panicked := false

def finish (s : Sub0) (r : Except NngError Message) : Sub0 :=
  { s with live := none, returned := s.returned ++ [r] }

def die (s : Sub0) : Sub0 := { s with live := none, panicked := true }

/-- `recv` has returned. -/
def received (s : Sub0) : Except NngError Message → Sub0
  | .ok msg =>
      let s := { s with consumed := s.consumed ++ [(msg, s.calls)] }
      if s.state.isMatch msg then s.finish (.ok msg) else { s with live := some .looping }
  | .error e =>
      match s.dialAddr, s.reconnect with
      | some _, some opts => { s with live := some (.redialing (.start opts s.conn)) }
      | _, _ => s.finish (.error e)

/-- `recv` ran to its await, or to its end with one more result. -/
def settle (s : Sub0) (conn : SubConn) : Sub0 :=
  let s := { s with conn := conn }
  if conn.panicked then s.die
  else
    match conn.waiting, conn.results.getLast? with
    | false, some r => s.received r
    | _, _ => { s with live := some .receiving }

/-- The redial loop got to `loop`. -/
def redialed (s : Sub0) (loop : Reconnect SubConn) : Sub0 :=
  match loop.phase with
  | .redial _ => { s with live := some (.redialing loop) }
  | .done (.ok ()) =>
      { s with conn := loop.transport, past := s.past ++ [s.conn], live := some .looping }
  | .done (.error e) => s.finish (.error e)
  | .panicked => s.die

def step (s : Sub0) (a : Sub0Act) : Option Sub0 :=
  match a, s.live with
  | .change call, none =>
      some { s with state := s.state.apply call, calls := s.calls ++ [call] }
  | .next, none => if s.panicked then none else some { s with live := some .looping }
  | .recv, some .looping => (s.conn.step w fmt .call).map s.settle
  | .read r, some .receiving => (s.conn.step w fmt (.read r)).map s.settle
  | .item i, some .receiving => (s.conn.step w fmt (.item i)).map s.settle
  | .slept, some (.redialing loop) => (loop.step .slept).map s.redialed
  | .dialed ok, some (.redialing loop) =>
      (loop.step (.dialed (if ok then some (.fresh s.conn.kind) else none))).map s.redialed
  | .drop, some .receiving =>
      (s.conn.step w fmt .drop).map fun conn => { s with conn := conn, live := none }
  | .drop, some (.redialing _) => some { s with live := none }
  | _, _ => none

/-- Every connection the socket has held, in order. -/
def connections (s : Sub0) : List SubConn := s.past ++ [s.conn]

end Sub0

end

end NngCore.Ref
