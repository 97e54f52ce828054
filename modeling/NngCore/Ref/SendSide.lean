import NngCore.Ref.SendRaw

/-!
# The sending side of a socket (`Socket<P>` in `src/socket.rs`)

`Push0::push` and `Pair0::send` are `send_raw`, one call after the other on one
socket. A call that redials leaves its connection for a new one, and so does a
receive of the same socket (`replace`).

The connections are framed. Kept for the statements: the connections the socket
has had, each with the messages whose send returned while it was held, and
whether a send was ever begun on it inside the frame of another one (`torn`). A
call leaves a connection inside a frame if it is dropped, or fails without a
redial coming through.
-/

namespace NngCore.Ref

open NngCore.Lib

/-- A connection, and what was sent on it. -/
structure SendLine where
  conn : RawConn
  done : List Message
  torn : Bool

def SendLine.fresh (fmt : FrameFormat) : SendLine := ⟨.fresh fmt, [], false⟩

structure SendSide where
  dialAddr : Option String
  reconnect : Option ReconnectOptions
  past : List SendLine
  held : SendLine
  live : Option SendRaw
  sent : List Message
  inside : Bool

inductive SendSideAct where
  | send (msg : Message)
  | raw (a : RawAct)
  | drop

namespace SendSide

/-- The socket of `listen` and of the `dial` functions. -/
def connected (dialAddr : Option String) (reconnect : Option ReconnectOptions)
    (fmt : FrameFormat) : SendSide :=
  ⟨dialAddr, reconnect, [], .fresh fmt, none, [], false⟩

/-- All connections the socket has had. -/
def lines (s : SendSide) : List SendLine := s.past ++ [s.held]

/-- No send was begun on connection `k` inside the frame of another one. -/
def whole (s : SendSide) (k : Nat) : Bool :=
  match s.lines[k]? with
  | some line => !line.torn
  | none => false

/-- Where the socket stands after a piece of its call. -/
def settle (s : SendSide) (c : SendRaw) : SendSide :=
  match c.returned with
  | none => { s with live := some c }
  | some (.ok ()) =>
      { s with
        live := none
        held := { s.held with done := s.held.done ++ [c.msg] }
        inside := false }
  | some (.error _) => { s with live := none, inside := !c.conn.since.isEmpty }

/-- The call has got from `c` to `c'`, perhaps with a new connection. -/
def follow (s : SendSide) (c c' : SendRaw) : SendSide :=
  if c'.past.length = c.past.length then { s with held := { s.held with conn := c'.conn } }
  else { s with past := s.past ++ [s.held], held := ⟨c'.conn, [], false⟩ }

/-- `send_raw(msg)` is called. -/
def send (s : SendSide) (msg : Message) : SendSide :=
  let c := SendRaw.call msg s.dialAddr s.reconnect s.held.conn.fmt s.held.conn.wire
  settle
    { s with
      held := { s.held with conn := c.conn, torn := s.held.torn || s.inside }
      sent := s.sent ++ [msg] } c

/-- Another call has put a new connection in the place of the one held. -/
def replace (s : SendSide) (fmt : FrameFormat) : SendSide :=
  { s with past := s.past ++ [s.held], held := .fresh fmt, inside := false }

def step (s : SendSide) (a : SendSideAct) : Option SendSide :=
  match a, s.live with
  | .send msg, none => some (s.send msg)
  | .raw a, some c =>
      match c.step a with
      | none => none
      | some c' => some ((s.follow c c').settle c')
  | .drop, some c => some { s with live := none, inside := !c.conn.since.isEmpty }
  | _, _ => none

end SendSide

end NngCore.Ref
