import NngCore.Ref.Pipeline
import NngCore.Ref.SendSide
import NngCore.Ref.Sub0

/-!
# Push sockets and a fan-in pull socket (`src/socket/pipeline0.rs`)

Any number of `Push0` sockets dial one `Pull0Fan`. A push socket that was told to
reconnect leaves a connection whose send failed and sends the message again on a
new one. The fan gets a reader for every connection it accepts; of one pusher it
may have several at a time, since the reader of a connection that was given up
still has what was written there.

A connection between the two is a stream that is read in the order it was
written; when it is accepted, what is read at a time and when is up to the
network.
-/

namespace NngCore.Ref

open NngCore.Lib

/-- A reader of the fan: whose connection it has, and how many of the results of
its receives it was given. -/
structure FanInLine where
  pusher : Nat
  line : Nat
  conn : FramedConn
  given : Nat

structure FanInNet where
  pushers : List SendSide
  fan : Pull0Fan
  lines : List FanInLine

inductive FanInAct where
  | push (p : Nat) (a : SendSideAct)
  | accept (p k : Nat)
  | read (i : Nat) (a : RecvAct Unit)
  | received (i : Nat)
  | fan (a : Pull0Fan.FanAct)

namespace FanInNet

/-- The sockets are dialed, and the fan is bound. -/
def dialed (pushers : List SendSide) (fan : Pull0Fan) : FanInNet := ⟨pushers, fan, []⟩

/-- The other end of a reader's connection. -/
def sender (s : FanInNet) (l : FanInLine) : Option SendLine :=
  (s.pushers[l.pusher]?).bind fun v => v.lines[l.line]?

/-- Connection `k` of pusher `p` is accepted; a connection is accepted once. -/
def accept (s : FanInNet) (p k : Nat) : Option FanInNet :=
  match (s.pushers[p]?).bind fun v => v.lines[k]? with
  | none => none
  | some _ =>
      if (p, k) ∈ s.lines.map fun l => (l.pusher, l.line) then none
      else
        match s.fan.step .addPusher with
        | none => none
        | some fan => some { s with fan := fan, lines := s.lines ++ [⟨p, k, .fresh, 0⟩] }

/-- A reader receives; what it got before it has been given. -/
def read (w : PointerWidth) (s : FanInNet) (i : Nat) (a : RecvAct Unit) : Option FanInNet :=
  match s.lines[i]? with
  | none => none
  | some l =>
      match s.sender l with
      | none => none
      | some line =>
          if l.given = l.conn.recv.results.length then
            match l.conn.step w line.conn.fmt a with
            | none => none
            | some c =>
                if c.took.isPrefixOf line.conn.wire then
                  some { s with lines := s.lines.set i { l with conn := c } }
                else none
          else none

/-- A reader is given the result of its receive. -/
def received (s : FanInNet) (i : Nat) : Option FanInNet :=
  match s.lines[i]? with
  | none => none
  | some l =>
      match l.conn.recv.results[l.given]? with
      | none => none
      | some r =>
          match s.fan.step (.received i (r.mapError .ofTransport)) with
          | none => none
          | some fan =>
              some
                { s with fan := fan, lines := s.lines.set i { l with given := l.given + 1 } }

def step (w : PointerWidth) (s : FanInNet) : FanInAct → Option FanInNet
  | .push p a =>
      match s.pushers[p]? with
      | none => none
      | some v => (v.step a).map fun v => { s with pushers := s.pushers.set p v }
  | .accept p k => s.accept p k
  | .read i a => s.read w i a
  | .received i => s.received i
  | .fan .addPusher => none
  | .fan (.received _ _) => none
  | .fan a => (s.fan.step a).map fun fan => { s with fan := fan }

end FanInNet

end NngCore.Ref
