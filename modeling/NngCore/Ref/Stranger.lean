import NngCore.Lib.Run
import NngCore.Ref.Handshake

/-!
# A side that connects to anybody (`FramedTransport::connect`)

The same side as in `Ref.Handshake`, but nothing is known about the other end of
its stream. Reads come back with any bytes at all, as many as the slice holds at
most, with none at the end of the stream, or with an error; writes accept any
part of what they are offered, nothing, or fail. Whatever comes, the side does
what `connect`, `send` and `recv` do with it.
-/

namespace NngCore.Ref

open NngCore.Lib

inductive StrangerAct where
  | write (r : WriteResult)
  | read (r : ReadResult)
  | send (msg : Message)
  | call
  | drop

namespace Endpoint

variable (w : PointerWidth) (fmt : FrameFormat)

def meets (e : Endpoint) : StrangerAct → Option Endpoint
  | .write (.ok n) =>
      if n ≤ e.offered.length then
        (e.written (.ok n)).map fun e' => { e' with wrote := e'.wrote ++ e.offered.take n }
      else none
  | .write (.err err) => e.written (.err err)
  | .read (.ok bs) =>
      if bs.length ≤ e.room then
        (e.got w fmt (.ok bs)).map fun e' => { e' with took := e'.took ++ bs }
      else none
  | .read (.err err) => e.got w fmt (.err err)
  | .send msg => e.send fmt msg
  | .call => e.recv w fmt (.call ())
  | .drop => e.recv w fmt .drop

end Endpoint

end NngCore.Ref
