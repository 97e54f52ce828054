import NngCore.Ref.Hub
import NngCore.Ref.Udp

/-!
# Sending on any transport (`AnyTransport` in `src/socket.rs`)

The framed and the datagram variant behind one `send` and one `recv`. The
framed one is a stream with the results its writes will give (`Peer`); the
datagram one is a socket of an address family (`Ref.Udp`).
-/

namespace NngCore.Ref

open NngCore.Lib

inductive AnyTransport where
  | framed (stream : Peer)
  | udp (t : UdpTransport) (family : IpFamily)

/-- `AnyTransport::send`, with the result of the system call where it is one: what
it returns, and what it has written. -/
def AnyTransport.send (t : AnyTransport) (msg : Message) (r : Except String Unit) :
    Option (Except NngError Unit × List UInt8) :=
  match t with
  | .framed stream =>
      let (res, stream') := stream.send msg
      some (res, stream'.wire.drop stream.wire.length)
  | .udp t family =>
      match t.sendOn family msg r with
      | none => none
      | some (res, payload) => some (res.mapError .io, payload)

end NngCore.Ref
