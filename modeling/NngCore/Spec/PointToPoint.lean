import NngCore.Ref.PointToPoint

/-!
# What two sockets exchange

Each direction of a connection by itself: what was received at one end is a
beginning of what was sent at the other, and all of it if all was read. A call
that redials takes nothing with it to the new connection, so over all connections
of a socket no message was received twice; and what the calls of a socket
returned is what its connections gave, one after the other.

A connection on which a send was begun inside the frame of another one is left
out; the connections before and after it are not.
-/

namespace NngCore.Spec

open NngCore.Lib NngCore.Ref

/-- The messages a connection gave. -/
def FramedConn.messages (c : FramedConn) : List Message :=
  c.recv.results.filterMap Except.toOption

/-- What was received of connection `k` of socket `p`. -/
def heardOf (s : RawNet) (p k : Nat) : List Message :=
  match (s.far (p, k)).bind s.conn? with
  | none => []
  | some c => FramedConn.messages c

end NngCore.Spec
