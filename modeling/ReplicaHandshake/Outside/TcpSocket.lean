import ReplicaHandshake.Address.Endpoint
import ReplicaHandshake.Identity

/-!
# Sockets that set up a connection of their own

A `TcpSocket` is made for an endpoint whose address is a literal, and starts to connect when it is
polled for the first time.  Until it is connected it refuses to be read, written or set up, and has
no stream to give away.
-/

namespace ReplicaHandshake

/-- How far a socket has come. -/
inductive TcpState where
  | connecting
  | connected
  | failed
deriving DecidableEq, Repr

/-- A socket and the address it connects to. -/
structure TcpSocket where
  id : SocketId
  peer : SocketAddress
  state : TcpState := .connecting
deriving DecidableEq, Repr

namespace TcpSocket

/-- Make a socket for an endpoint. -/
def ofEndpoint (id : SocketId) (e : Endpoint) : Except SystemError TcpSocket :=
  match e.socketAddress with
  | .ok peer => .ok { id, peer }
  | .error failure => .error (.worded .invalidInput failure.message)

/-- Whether the socket has a stream. -/
def hasStream (s : TcpSocket) : Bool :=
  s.state = .connected

/-- The error of reading, writing or setting up a socket without a stream. -/
def ioError? (s : TcpSocket) : Option SystemError :=
  if s.hasStream then none else some (.bare .notConnected)

end TcpSocket

end ReplicaHandshake
