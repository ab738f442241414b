import ReplicaHandshake.Address.IpLiteral
import ReplicaHandshake.Failure

/-!
# Endpoints of masters

Where a master listens: the literal of an address, as it was configured, and a port.  The literal is
checked when the endpoint is used, so an endpoint may well hold a text that is none.
-/

namespace ReplicaHandshake

/-- The address and the port of a master. -/
structure Endpoint where
  address : String
  port : UInt16
deriving DecidableEq, Repr

/-- An address that has been read, and a port. -/
structure SocketAddress where
  ip : IpAddress
  port : UInt16
deriving DecidableEq, Repr

/-- An address with its port; the brackets keep the colons of the address apart from the one of the
port. -/
def SocketAddress.text (address : SocketAddress) : String :=
  match address.ip with
  | .v4 ip => s!"{ip.text}:{address.port}"
  | .v6 ip => s!"[{ip.text}]:{address.port}"

namespace Endpoint

/-- An endpoint as it was configured, in brackets if its address holds a colon. -/
def label (e : Endpoint) : String :=
  if ':' ∈ e.address.toList then s!"[{e.address}]:{e.port}" else s!"{e.address}:{e.port}"

/-- The address of an endpoint, if it is a literal. -/
def socketAddress (e : Endpoint) : Except Failure SocketAddress :=
  match IpAddress.ofText? e.address with
  | some ip => .ok ⟨ip, e.port⟩
  | none => .error (.settings s!"master address '{e.address}' is not an IP literal")

end Endpoint

end ReplicaHandshake
