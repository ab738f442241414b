import ReplicaHandshake.Connection.Exchange

/-!
# The end of a connection

A connection ends in one of two ways.  `Connection.tryTransfer` offers its socket to the
multiplexer, together with the bytes that were read too far, and keeps both when the offer is
refused.  `Connection.close` closes whatever the connection still owns; a socket that has been taken
is none of its business.
-/

namespace ReplicaHandshake.Connection

/-- What is offered next: the handoff that was refused, or else the socket with all bytes that are
no frame.  What is offered is taken out of the connection. -/
def takeHandoff (c : Connection) : Option Handoff × Connection :=
  match c.pendingHandoff, c.socket with
  | some handoff, _ => (some handoff, { c with pendingHandoff := none })
  | none, some socket =>
    let (buffered, inbound) := c.inbound.takeBuffered
    (some { socket, buffered }, { c with socket := none, inbound })
  | none, none => (none, c)

/-- Offer the socket to the multiplexer; the answer says whether it has it now.  Nothing is offered
before the handshake on this connection is over, nor while bytes of a frame are still to be
written. -/
def tryTransfer : Task Connection Bool := do
  match (← get).state with
  | .transferred => return true
  | .ready | .streamStarted =>
    let _ ← flush
    let c ← get
    if c.outbound.pending ≠ [] then return false
    match c.takeHandoff with
    | (none, _) =>
      note (.unready c.socketId)
      return false
    | (some handoff, rest) =>
      set rest
      if ← Dialogue.offerSocket c.peer handoff then
        modify fun c => { c with state := .transferred }
        return true
      else
        modify fun c => { c with pendingHandoff := some handoff }
        return false
  | _ =>
    note (.unready (← get).socketId)
    return false

/-- The sockets that a connection owns. -/
def ownedSockets (c : Connection) : List SocketId :=
  c.socket.toList ++ (c.pendingHandoff.map (·.socket)).toList

/-- Close sockets, one after the other. -/
def closeSockets : List SocketId → Dialogue Unit
  | [] => return
  | socket :: rest => do
    Dialogue.closeSocket socket
    closeSockets rest

/-- Close what the connection owns; the answer says whether it owned anything. -/
def close : Work Connection Bool := do
  let c ← get
  if c.isTransferred then return false
  set { c with socket := none, pendingHandoff := none, state := .closed }
  closeSockets c.ownedSockets
  if c.ownedSockets = [] then return false
  report (.connectionEvent c.tableName "closed")
  return true

end ReplicaHandshake.Connection
