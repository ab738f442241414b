import ReplicaHandshake.Outside.Task

/-!
# Connections

A `Connection` talks to one master for one table.  Its states form a path:

* `disconnected`, `connecting`: there is no socket, or it is not connected yet;
* `awaitingTableInfo`: the master has been asked for the table;
* `ready`: the master has answered, and the answer was accepted;
* `awaitingStreamStart`, `streamStarted`: the data stream has been asked for, and will follow; only
  the first connection of a handler comes here, the others go on from `ready`;
* `transferred`: the multiplexer has the socket; the connection only remembers its identity;
* `closed`: the end of every other path.

The connection owns its socket, directly or as part of a handoff that was refused, until the
multiplexer takes it.
-/

namespace ReplicaHandshake

/-- A state of a connection. -/
inductive ConnectionState where
  | disconnected
  | connecting
  | awaitingTableInfo
  | ready
  | awaitingStreamStart
  | streamStarted
  | transferred
  | closed
deriving DecidableEq, Repr

/-- The name of a state in messages. -/
def ConnectionState.name : ConnectionState → String
  | disconnected => "Disconnected"
  | connecting => "Connecting"
  | awaitingTableInfo => "AwaitingTableInfo"
  | ready => "Ready"
  | awaitingStreamStart => "AwaitingStreamStart"
  | streamStarted => "StreamStarted"
  | transferred => "Transferred"
  | closed => "Closed"

/-- Something that a master said and that the handler has to know. -/
inductive ConnectionEvent where
  | tableInfo (info : TableInfo)
  | streamStart (start : StartOfReplicationStream)
deriving DecidableEq, Repr

/-- The outcome of one step of a connection: whether bytes moved or the state changed, and what the
master said. -/
structure ConnectionPoll where
  busy : Bool := false
  event : Option ConnectionEvent := none
deriving DecidableEq, Repr

/-- A connection to one master for one table. -/
structure Connection where
  endpoint : Endpoint
  instanceId : InstanceId
  peer : PeerId
  tableName : String
  state : ConnectionState := .disconnected
  /-- The socket, while the connection owns it and has not offered it. -/
  socket : Option SocketId := none
  /-- The identity of the last socket that was opened. -/
  socketId : Option SocketId := none
  /-- The handoff that the multiplexer has refused so far. -/
  pendingHandoff : Option Handoff := none
  inbound : InboundBuffer
  outbound : OutboundBuffer
  /-- The answer of the master. -/
  tableInfo : Option TableInfo := none
deriving DecidableEq, Repr

namespace Connection

/-- A connection that has not been opened. -/
def new (instanceId : InstanceId) (peer : PeerId) (tableName : String) (frameBuffer : Nat)
    (endpoint : Endpoint) : Connection where
  endpoint := endpoint
  instanceId := instanceId
  peer := peer
  tableName := tableName
  inbound := { capacity := frameBuffer }
  outbound := { capacity := frameBuffer }

/-- A connection that has not been opened, with the memory of its inbound buffer. -/
def allocate (instanceId : InstanceId) (peer : PeerId) (tableName : String) (frameBuffer : Nat)
    (endpoint : Endpoint) : Except Crash Connection := do
  let inbound ← InboundBuffer.allocate frameBuffer
  return { new instanceId peer tableName frameBuffer endpoint with inbound }

/-- Frame buffers that a frame can fill are no trouble to memory. -/
theorem allocate_eq_new (instanceId : InstanceId) (peer : PeerId) (tableName : String)
    {frameBuffer : Nat} (endpoint : Endpoint) (h : frameBuffer ≤ greatestWord32) :
    allocate instanceId peer tableName frameBuffer endpoint =
      .ok (new instanceId peer tableName frameBuffer endpoint) := by
  have hmemory : frameBuffer ≤ Crash.greatestAllocation :=
    Nat.le_trans h (by decide)
  simp only [allocate, InboundBuffer.allocate, Crash.unlessFits_eq_ok hmemory]
  rfl

/-- The endpoint in messages. -/
def label (c : Connection) : String :=
  c.endpoint.label

/-- Whether the multiplexer has taken the socket. -/
def isTransferred (c : Connection) : Bool :=
  c.state = .transferred

/-- Whether the master has been asked for the table. -/
def hasRequestedTableInfo (c : Connection) : Bool :=
  match c.state with
  | .awaitingTableInfo | .ready | .awaitingStreamStart | .streamStarted | .transferred => true
  | .disconnected | .connecting | .closed => false

/-- The question to the master. -/
def request (c : Connection) : RequestTableInfo where
  protocolVersion := protocolVersion
  instanceId := c.instanceId
  peerId := c.peer.number.toUInt64
  tableName := c.tableName

/-- A violation of the protocol by the master. -/
def violation (c : Connection) (text : String) : Failure :=
  .protocol c.label text

end Connection

end ReplicaHandshake
