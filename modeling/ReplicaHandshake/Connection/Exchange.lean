import ReplicaHandshake.Connection.Basic

/-!
# The exchange with a master

How a connection is opened, asks its questions and hears the answers.  `Connection.poll` makes one
step, which never waits: it writes what can be written, reads once, and takes at most one frame.

Of the four frames a connection accepts two from its master, each at most once: the description of
the table while it waits for it, and the start of the stream after it has asked for the stream.
Anything else is a violation of the protocol.
-/

namespace ReplicaHandshake.Connection

/-- Open a socket to the master.  A socket that the connection had before is closed. -/
def connect : Task Connection Unit := do
  let c ← get
  match ← Dialogue.openSocket c.endpoint with
  | .error e => throw (.connect c.label e)
  | .ok socket =>
    set { c with socketId := some socket, socket := some socket, state := .connecting }
    match c.socket with
    | some old => Dialogue.closeSocket old
    | none => pure ()

/-- Put a frame into the outbound buffer. -/
def queueFrame (f : Frame) : Task Connection Unit := do
  let c ← get
  match c.outbound.queue f with
  | .error e => throw (.frame c.label e)
  | .ok outbound =>
    set { c with outbound }
    note (.queued c.socketId f)
    report (.frameSent f.kind.name)

/-- Write what can be written; the answer says whether anything was. -/
def flush : Task Connection Bool := do
  let c ← get
  if c.outbound.pending = [] then return false
  match c.socket with
  | none => return false
  | some socket =>
    let (result, outbound) ← Dialogue.flush socket c.outbound
    set { c with outbound }
    match result with
    | .error e => throw (.io c.label e)
    | .ok _ => return outbound.pending.length < c.outbound.pending.length

/-- Hear the description of the table: once, when it is awaited, of this very table, and with a
table id. -/
def onTableInfo (info : TableInfo) : Task Connection ConnectionEvent := do
  let c ← get
  if c.tableInfo.isSome then throw (c.violation "duplicate TABLE_INFO")
  if c.state ≠ .awaitingTableInfo then
    throw (c.violation s!"TABLE_INFO received in state {c.state.name}")
  if info.tableName ≠ c.tableName then
    throw (c.violation s!"TABLE_INFO for '{info.tableName}' while requesting '{c.tableName}'")
  if info.masterTableId = 0 then throw (.tableMissingOnMaster c.tableName c.label)
  note (.accepted c.socketId (.tableInfo info))
  set { c with tableInfo := some info, state := .ready }
  return .tableInfo info

/-- An optional number in messages. -/
def optionalText (n : Option UInt32) : String :=
  match n with
  | some n => s!"Some({n})"
  | none => "None"

/-- Hear the start of the stream: when it is awaited, and of the table that was described. -/
def onStreamStart (start : StartOfReplicationStream) : Task Connection ConnectionEvent := do
  let c ← get
  if c.state ≠ .awaitingStreamStart then
    throw (c.violation s!"START_OF_REPLICATION_STREAM received in state {c.state.name}")
  let expected := c.tableInfo.map (·.masterTableId)
  if expected ≠ some start.masterTableId then
    let shown := optionalText expected
    throw (c.violation
      (s!"START_OF_REPLICATION_STREAM for master table {start.masterTableId} " ++
        s!"while expecting {shown}"))
  note (.accepted c.socketId (.startOfReplicationStream start))
  set { c with state := .streamStarted }
  return .streamStart start

/-- Hear a frame. -/
def onFrame : Frame → Task Connection ConnectionEvent
  | .tableInfo info => onTableInfo info
  | .startOfReplicationStream start => onStreamStart start
  | f => do throw ((← get).violation s!"unexpected {f.kind.name} frame from master")

/-- Take a frame out of the inbound buffer and hear it, if one is there. -/
def takeFrame (busy : Bool) : Task Connection ConnectionPoll := do
  let c ← get
  let (frame, inbound) := c.inbound.nextFrame
  set { c with inbound }
  match frame with
  | .error e => throw (.frame c.label e)
  | .ok none => return { busy }
  | .ok (some f) =>
    report (.frameReceived f.kind.name)
    let event ← onFrame f
    return { busy := true, event }

/-- Write what can be written, read once, and take one frame. -/
def pollIo : Task Connection ConnectionPoll := do
  let wrote ← flush
  let c ← get
  match c.socket with
  | none => return {}
  | some socket =>
    let (outcome, inbound) ← Dialogue.fill socket c.inbound
    set { c with inbound }
    match outcome with
    | .error e => throw (.io c.label e)
    | .ok .eof =>
      report (.connectionEvent c.tableName "closed")
      throw (.connectionClosed c.label)
    | .ok (.data _) => takeFrame true
    | .ok .wouldBlock | .ok .full => takeFrame wrote

/-- Whether the answer of a connecting socket says that it is connected. -/
def isConnected : Except SystemError ConnectStatus → Except SystemError Bool
  | .ok .connected => .ok true
  | .ok .inProgress => .ok false
  | .error e =>
    match e.connectClass with
    | .alreadyConnected => .ok true
    | .inProgress => .ok false
    | .failed => .error e

/-- See whether the socket is connected; as soon as it is, ask the master for the table. -/
def pollConnecting : Task Connection ConnectionPoll := do
  let c ← get
  match c.socket with
  | none => return {}
  | some socket =>
    match isConnected (← Dialogue.pollConnect socket) with
    | .error e =>
      report (.connectionEvent c.tableName "failed")
      throw (.connect c.label e)
    | .ok false => return {}
    | .ok true =>
      let _ ← Dialogue.setNoDelay socket
      report (.connectionEvent c.tableName "connected")
      queueFrame (.requestTableInfo c.request)
      modify fun c => { c with state := .awaitingTableInfo }
      let polled ← pollIo
      return { polled with busy := true }

/-- Make one step. -/
def poll : Task Connection ConnectionPoll := do
  match (← get).state with
  | .connecting => pollConnecting
  | .awaitingTableInfo | .ready | .awaitingStreamStart => pollIo
  | .disconnected | .streamStarted | .transferred | .closed => return {}

/-- Ask the master for the data stream. -/
def requestStream (request : RequestReplicationStream) : Task Connection Unit := do
  let c ← get
  if c.state ≠ .ready then
    throw (c.violation s!"cannot request the stream in state {c.state.name}")
  queueFrame (.requestReplicationStream request)
  modify fun c => { c with state := .awaitingStreamStart }
  let _ ← flush

end ReplicaHandshake.Connection
