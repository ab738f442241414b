import ReplicaHandshake.Connection.Transfer
import ReplicaHandshake.Settings.Basic
import ReplicaHandshake.Status

/-!
# Handlers

A `Handler` brings one table into replication.  It owns one connection for each master, and the
writer of the local table from the time it has one until the multiplexer takes it.

Anything that goes wrong makes the handler *fail*: it keeps the first reason and turns to
`Phase.stopping`.  A handler that is stopping has closed its connections except those that the
multiplexer took; it is *drained* once the multiplexer has let go of these as well.
-/

namespace ReplicaHandshake

/-- Why a handler stopped without being asked to. -/
inductive StopReason where
  | failed (failure : Failure)
  /-- The multiplexer lost a connection. -/
  | dropped (endpoint : Endpoint)
deriving DecidableEq, Repr

/-- The wording of a reason. -/
def StopReason.message : StopReason → String
  | failed failure => failure.message
  | dropped endpoint => s!"connection to {endpoint.label} dropped"

/-- What brings one table into replication. -/
structure Handler where
  peer : PeerId
  tableName : String
  connections : List Connection
  /-- The writer of the local table, while the handler owns it. -/
  writer : Option TableWriter := none
  writerTransferred : Bool := false
  /-- What the masters agree on; zero until the first one has answered. -/
  masterTableId : UInt32 := 0
  structureVersion : UInt64 := 0
  /-- How many masters have answered. -/
  ready : Nat := 0
  phase : Phase := .initializing
  startedAt : Instant
  handshakeTimeout : Duration
  /-- Whether the multiplexer holds something and has to be asked to let go of it. -/
  needsPeerStop : Bool := false
  peerStopAccepted : Bool := false
  failure : Option StopReason := none
deriving DecidableEq, Repr

namespace Handler

/-- A handler whose connections have not been opened. -/
def new (instanceId : InstanceId) (peer : PeerId) (table : TableSettings) (frameBuffer : Nat)
    (handshakeTimeout : Duration) (now : Instant) : Handler where
  peer := peer
  tableName := table.tableName
  connections := table.masters.map (Connection.new instanceId peer table.tableName frameBuffer)
  startedAt := now
  handshakeTimeout := handshakeTimeout

/-- What is shown of a handler. -/
def status (h : Handler) : HandlerStatus where
  tableName := h.tableName
  peer := h.peer
  phase := h.phase
  connections := h.connections.length
  masterTableId := h.masterTableId
  failure := h.failure.map StopReason.message

/-- Whether every master has answered. -/
def allReady (h : Handler) : Bool :=
  h.ready = h.connections.length

/-- The time since the handler was started. -/
def elapsed (h : Handler) (now : Instant) : Duration :=
  .between h.startedAt now

/-- Whether the handler is stopping and nothing of it is left, here or at the multiplexer. -/
def isDrained (h : Handler) : Bool :=
  h.phase = .stopping && h.connections.isEmpty && (!h.needsPeerStop || h.peerStopAccepted)

/-- Turn to another phase. -/
def enter (new : Phase) : Task Handler Unit := do
  let h ← get
  match h.phase.moveTo new with
  | .error f =>
    note (.refused h.phase new)
    throw f
  | .ok phase =>
    set { h with phase }
    report (.phaseEntered new.name)

/-- Do a task on the connection at a position, which is given as it is. -/
def onConnection {α : Type} (i : Nat) (c : Connection) (task : Task Connection α) :
    Task Handler α := do
  let (result, c) ← (task.perform.run c : Dialogue _)
  modify fun h => { h with connections := h.connections.set i c }
  Task.ofExcept result

/-! ### Stopping -/

/-- Close connections, one after the other. -/
def closeAll : List Connection → Dialogue (List Connection)
  | [] => return []
  | c :: rest => do
    let (_, c) ← Connection.close.run c
    return c :: (← closeAll rest)

/-- Release the writer, unless the multiplexer has it. -/
def releaseWriter : Work Handler Unit := do
  let h ← get
  if !h.writerTransferred then
    set { h with writer := none }
    match h.writer with
    | some writer => Dialogue.releaseWriter writer
    | none => return

/-- Turn to `stopping`: everything that the handler owns is released at once, and what the
multiplexer holds stays to be released. -/
def stop : Work Handler Unit := do
  if !(← get).phase.isLive || (← get).phase = .stopping then return
  match ← (enter .stopping).perform with
  | .error _ => return
  | .ok _ =>
    let connections ← closeAll (← get).connections
    modify fun h => { h with connections := connections.filter (·.isTransferred) }
    releaseWriter
    modify fun h =>
      { h with needsPeerStop := h.writerTransferred || !h.connections.isEmpty }

/-- Keep a reason, unless there is one already, and stop. -/
def stopFor (kind : String) (reason : StopReason) : Work Handler Unit := do
  report (.failure kind)
  modify fun h => { h with failure := h.failure.or (some reason) }
  stop

/-- Fail. -/
def fail (f : Failure) : Work Handler Unit :=
  stopFor f.kind (.failed f)

/-- Whether a connection is the one that the multiplexer took by this socket. -/
def isTakenAs (socket : SocketId) (c : Connection) : Bool :=
  c.isTransferred && c.socketId = some socket

/-- Hear that the multiplexer has closed a socket; the answer says whether it was one that this
handler had handed over.  Unless the handler is stopping anyway, that is a failure. -/
def onDisconnect (socket : SocketId) : Work Handler Bool := do
  let h ← get
  match h.connections.find? (isTakenAs socket) with
  | none => return false
  | some c =>
    set { h with connections := h.connections.eraseP (isTakenAs socket) }
    if h.phase ≠ .stopping then stopFor "connection_closed" (.dropped c.endpoint)
    return true

/-- While the handler is stopping, ask the multiplexer to let go, until it accepts. -/
def pollStopping : Work Handler Bool := do
  let h ← get
  if !h.needsPeerStop || h.peerStopAccepted then return false
  if ← Dialogue.stopPeer h.peer then
    set { h with peerStopAccepted := true }
    return true
  else
    report (.handoffRetry "stop")
    return false

/-- Turn to the last phase; the answer is the phase that the handler is in then. -/
def finish (voluntary : Bool) : Work Handler Phase := do
  let _ ← (enter (if voluntary then .stopped else .distressed)).perform
  return (← get).phase

/-! ### Starting -/

/-- Open connections in order, up to the first one that fails. -/
def openAll : List Connection → Dialogue (Option Failure × List Connection)
  | [] => return (none, [])
  | c :: rest => do
    match ← Connection.connect.perform.run c with
    | (.error f, c) => return (some f, c :: rest)
    | (.ok _, c) =>
      let (failure, rest) ← openAll rest
      return (failure, c :: rest)

/-- Open all connections. -/
def start : Work Handler Unit := do
  let h ← get
  note (.started h.tableName h.connections.length)
  report (.phaseEntered h.phase.name)
  let (failure, connections) ← openAll (← get).connections
  modify fun h => { h with connections }
  match failure with
  | some f => fail f
  | none => return

end Handler

end ReplicaHandshake
