import ReplicaHandshake.Handler.Rendezvous

/-!
# The handoff

After the start of the stream the multiplexer is offered the writer, and then one connection after
the other in their order.  It may refuse; then the rest waits for the next time, and what it has
taken is not offered again.  When it has everything, the table is streaming.
-/

namespace ReplicaHandshake.Handler

/-- Offer the writer, unless the multiplexer has it; the answer says whether it has it now. -/
def handWriter : Task Handler Bool := do
  let h ← get
  if h.writerTransferred then return true
  match h.writer with
  | none => throw (h.storeFailure .openWriter { text := "no writer at handoff" })
  | some writer =>
    if ← Dialogue.offerWriter h.peer h.masterTableId writer then
      set { h with writer := none, writerTransferred := true }
      return true
    else
      report (.handoffRetry "writer")
      return false

/-- What came of offering connections. -/
structure Handing where
  /-- The multiplexer has them all. -/
  complete : Bool
  /-- It took some just now. -/
  progress : Bool

/-- Offer the connections at these positions in order, up to the first one that is not taken. -/
def handConnections : List Nat → Task Handler Handing
  | [] => return ⟨true, false⟩
  | i :: rest => do
    match (← get).connections[i]? with
    | none =>
      note (.absent i)
      handConnections rest
    | some c =>
      if c.isTransferred then handConnections rest
      else if ← onConnection i c Connection.tryTransfer then
        let handing ← handConnections rest
        return { handing with progress := true }
      else
        report (.handoffRetry "connection")
        return ⟨false, false⟩

/-- Offer all that the multiplexer does not have yet. -/
def pollHandoff (now : Instant) : Task Handler Bool := do
  let hadWriter := (← get).writerTransferred
  if !(← handWriter) then return false
  let handing ← handConnections (List.range (← get).connections.length)
  if !handing.complete then return !hadWriter || handing.progress
  enter .streaming
  let h ← get
  report (.handshakeDuration h.tableName (h.elapsed now))
  return true

/-! ### One step of a handler -/

/-- The positions of the connections that still take part in the handshake: all of them until every
master has answered, and then only the first one. -/
def polledPositions (h : Handler) : List Nat :=
  List.range (if h.allReady then 1 else h.connections.length)

/-- After the connections have made their steps, go on to the next phase if that can be done. -/
def advance (now : Instant) : Task Handler Bool := do
  let h ← get
  let connected := h.phase = .initializing && h.connections.all (·.hasRequestedTableInfo)
  if connected then enter .awaitingRendezvous
  let h ← get
  let agreed := h.phase = .awaitingRendezvous && h.allReady
  if agreed then onRendezvous
  if (← get).phase = .handingOff then
    let moved ← pollHandoff now
    return connected || agreed || moved
  return connected || agreed

/-- One step of a handler that is not done with its handshake.  A handler that has not come to the
handoff in time fails. -/
def pollHandshake (now : Instant) : Task Handler Bool := do
  let h ← get
  if h.phase = .handingOff then pollHandoff now
  else if h.handshakeTimeout.nanoseconds ≤ (h.elapsed now).nanoseconds then
    throw (.handshakeTimeout h.tableName (h.elapsed now).milliseconds)
  else
    let busy ← pollConnections h.polledPositions
    let advanced ← advance now
    return busy || advanced

/-- One step of a handler, which never waits; the answer says whether anything happened. -/
def poll (now : Instant) : Work Handler Bool := do
  let phase := (← get).phase
  if phase.isHandshaking then
    match ← (pollHandshake now).perform with
    | .ok busy => return busy
    | .error f =>
      fail f
      return true
  else if phase = .stopping then pollStopping
  else return false

end ReplicaHandshake.Handler
