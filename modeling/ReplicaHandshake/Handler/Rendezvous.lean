import ReplicaHandshake.Handler.Basic

/-!
# The rendezvous

Before anything is replicated, every master has to answer, and all have to agree on the identity of
the table and on its structure.  Then the local table is looked up: where it exists its writer is
opened, its structure has to be the masters' one, and replication goes on behind the rows that are
there; where it does not, replication starts with no rows.  Only then the first master is asked for
the stream, once.  If the table has to be created, that is done when the stream starts, from what
the first master sends along.
-/

namespace ReplicaHandshake.Handler

/-- Hear the answer of a master.  The first one counts, and the others have to agree with it. -/
def onTableInfo (label : String) (info : TableInfo) : Task Handler Unit := do
  let h ← get
  if h.ready = 0 then
    set { h with
      masterTableId := info.masterTableId, structureVersion := info.structureVersion, ready := 1 }
  else if info.masterTableId ≠ h.masterTableId ∨ info.structureVersion ≠ h.structureVersion then
    throw (.masterDivergence h.tableName
      (s!"{label} reports table id {info.masterTableId} version {info.structureVersion}, " ++
        s!"others report table id {h.masterTableId} version {h.structureVersion}"))
  else set { h with ready := h.ready + 1 }

/-- A failure of the store. -/
def storeFailure (h : Handler) (operation : StoreOperation) (e : StoreError) : Failure :=
  .storage h.tableName operation e

/-- Look up the local table, and open its writer if it exists.  The answer is the number of rows
that replication goes on behind. -/
def resolveTable : Task Handler UInt64 := do
  let h ← get
  match ← Dialogue.tableExists h.tableName with
  | .error e => throw (h.storeFailure .tableExists e)
  | .ok false => return 0
  | .ok true =>
    match ← Dialogue.openWriter h.tableName with
    | .error e => throw (h.storeFailure .openWriter e)
    | .ok writer =>
      if writer.structureVersion ≠ h.structureVersion then
        Dialogue.releaseWriter writer
        throw (.structureVersionMismatch h.tableName writer.structureVersion h.structureVersion)
      set { h with writer := some writer }
      return writer.rowCount

/-- All masters have answered: look up the local table, and ask the first master for the stream. -/
def onRendezvous : Task Handler Unit := do
  let rows ← resolveTable
  let h ← get
  match h.connections with
  | [] => throw (.settings s!"table '{h.tableName}' has no master endpoints")
  | first :: _ =>
    onConnection 0 first (Connection.requestStream
      { masterTableId := h.masterTableId
        structureVersion := h.structureVersion
        initialRowCount := rows })
    enter .requestingStream

/-- The stream starts: create the local table if there is no writer yet. -/
def onStreamStart (start : StartOfReplicationStream) : Task Handler Unit := do
  let h ← get
  if h.writer.isNone then
    match ← Dialogue.createTable h.tableName start.metadata start.symbols with
    | .error e => throw (h.storeFailure .createTable e)
    | .ok writer =>
      report (.tableCreated h.tableName)
      set { h with writer := some writer }
  enter .handingOff

/-- Hear what a connection has heard. -/
def onEvent (label : String) : ConnectionEvent → Task Handler Unit
  | .tableInfo info => onTableInfo label info
  | .streamStart start => onStreamStart start

/-- Let the connections at these positions make one step each, in order. -/
def pollConnections : List Nat → Task Handler Bool
  | [] => return false
  | i :: rest => do
    match (← get).connections[i]? with
    | none =>
      note (.absent i)
      pollConnections rest
    | some c =>
      let polled ← onConnection i c Connection.poll
      match polled.event with
      | some event => onEvent c.label event
      | none => pure ()
      let busy ← pollConnections rest
      return polled.busy || busy

end ReplicaHandshake.Handler
