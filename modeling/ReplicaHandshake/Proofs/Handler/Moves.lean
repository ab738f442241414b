import ReplicaHandshake.Handler.Handoff
import ReplicaHandshake.Proofs.Connection.Sound

/-!
# What a handler can do

The work of a handler, taken apart into moves.  A `Handler.Move` changes the handler once, and says
under which condition that can be and what happens with it:

* connections exchange frames with their masters (`exchange`, `tableInfo`);
* the handler goes on to its next phase (`allConnected`, `rendezvous`, `streamStart`, `streams`);
* the multiplexer is offered the writer and the sockets in their order, and takes or refuses them;
* something goes wrong (`Handler.Fault`), and the handler fails;
* while it is stopping, it asks the multiplexer to let go.

A `Handler.Turn` is a move, or something that comes from without: the handler is stopped on request,
hears of what the multiplexer has closed, or is brought to its end.

Stopping leaves no choice, so `stopHappenings` and `stopped` say what happens then and what is left.
-/

namespace ReplicaHandshake.Handler

/-! ### Stopping -/

/-- The release of the writer, where the handler owns one. -/
def releases (h : Handler) : List Happening :=
  if h.writerTransferred then []
  else h.writer.toList.map fun writer => .answered (.releaseWriter writer) ()

/-- What happens when a handler stops. -/
def stopHappenings (h : Handler) : List Happening :=
  .reported (.phaseEntered Phase.stopping.name) ::
    (h.connections.flatMap Connection.closings ++ h.releases)

/-- A handler after it was stopped. -/
def stopped (h : Handler) : Handler :=
  { h with
    phase := .stopping
    connections := h.connections.filter (·.isTransferred)
    writer := if h.writerTransferred then h.writer else none
    needsPeerStop := h.writerTransferred || !(h.connections.filter (·.isTransferred)).isEmpty }

/-- A handler after it was stopped for a reason. -/
def stoppedFor (h : Handler) (reason : StopReason) : Handler :=
  { h with failure := h.failure.or (some reason) }.stopped

/-- What happens when a handler stops for a reason. -/
def stopForHappenings (h : Handler) (kind : String) : List Happening :=
  .reported (.failure kind) :: h.stopHappenings

/-! ### Conditions -/

/-- The handler with another connection in its place. -/
def put (h : Handler) (before : List Connection) (c : Connection) (after : List Connection) :
    Handler :=
  { h with connections := before ++ c :: after }

section Put

variable (h : Handler) (before : List Connection) (c : Connection) (after : List Connection)

@[simp] theorem connections_put : (h.put before c after).connections = before ++ c :: after := rfl

@[simp] theorem phase_put : (h.put before c after).phase = h.phase := rfl

@[simp] theorem peer_put : (h.put before c after).peer = h.peer := rfl

@[simp] theorem tableName_put : (h.put before c after).tableName = h.tableName := rfl

@[simp] theorem ready_put : (h.put before c after).ready = h.ready := rfl

@[simp] theorem masterTableId_put :
    (h.put before c after).masterTableId = h.masterTableId := rfl

@[simp] theorem structureVersion_put :
    (h.put before c after).structureVersion = h.structureVersion := rfl

@[simp] theorem writer_put : (h.put before c after).writer = h.writer := rfl

@[simp] theorem writerTransferred_put :
    (h.put before c after).writerTransferred = h.writerTransferred := rfl

@[simp] theorem put_put (before' after' : List Connection) (c' : Connection) :
    (h.put before c after).put before' c' after' = h.put before' c' after' := rfl

end Put

/-- The handler waits for its masters. -/
def IsGathering (h : Handler) : Prop :=
  h.phase = .initializing ∨ h.phase = .awaitingRendezvous

/-- The connection behind these ones takes part in the handshake: each of them while the handler
waits for its masters, and the first one after that. -/
def Polls (h : Handler) (before : List Connection) : Prop :=
  h.IsGathering ∨ h.phase = .requestingStream ∧ before = []

/-- A description agrees with what other masters have said. -/
def Agrees (h : Handler) (info : TableInfo) : Prop :=
  h.ready = 0 ∨
    info.masterTableId = h.masterTableId ∧ info.structureVersion = h.structureVersion

/-- The connection is the next one to be handed over. -/
def Hands (h : Handler) (given : List Connection) (c : Connection) (left : List Connection) :
    Prop :=
  h.phase = .handingOff ∧ h.writerTransferred = true ∧ h.connections = given ++ c :: left ∧
    (∀ g ∈ given, g.isTransferred) ∧ c.isTransferred = false

/-- The local table was looked up, and may be replicated behind so many rows. -/
inductive Resolves (h : Handler) : List Happening → UInt64 → Handler → Prop where
  | absent : Resolves h [.answered (.tableExists h.tableName) (.ok false)] 0 h
  | present {writer : TableWriter} : writer.structureVersion = h.structureVersion →
      Resolves h
        [.answered (.tableExists h.tableName) (.ok true),
          .answered (.openWriter h.tableName) (.ok writer)]
        writer.rowCount { h with writer := some writer }

/-- There is a writer for the stream that starts, if need be of a new table. -/
inductive Supplies (tableName : String) (owned : Option TableWriter)
    (start : StartOfReplicationStream) : List Happening → TableWriter → Prop where
  | kept {writer : TableWriter} : owned = some writer → Supplies tableName owned start [] writer
  | created {writer : TableWriter} : owned = none →
      Supplies tableName owned start
        [.answered (.createTable tableName start.metadata start.symbols) (.ok writer),
          .reported (.tableCreated tableName)]
        writer

/-- The request for the stream that the masters have agreed on. -/
def agreedRequest (h : Handler) (rows : UInt64) : RequestReplicationStream where
  masterTableId := h.masterTableId
  structureVersion := h.structureVersion
  initialRowCount := rows

/-! ### Faults -/

/-- What makes a handler fail. -/
inductive Fault : Handler → List Happening → Failure → Handler → Prop where
  | timeout {h : Handler} (now : Instant) :
      h.IsGathering ∨ h.phase = .requestingStream →
      h.handshakeTimeout.nanoseconds ≤ (h.elapsed now).nanoseconds →
      Fault h [] (.handshakeTimeout h.tableName (h.elapsed now).milliseconds) h
  | connection {h : Handler} {before after : List Connection} {c c' : Connection}
      {hs : List Happening} {f : Failure} :
      h.Polls before → h.connections = before ++ c :: after → Connection.Fault c hs f c' →
      Fault h hs f (h.put before c' after)
  | divergence {h : Handler} {before after : List Connection} {c c' : Connection}
      {hs : List Happening} {info : TableInfo} :
      h.IsGathering → h.connections = before ++ c :: after →
      Connection.Hear c hs (.tableInfo info) c' → ¬h.Agrees info →
      Fault h hs
        (.masterDivergence h.tableName
          (s!"{c.label} reports table id {info.masterTableId} version {info.structureVersion}, " ++
            s!"others report table id {h.masterTableId} version {h.structureVersion}"))
        (h.put before c' after)
  | tableExists {h : Handler} {e : StoreError} :
      h.phase = .awaitingRendezvous → h.allReady →
      Fault h [.answered (.tableExists h.tableName) (.error e)] (h.storeFailure .tableExists e) h
  | openWriter {h : Handler} {e : StoreError} :
      h.phase = .awaitingRendezvous → h.allReady →
      Fault h
        [.answered (.tableExists h.tableName) (.ok true),
          .answered (.openWriter h.tableName) (.error e)]
        (h.storeFailure .openWriter e) h
  | mismatch {h : Handler} {writer : TableWriter} :
      h.phase = .awaitingRendezvous → h.allReady → writer.structureVersion ≠ h.structureVersion →
      Fault h
        [.answered (.tableExists h.tableName) (.ok true),
          .answered (.openWriter h.tableName) (.ok writer), .answered (.releaseWriter writer) ()]
        (.structureVersionMismatch h.tableName writer.structureVersion h.structureVersion) h
  | request {h h₁ : Handler} {first first' : Connection} {rest : List Connection}
      {hs hs' : List Happening} {rows : UInt64} {f : Failure} :
      h.phase = .awaitingRendezvous → h.allReady → h.connections = first :: rest →
      h.Resolves hs rows h₁ → Connection.RequestFault (h.agreedRequest rows) first hs' f first' →
      Fault h (hs ++ hs') f (h₁.put [] first' rest)
  | createTable {h : Handler} {first first' : Connection} {rest : List Connection}
      {hs : List Happening} {start : StartOfReplicationStream} {e : StoreError} :
      h.phase = .requestingStream → h.connections = first :: rest →
      Connection.Hear first hs (.streamStart start) first' → h.writer = none →
      Fault h
        (hs ++ [.answered (.createTable h.tableName start.metadata start.symbols) (.error e)])
        (h.storeFailure .createTable e) (h.put [] first' rest)
  | handoff {h : Handler} {given left : List Connection} {c c' : Connection}
      {hs : List Happening} {f : Failure} :
      h.Hands given c left → Connection.Fault c hs f c' → (∃ label e, f = .io label e) →
      Fault h hs f (h.put given c' left)

/-! ### Moves -/

/-- One change of a handler. -/
inductive Move : Handler → List Happening → Handler → Prop where
  | exchange {h : Handler} {before after : List Connection} {c c' : Connection}
      {hs : List Happening} :
      h.Polls before → h.connections = before ++ c :: after → Connection.Step c hs c' →
      Move h hs (h.put before c' after)
  | tableInfo {h : Handler} {before after : List Connection} {c c' : Connection}
      {hs : List Happening} {info : TableInfo} :
      h.IsGathering → h.connections = before ++ c :: after →
      Connection.Hear c hs (.tableInfo info) c' → h.Agrees info →
      Move h hs
        { h.put before c' after with
          masterTableId := info.masterTableId
          structureVersion := info.structureVersion
          ready := h.ready + 1 }
  | allConnected {h : Handler} :
      h.phase = .initializing → (∀ c ∈ h.connections, c.hasRequestedTableInfo) →
      Move h [.reported (.phaseEntered Phase.awaitingRendezvous.name)]
        { h with phase := .awaitingRendezvous }
  | rendezvous {h h₁ : Handler} {first first' : Connection} {rest : List Connection}
      {hs hs' : List Happening} {rows : UInt64} :
      h.phase = .awaitingRendezvous → h.allReady → h.connections = first :: rest →
      h.Resolves hs rows h₁ → Connection.Request (h.agreedRequest rows) first hs' first' →
      Move h (hs ++ hs' ++ [.reported (.phaseEntered Phase.requestingStream.name)])
        { h₁.put [] first' rest with phase := .requestingStream }
  | streamStart {h : Handler} {first first' : Connection} {rest : List Connection}
      {hs hs' : List Happening} {start : StartOfReplicationStream} {writer : TableWriter} :
      h.phase = .requestingStream → h.connections = first :: rest →
      Connection.Hear first hs (.streamStart start) first' →
      Supplies h.tableName h.writer start hs' writer →
      Move h (hs ++ hs' ++ [.reported (.phaseEntered Phase.handingOff.name)])
        { h.put [] first' rest with writer := some writer, phase := .handingOff }
  | writerTaken {h : Handler} {writer : TableWriter} :
      h.phase = .handingOff → h.writerTransferred = false → h.writer = some writer →
      Move h [.answered (.offerWriter h.peer h.masterTableId writer) true]
        { h with writer := none, writerTransferred := true }
  | writerRefused {h : Handler} {writer : TableWriter} :
      h.phase = .handingOff → h.writerTransferred = false → h.writer = some writer →
      Move h
        [.answered (.offerWriter h.peer h.masterTableId writer) false,
          .reported (.handoffRetry "writer")]
        h
  | write {h : Handler} {given left : List Connection} {c c' : Connection}
      {hs : List Happening} :
      h.Hands given c left → Connection.Write c hs c' → Move h hs (h.put given c' left)
  | socketTaken {h : Handler} {given left : List Connection} {c c' : Connection}
      {hs : List Happening} :
      h.Hands given c left → Connection.Offer c hs true c' → Move h hs (h.put given c' left)
  | socketRefused {h : Handler} {given left : List Connection} {c c' : Connection}
      {hs : List Happening} :
      h.Hands given c left → Connection.Offer c hs false c' →
      Move h (hs ++ [.reported (.handoffRetry "connection")]) (h.put given c' left)
  | waits {h : Handler} {given left : List Connection} {c : Connection} :
      h.Hands given c left → c.outbound.pending ≠ [] →
      Move h [.reported (.handoffRetry "connection")] h
  | streams {h : Handler} (now : Instant) :
      h.phase = .handingOff → h.writerTransferred = true →
      (∀ c ∈ h.connections, c.isTransferred) →
      Move h
        [.reported (.phaseEntered Phase.streaming.name),
          .reported (.handshakeDuration h.tableName (h.elapsed now))]
        { h with phase := .streaming }
  | fails {h h₁ : Handler} {hs : List Happening} {f : Failure} :
      Fault h hs f h₁ → Move h (hs ++ h₁.stopForHappenings f.kind) (h₁.stoppedFor (.failed f))
  | stopAccepted {h : Handler} : h.phase = .stopping → h.needsPeerStop = true →
      h.peerStopAccepted = false →
      Move h [.answered (.stopPeer h.peer) true] { h with peerStopAccepted := true }
  | stopRefused {h : Handler} : h.phase = .stopping → h.needsPeerStop = true →
      h.peerStopAccepted = false →
      Move h [.answered (.stopPeer h.peer) false, .reported (.handoffRetry "stop")] h

/-- Moves, and then what makes the handler fail. -/
def Breaks (h : Handler) (hs : List Happening) (f : Failure) (h' : Handler) : Prop :=
  ∃ h₁ hs₁ hs₂, hs = hs₁ ++ hs₂ ∧ Way Move h hs₁ h₁ ∧ Fault h₁ hs₂ f h'

theorem Breaks.prepend {h h₁ h' : Handler} {hs hs' : List Happening} {f : Failure}
    (hway : Way Move h hs h₁) (hbreaks : Breaks h₁ hs' f h') : Breaks h (hs ++ hs') f h' := by
  obtain ⟨h₂, hs₁, hs₂, rfl, hway', hfault⟩ := hbreaks
  exact ⟨h₂, hs ++ hs₁, hs₂, by rw [List.append_assoc], hway.trans hway', hfault⟩

/-! ### Turns -/

/-- One change of a handler, by itself or from without. -/
inductive Turn : Handler → List Happening → Handler → Prop where
  | move {h h' : Handler} {hs : List Happening} : Move h hs h' → Turn h hs h'
  | stops {h : Handler} :
      h.phase.isLive → h.phase ≠ .stopping → Turn h h.stopHappenings h.stopped
  | loses {h h₁ : Handler} {c : Connection} {socket : SocketId} :
      h.phase.isLive → h.phase ≠ .stopping → h.connections.find? (isTakenAs socket) = some c →
      h₁ = { h with connections := h.connections.eraseP (isTakenAs socket) } →
      Turn h (h₁.stopForHappenings "connection_closed") (h₁.stoppedFor (.dropped c.endpoint))
  | letsGo {h : Handler} (socket : SocketId) :
      h.phase = .stopping →
      Turn h [] { h with connections := h.connections.eraseP (isTakenAs socket) }
  | finishes {h : Handler} {last : Phase} : h.phase = .stopping → h.isDrained →
      last.isTerminal → Turn h [.reported (.phaseEntered last.name)] { h with phase := last }
  | concludes {h : Handler} (outcome : String) : h.phase.isTerminal →
      Turn h [.reported (.handlerOutcome h.tableName outcome)] h

end ReplicaHandshake.Handler
