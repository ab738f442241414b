import ReplicaHandshake.Connection.Transfer
import ReplicaHandshake.Proofs.Always
import ReplicaHandshake.Proofs.Way

/-!
# What a connection can do

The work of a connection, taken apart into steps.  Each step changes the connection once and says
what happens with it.

* `Connection.Write`: one call that writes.  `Connection.Step`: writing, reading, and coming
  to be connected.
* `Connection.Hear`: a frame is taken out of the inbound buffer and accepted.
* `Connection.Fault`: what ends a connection, and the failure that comes of it; `Connection.Refuses`
  says for what frames it does.

`Connection.poll_always` and `Connection.flush_always` say that the work of a connection is
made of such steps.
-/

namespace ReplicaHandshake.Connection

/-- One call that writes: some bytes leave the outbound buffer, or the call would have to wait. -/
inductive Write : Connection → List Happening → Connection → Prop where
  | some {c : Connection} {socket : SocketId} {answer : WriteAnswer c.outbound.pending.length}
      {n : Nat} {hn : n + 1 ≤ c.outbound.pending.length} :
      c.socket = .some socket → c.hasRequestedTableInfo → answer.result = .ok ⟨n + 1, hn⟩ →
      Write c [.answered (.write socket c.outbound.pending) answer]
        { c with outbound := { c.outbound with pending := c.outbound.pending.drop (n + 1) } }
  | none {c : Connection} {socket : SocketId} {answer : WriteAnswer c.outbound.pending.length}
      {e : SystemError} :
      c.socket = .some socket → c.hasRequestedTableInfo → answer.result = .error e →
      e.kind = .wouldBlock →
      Write c [.answered (.write socket c.outbound.pending) answer] c

/-- One step of a connection by which no frame is heard. -/
inductive Step : Connection → List Happening → Connection → Prop where
  | write {c c' : Connection} {hs : List Happening} : Write c hs c' → Step c hs c'
  | wait {c : Connection} {socket : SocketId} {answer : Except SystemError ConnectStatus} :
      c.state = .connecting → c.socket = some socket → isConnected answer = .ok false →
      Step c [.answered (.pollConnect socket) answer] c
  | ask {c : Connection} {socket : SocketId} {answer : Except SystemError ConnectStatus}
      {outbound : OutboundBuffer} (noDelay : Except SystemError Unit) :
      c.state = .connecting → c.socket = some socket → isConnected answer = .ok true →
      c.outbound.queue (.requestTableInfo c.request) = .ok outbound →
      Step c
        [.answered (.pollConnect socket) answer, .answered (.setNoDelay socket) noDelay,
          .reported (.connectionEvent c.tableName "connected"),
          .noted (.queued c.socketId (.requestTableInfo c.request)),
          .reported (.frameSent FrameKind.requestTableInfo.name)]
        { c with outbound, state := .awaitingTableInfo }
  | read {c : Connection} {socket : SocketId} {bs : { bs : Bytes // bs.length ≤ c.inbound.room }} :
      c.socket = some socket → c.hasRequestedTableInfo → bs.1 ≠ [] →
      Step c [.answered (.read socket c.inbound.room) (.ok bs)]
        { c with inbound := { c.inbound with buffered := c.inbound.buffered ++ bs.1 } }
  | block {c : Connection} {socket : SocketId} {e : SystemError} :
      c.socket = some socket → c.hasRequestedTableInfo → e.isTransient →
      Step c [.answered (.read socket c.inbound.room) (.error e)] c

/-- A frame is accepted. -/
inductive Accepts : Connection → Frame → ConnectionEvent → Connection → Prop where
  | tableInfo {c : Connection} {info : TableInfo} :
      c.tableInfo = none → c.state = .awaitingTableInfo → info.tableName = c.tableName →
      info.masterTableId ≠ 0 →
      Accepts c (.tableInfo info) (.tableInfo info)
        { c with tableInfo := some info, state := .ready }
  | streamStart {c : Connection} {info : TableInfo} {start : StartOfReplicationStream} :
      c.state = .awaitingStreamStart → c.tableInfo = some info →
      info.masterTableId = start.masterTableId →
      Accepts c (.startOfReplicationStream start) (.streamStart start)
        { c with state := .streamStarted }

/-- A frame is taken out of the inbound buffer and accepted. -/
inductive Hear : Connection → List Happening → ConnectionEvent → Connection → Prop where
  | accept {c c' : Connection} {f : Frame} {event : ConnectionEvent} {inbound : InboundBuffer} :
      c.hasRequestedTableInfo → c.inbound.nextFrame = (.ok (some f), inbound) →
      Accepts { c with inbound } f event c' →
      Hear c [.reported (.frameReceived f.kind.name), .noted (.accepted c.socketId f)] event c'

/-- Why a frame is not accepted. -/
inductive Refuses (c : Connection) : Frame → Failure → Prop where
  | duplicate {info : TableInfo} : c.tableInfo.isSome →
      Refuses c (.tableInfo info) (c.violation "duplicate TABLE_INFO")
  | early {info : TableInfo} : c.tableInfo = none → c.state ≠ .awaitingTableInfo →
      Refuses c (.tableInfo info) (c.violation s!"TABLE_INFO received in state {c.state.name}")
  | otherTable {info : TableInfo} : c.state = .awaitingTableInfo → info.tableName ≠ c.tableName →
      Refuses c (.tableInfo info)
        (c.violation s!"TABLE_INFO for '{info.tableName}' while requesting '{c.tableName}'")
  | missing {info : TableInfo} : c.state = .awaitingTableInfo → info.tableName = c.tableName →
      info.masterTableId = 0 →
      Refuses c (.tableInfo info) (.tableMissingOnMaster c.tableName c.label)
  | earlyStart {start : StartOfReplicationStream} : c.state ≠ .awaitingStreamStart →
      Refuses c (.startOfReplicationStream start)
        (c.violation s!"START_OF_REPLICATION_STREAM received in state {c.state.name}")
  | otherStart {start : StartOfReplicationStream} : c.state = .awaitingStreamStart →
      c.tableInfo.map (·.masterTableId) ≠ some start.masterTableId →
      Refuses c (.startOfReplicationStream start)
        (c.violation (s!"START_OF_REPLICATION_STREAM for master table {start.masterTableId} " ++
          s!"while expecting {optionalText (c.tableInfo.map (·.masterTableId))}"))
  | unasked {f : Frame} : f.kind = .requestTableInfo ∨ f.kind = .requestReplicationStream →
      Refuses c f (c.violation s!"unexpected {f.kind.name} frame from master")

/-- What ends a connection. -/
inductive Fault : Connection → List Happening → Failure → Connection → Prop where
  | connect {c : Connection} {socket : SocketId} {answer : Except SystemError ConnectStatus}
      {e : SystemError} :
      c.state = .connecting → c.socket = some socket → isConnected answer = .error e →
      Fault c
        [.answered (.pollConnect socket) answer,
          .reported (.connectionEvent c.tableName "failed")]
        (.connect c.label e) c
  | ask {c : Connection} {socket : SocketId} {answer : Except SystemError ConnectStatus}
      {e : FrameError} (noDelay : Except SystemError Unit) :
      c.state = .connecting → c.socket = some socket → isConnected answer = .ok true →
      c.outbound.queue (.requestTableInfo c.request) = .error e →
      Fault c
        [.answered (.pollConnect socket) answer, .answered (.setNoDelay socket) noDelay,
          .reported (.connectionEvent c.tableName "connected")]
        (.frame c.label e) c
  | writeNothing {c : Connection} {socket : SocketId}
      {answer : WriteAnswer c.outbound.pending.length} {hn : 0 ≤ c.outbound.pending.length} :
      c.socket = some socket → c.hasRequestedTableInfo → answer.result = .ok ⟨0, hn⟩ →
      Fault c [.answered (.write socket c.outbound.pending) answer]
        (.io c.label (.bare .writeZero)) c
  | write {c : Connection} {socket : SocketId} {answer : WriteAnswer c.outbound.pending.length}
      {e : SystemError} :
      c.socket = some socket → c.hasRequestedTableInfo → answer.result = .error e →
      e.kind ≠ .wouldBlock →
      Fault c [.answered (.write socket c.outbound.pending) answer] (.io c.label e) c
  | read {c : Connection} {socket : SocketId} {e : SystemError} :
      c.socket = some socket → c.hasRequestedTableInfo → e.isTransient = false →
      Fault c [.answered (.read socket c.inbound.room) (.error e)] (.io c.label e) c
  | ended {c : Connection} {socket : SocketId} {h : [].length ≤ c.inbound.room} :
      c.socket = some socket → c.hasRequestedTableInfo →
      Fault c
        [.answered (.read socket c.inbound.room) (.ok ⟨[], h⟩),
          .reported (.connectionEvent c.tableName "closed")]
        (.connectionClosed c.label) c
  | frame {c : Connection} {inbound : InboundBuffer} {e : FrameError} :
      c.hasRequestedTableInfo → c.inbound.nextFrame = (.error e, inbound) →
      Fault c [] (.frame c.label e) { c with inbound }
  | refuse {c : Connection} {inbound : InboundBuffer} {f : Frame} {failure : Failure} :
      c.hasRequestedTableInfo → c.inbound.nextFrame = (.ok (some f), inbound) →
      Refuses { c with inbound } f failure →
      Fault c [.reported (.frameReceived f.kind.name)] failure { c with inbound }

/-- Steps, and then what ends the connection. -/
def Ends (c : Connection) (hs : List Happening) (f : Failure) (c' : Connection) : Prop :=
  ∃ c₁ hs₁ hs₂, hs = hs₁ ++ hs₂ ∧ Way Step c hs₁ c₁ ∧ Fault c₁ hs₂ f c'

theorem Ends.prepend {c c₁ c' : Connection} {hs hs' : List Happening} {f : Failure}
    (h : Way Step c hs c₁) (h' : Ends c₁ hs' f c') : Ends c (hs ++ hs') f c' := by
  obtain ⟨c₂, hs₁, hs₂, rfl, hway, hfault⟩ := h'
  exact ⟨c₂, hs ++ hs₁, hs₂, by rw [List.append_assoc], h.trans hway, hfault⟩

end ReplicaHandshake.Connection
