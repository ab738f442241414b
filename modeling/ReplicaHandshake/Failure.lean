import ReplicaHandshake.Frame.Basic
import ReplicaHandshake.Outside.StoreError
import ReplicaHandshake.Outside.SystemError
import ReplicaHandshake.Phase

/-!
# Failures

Why the replication of a table could not be brought up.  Each cause has a wording (`message`), a
short stable label (`kind`), and an answer to the question whether trying again later may help
without anybody stepping in (`isRetryable`): that is so exactly for the failures of the network.
-/

namespace ReplicaHandshake

/-- Why bringing up a table failed. -/
inductive Failure where
  /-- The connection to a master could not be set up. -/
  | connect (endpoint : String) (source : SystemError)
  /-- Reading from or writing to an open connection failed. -/
  | io (endpoint : String) (source : SystemError)
  /-- A master closed its connection before the handshake was over. -/
  | connectionClosed (endpoint : String)
  /-- What a master sent is no frame, or a frame to it does not fit. -/
  | frame (endpoint : String) (source : FrameError)
  /-- A master sent a frame that does not belong here. -/
  | protocol (endpoint : String) (text : String)
  /-- A master does not have the table. -/
  | tableMissingOnMaster (table : String) (endpoint : String)
  /-- Two masters described the table differently. -/
  | masterDivergence (table : String) (text : String)
  /-- The local table has another structure than the masters' one. -/
  | structureVersionMismatch (table : String) (own master : UInt64)
  /-- The local store refused an operation. -/
  | storage (table : String) (operation : StoreOperation) (source : StoreError)
  /-- The handshake took too long. -/
  | handshakeTimeout (table : String) (elapsedMilliseconds : Nat)
  /-- The settings are no good. -/
  | settings (text : String)
  /-- A handler was to turn to a phase that may not follow its own. -/
  | invalidTransition (old new : Phase)
deriving DecidableEq, Repr

namespace Failure

/-- The wording of a failure. -/
def message : Failure → String
  | connect endpoint source => s!"Connect to {endpoint} failed: {source.message}"
  | io endpoint source => s!"I/O error on {endpoint}: {source.message}"
  | connectionClosed endpoint => s!"Connection to {endpoint} closed by master"
  | frame endpoint source => s!"Malformed frame from {endpoint}: {source.message}"
  | protocol endpoint text => s!"Protocol violation from {endpoint}: {text}"
  | tableMissingOnMaster table endpoint =>
    s!"Table '{table}' does not exist on master {endpoint}"
  | masterDivergence table text => s!"Masters disagree about table '{table}': {text}"
  | structureVersionMismatch table own master =>
    s!"Structure version mismatch for table '{table}': local {own}, master {master}"
  | storage table operation source =>
    s!"Storage error ({operation.name}) for table '{table}': {source.message}"
  | handshakeTimeout table elapsed =>
    s!"Handshake for table '{table}' timed out after {elapsed}ms"
  | settings text => s!"Configuration error: {text}"
  | invalidTransition old new => s!"Invalid handler transition: {old.name} -> {new.name}"

/-- The label of a failure. -/
def kind : Failure → String
  | connect .. => "connect"
  | io .. => "io"
  | connectionClosed .. => "connection_closed"
  | frame .. => "frame"
  | protocol .. => "protocol"
  | tableMissingOnMaster .. => "table_missing"
  | masterDivergence .. => "master_divergence"
  | structureVersionMismatch .. => "structure_version"
  | storage .. => "storage"
  | handshakeTimeout .. => "handshake_timeout"
  | settings .. => "config"
  | invalidTransition .. => "invalid_transition"

/-- Whether trying again later may help. -/
def isRetryable : Failure → Bool
  | connect .. | io .. | connectionClosed .. | handshakeTimeout .. => true
  | _ => false

/-- The wording of the error behind a failure, where there is one. -/
def source? : Failure → Option String
  | connect _ source | io _ source => some source.message
  | frame _ source => some source.message
  | storage _ _ source => some source.message
  | _ => none

end Failure

/-- Turn from one phase to another one that may follow it. -/
def Phase.moveTo (old new : Phase) : Except Failure Phase :=
  if old.canMoveTo new then .ok new else .error (.invalidTransition old new)

end ReplicaHandshake
