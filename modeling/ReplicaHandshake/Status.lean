import ReplicaHandshake.Identity
import ReplicaHandshake.Phase

/-!
# Status

What a controller shows of its handlers at one moment.
-/

namespace ReplicaHandshake

/-- What is shown of a handler. -/
structure HandlerStatus where
  tableName : String
  peer : PeerId
  phase : Phase
  /-- How many connections are still open, here or at the multiplexer. -/
  connections : Nat
  /-- Zero until a master has answered. -/
  masterTableId : UInt32
  /-- Why the handler failed, if it did. -/
  failure : Option String
deriving DecidableEq, Repr

/-- What is shown of a controller. -/
structure ControllerStatus where
  initializing : List HandlerStatus
  streaming : List HandlerStatus
  distressed : List HandlerStatus
  pendingInstructions : Nat
deriving DecidableEq, Repr

namespace ControllerStatus

/-- The live handlers. -/
def live (s : ControllerStatus) : List HandlerStatus :=
  s.initializing ++ s.streaming

/-- The live handler of a table. -/
def handler? (s : ControllerStatus) (tableName : String) : Option HandlerStatus :=
  s.live.find? (·.tableName = tableName)

/-- Whether a handler of the table was left distressed. -/
def isDistressed (s : ControllerStatus) (tableName : String) : Bool :=
  s.distressed.any (·.tableName = tableName)

/-- How many handlers are live. -/
def liveCount (s : ControllerStatus) : Nat :=
  s.live.length

end ControllerStatus

end ReplicaHandshake
