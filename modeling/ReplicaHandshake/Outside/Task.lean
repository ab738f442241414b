import ReplicaHandshake.Failure
import ReplicaHandshake.Outside.Dialogue

/-!
# Work on a subject

Most work is done on a subject, a connection or a handler or a controller, that it may change while
it talks to the outside.  `Work σ` is such work; `Task σ` is work that may fail as well.  A failure
keeps the changes that were made before it.
-/

namespace ReplicaHandshake

/-- Work on a subject of type `σ`. -/
abbrev Work (σ : Type) := StateT σ Dialogue

/-- Work on a subject of type `σ` that may fail. -/
abbrev Task (σ : Type) := ExceptT Failure (Work σ)

namespace Task

variable {σ α : Type}

/-- Do a task, and give back its outcome together with the subject. -/
def perform (task : Task σ α) : Work σ (Except Failure α) :=
  task.run

/-- Fail, unless there is a result. -/
def ofExcept : Except Failure α → Task σ α
  | .ok a => pure a
  | .error f => throw f

end Task

/-- Report a metric. -/
def report (m : Metric) : Dialogue Unit :=
  Dialogue.metric m

/-- Write a note. -/
def note (n : Note) : Dialogue Unit :=
  Dialogue.note n

namespace Dialogue

/-- Ask the network for a socket to an endpoint. -/
def openSocket (endpoint : Endpoint) : Dialogue (Except SystemError SocketId) :=
  call (.openSocket endpoint)

/-- Ask a socket how far it has come. -/
def pollConnect (socket : SocketId) : Dialogue (Except SystemError ConnectStatus) :=
  call (.pollConnect socket)

/-- Ask a socket to send small pieces without delay. -/
def setNoDelay (socket : SocketId) : Dialogue (Except SystemError Unit) :=
  call (.setNoDelay socket)

/-- Read from a socket. -/
def read (socket : SocketId) (most : Nat) : Dialogue (Except SystemError Reading) := do
  let answer ← call (.read socket most)
  return answer.map fun bs => .ofBytes bs.1

/-- Write to a socket. -/
def write (socket : SocketId) (data : Bytes) : Dialogue (WriteAnswer data.length) :=
  call (.write socket data)

/-- Fill a buffer from a socket. -/
def fill (socket : SocketId) (b : InboundBuffer) :
    Dialogue (Except SystemError FillOutcome × InboundBuffer) :=
  b.fill (read socket)

/-- Flush a buffer into a socket. -/
def flush (socket : SocketId) (b : OutboundBuffer) :
    Dialogue (Except SystemError Bool × OutboundBuffer) :=
  b.flush (write socket)

/-- Close a socket. -/
def closeSocket (socket : SocketId) : Dialogue Unit :=
  call (.closeSocket socket)

/-- Ask the store whether it has a table. -/
def tableExists (tableName : String) : Dialogue (Except StoreError Bool) :=
  call (.tableExists tableName)

/-- Ask the store for the writer of a table. -/
def openWriter (tableName : String) : Dialogue (Except StoreError TableWriter) :=
  call (.openWriter tableName)

/-- Ask the store to create a table and to give its writer. -/
def createTable (tableName : String) (metadata symbols : Bytes) :
    Dialogue (Except StoreError TableWriter) :=
  call (.createTable tableName metadata symbols)

/-- Give a writer back. -/
def releaseWriter (writer : TableWriter) : Dialogue Unit :=
  call (.releaseWriter writer)

/-- Offer a writer to the multiplexer. -/
def offerWriter (peer : PeerId) (masterTableId : UInt32) (writer : TableWriter) : Dialogue Bool :=
  call (.offerWriter peer masterTableId writer)

/-- Offer a socket to the multiplexer. -/
def offerSocket (peer : PeerId) (handoff : Handoff) : Dialogue Bool :=
  call (.offerSocket peer handoff)

/-- Ask the multiplexer to let go of all that it holds for a peer. -/
def stopPeer (peer : PeerId) : Dialogue Bool :=
  call (.stopPeer peer)

/-- Fetch all disconnections that wait. -/
def fetchDisconnections : Dialogue (List Disconnection) :=
  call .fetchDisconnections

/-- Read the clock. -/
def readClock : Dialogue Instant :=
  call .readClock

/-- Whether the program has been asked to end. -/
def askedToEnd : Dialogue Bool :=
  call .askedToEnd

/-- Rest for some time at most. -/
def rest (atMost : Duration) : Dialogue Wake :=
  call (.rest atMost)

end Dialogue

end ReplicaHandshake
