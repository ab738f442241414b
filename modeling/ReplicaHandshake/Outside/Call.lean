import ReplicaHandshake.Address.Endpoint
import ReplicaHandshake.Frame.Outbound
import ReplicaHandshake.Identity
import ReplicaHandshake.Outside.StoreError
import ReplicaHandshake.Time.Duration

/-!
# Calls to the outside

The program works with four parties outside itself, and asks them one *call* at a time:

* the network opens sockets, and a socket is polled, read, written and closed;
* the local store knows tables and hands out writers, which are released when not needed any more;
* the multiplexer takes writers and sockets over, or refuses them, and is asked to let go of a peer;
  the sockets that it has closed wait to be fetched;
* the one who runs the program has a clock, may ask it to end, and lets it rest.

`Call.Answer` is the type of the answers to a call.  It says what every such party promises: a read
brings at most as many bytes as were asked for, a write takes at most as many as were offered.
-/

namespace ReplicaHandshake

/-- The right to write a table of the local store. -/
structure TableWriter where
  /-- Which of all the writers that the store has handed out this is. -/
  serial : Nat
  tableName : String
  structureVersion : UInt64
  rowCount : UInt64
deriving DecidableEq, Repr

/-- A socket on its way to the multiplexer, with the bytes that were read from it but belong to the
data stream. -/
structure Handoff where
  socket : SocketId
  buffered : Bytes
deriving DecidableEq, Repr

/-- A socket that the multiplexer has closed, and the peer it belonged to. -/
structure Disconnection where
  peer : PeerId
  socket : SocketId
deriving DecidableEq, Repr

/-- The disconnections that wait to be fetched, oldest first. -/
abbrev DisconnectionQueue := List Disconnection

/-- Report a disconnection. -/
def DisconnectionQueue.push (waiting : DisconnectionQueue) (d : Disconnection) :
    DisconnectionQueue :=
  waiting ++ [d]

/-- How far a socket has come. -/
inductive ConnectStatus where
  | connected
  | inProgress
deriving DecidableEq, Repr

/-- Why a rest ended. -/
inductive Wake where
  /-- The time was over. -/
  | timeout
  /-- The wish to end the program was expressed anew. -/
  | asked (toEnd : Bool)
  /-- Nobody is left who could ask the program to end. -/
  | abandoned
deriving DecidableEq, Repr

/-- A call to the outside. -/
inductive Call where
  | openSocket (endpoint : Endpoint)
  | pollConnect (socket : SocketId)
  | setNoDelay (socket : SocketId)
  | read (socket : SocketId) (most : Nat)
  | write (socket : SocketId) (data : Bytes)
  | closeSocket (socket : SocketId)
  | tableExists (tableName : String)
  | openWriter (tableName : String)
  | createTable (tableName : String) (metadata symbols : Bytes)
  | releaseWriter (writer : TableWriter)
  | offerWriter (peer : PeerId) (masterTableId : UInt32) (writer : TableWriter)
  | offerSocket (peer : PeerId) (handoff : Handoff)
  | stopPeer (peer : PeerId)
  | fetchDisconnections
  | readClock
  | askedToEnd
  | rest (atMost : Duration)
deriving DecidableEq, Repr

/-- The answers to a call. -/
abbrev Call.Answer : Call → Type
  | openSocket _ => Except SystemError SocketId
  | pollConnect _ => Except SystemError ConnectStatus
  | setNoDelay _ => Except SystemError Unit
  | read _ most => Except SystemError { bs : Bytes // bs.length ≤ most }
  | write _ data => WriteAnswer data.length
  | closeSocket _ => Unit
  | tableExists _ => Except StoreError Bool
  | openWriter _ => Except StoreError TableWriter
  | createTable _ _ _ => Except StoreError TableWriter
  | releaseWriter _ => Unit
  | offerWriter _ _ _ => Bool
  | offerSocket _ _ => Bool
  | stopPeer _ => Bool
  | fetchDisconnections => List Disconnection
  | readClock => Instant
  | askedToEnd => Bool
  | rest _ => Wake

end ReplicaHandshake
