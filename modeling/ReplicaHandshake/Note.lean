import ReplicaHandshake.Frame.Basic
import ReplicaHandshake.Phase

/-!
# Notes

What the program writes into its log about a handshake.  A `Note` tells of a step that no call to
the outside shows by itself: that a handler begins, which frames were put into an outbound buffer or
accepted from a master, and that something was tried that cannot be done.
-/

namespace ReplicaHandshake

/-- A line of the log. -/
inductive Note where
  /-- A handler begins to bring up a table that so many masters serve. -/
  | started (tableName : String) (masters : Nat)
  /-- A frame was put into the outbound buffer of the connection with this socket. -/
  | queued (socket : Option SocketId) (frame : Frame)
  /-- A frame that came in by this socket was accepted. -/
  | accepted (socket : Option SocketId) (frame : Frame)
  /-- A handler was to turn to a phase that may not follow its own, and stayed in its own. -/
  | refused (old new : Phase)
  /-- A handler was to turn to a connection, and has none at this position. -/
  | absent (position : Nat)
  /-- A connection was to be handed over that has no socket, or whose exchange is not over. -/
  | unready (socket : Option SocketId)
deriving DecidableEq, Repr

end ReplicaHandshake
