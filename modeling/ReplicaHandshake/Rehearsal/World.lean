import ReplicaHandshake.Outside.Dialogue
import ReplicaHandshake.Rehearsal.Network
import ReplicaHandshake.Rehearsal.Store

/-!
# The outside of a rehearsal

A `World` is an outside that follows scripts: masters, a store, a multiplexer that may refuse a
number of offers, and someone who ends the program.  It writes down the calls that it saw as
`Event`s.  `world` is the environment that answers from a `World`.
-/

namespace ReplicaHandshake.Rehearsal

/-- A call that was seen. -/
inductive Event where
  | opened (endpoint : Endpoint) (socket : Option SocketId)
  | noDelay (port : UInt16)
  | existsAsked (tableName : String)
  | writerOpened (tableName : String)
  | created (tableName : String) (metadata symbols : Bytes)
  | writerOffered (peer : PeerId) (masterTableId : UInt32) (writer : TableWriter) (accepted : Bool)
  | socketOffered (peer : PeerId) (handoff : Handoff) (accepted : Bool)
  | stopAsked (peer : PeerId) (accepted : Bool)
deriving DecidableEq, Repr

/-- A multiplexer that refuses as often as it was told to. -/
structure Multiplexer where
  refusedWriters : Nat := 0
  refusedSockets : Nat := 0
  refusedStops : Nat := 0
  /-- Whether an accepted stop closes the sockets of its peer. -/
  closesOnStop : Bool := true
  writers : List (PeerId × TableWriter) := []
  sockets : List (PeerId × SocketId) := []

/-- How the one who runs the program ends it. -/
inductive Ending where
  /-- It has been asked to end before it starts. -/
  | asked
  /-- Nobody can ask it to end. -/
  | abandoned
  /-- It is asked to end when it rests. -/
  | whenResting
  /-- It is told to go on when it rests, and asked to end when it rests again. -/
  | whenRestingAgain
deriving DecidableEq, Repr

/-- The outside of a rehearsal. -/
structure World where
  network : Network := {}
  store : Store := {}
  multiplexer : Multiplexer := {}
  disconnections : DisconnectionQueue := []
  ending : Ending := .asked
  /-- The calls that were seen, in order. -/
  events : List Event := []

namespace World

/-- Write down a call. -/
def note (w : World) (e : Event) : World :=
  { w with events := w.events ++ [e] }

/-- Let the master of a socket answer. -/
def byMaster {α : Type} (w : World) (socket : SocketId) (f : Master → α × Master) : α × World :=
  let (answer, network) := w.network.answerBy socket f
  (answer, { w with network })

/-- Open a socket. -/
def answerOpen (w : World) (endpoint : Endpoint) : Except SystemError SocketId × World :=
  let (answer, network) := w.network.openSocket endpoint.port
  (answer, { w with network }.note (.opened endpoint answer.toOption))

/-- Close a socket. -/
def close (w : World) (socket : SocketId) : World :=
  { w with network := w.network.closeSocket socket }

/-- Take a writer back. -/
def release (w : World) (writer : TableWriter) : World :=
  { w with store := w.store.release writer }

/-- Report a disconnection. -/
def disconnected (w : World) (d : Disconnection) : World :=
  { w with disconnections := w.disconnections.push d }

/-- Take a writer over, or refuse it. -/
def answerWriter (w : World) (peer : PeerId) (masterTableId : UInt32) (writer : TableWriter) :
    Bool × World :=
  let m := w.multiplexer
  let accepted := m.refusedWriters = 0
  let m :=
    if accepted then { m with writers := m.writers ++ [(peer, writer)] }
    else { m with refusedWriters := m.refusedWriters - 1 }
  (accepted, { w with multiplexer := m }.note (.writerOffered peer masterTableId writer accepted))

/-- Take a socket over, or refuse it. -/
def answerSocket (w : World) (peer : PeerId) (handoff : Handoff) : Bool × World :=
  let m := w.multiplexer
  let accepted := m.refusedSockets = 0
  let m :=
    if accepted then { m with sockets := m.sockets ++ [(peer, handoff.socket)] }
    else { m with refusedSockets := m.refusedSockets - 1 }
  (accepted, { w with multiplexer := m }.note (.socketOffered peer handoff accepted))

/-- Let go of the writers of a peer. -/
def dropWriters (w : World) (peer : PeerId) : World :=
  let (gone, kept) := w.multiplexer.writers.partition (·.1 = peer)
  let w := { w with multiplexer := { w.multiplexer with writers := kept } }
  gone.foldl (fun w (_, writer) => w.release writer) w

/-- Close the sockets of a peer, and report each. -/
def dropSockets (w : World) (peer : PeerId) : World :=
  let (gone, kept) := w.multiplexer.sockets.partition (·.1 = peer)
  let w := { w with multiplexer := { w.multiplexer with sockets := kept } }
  gone.foldl (fun w (_, socket) => (w.close socket).disconnected ⟨peer, socket⟩) w

/-- Close a socket that the multiplexer holds for a peer, if it does, and report it. -/
def drop (w : World) (d : Disconnection) : World :=
  let (gone, kept) := w.multiplexer.sockets.partition (· = (d.peer, d.socket))
  let w := { w with multiplexer := { w.multiplexer with sockets := kept } }
  (gone.foldl (fun w (_, socket) => w.close socket) w).disconnected d

/-- Let go of a peer, or refuse to. -/
def answerStop (w : World) (peer : PeerId) : Bool × World :=
  let m := w.multiplexer
  if 0 < m.refusedStops then
    (false, { w with multiplexer := { m with refusedStops := m.refusedStops - 1 } }.note
      (.stopAsked peer false))
  else
    let w := w.dropWriters peer
    let w := if m.closesOnStop then w.dropSockets peer else w
    (true, w.note (.stopAsked peer true))

/-- Answer a program that rests. -/
def answerRest (w : World) : Wake × World :=
  match w.ending with
  | .asked | .whenResting => (.asked true, { w with ending := .asked })
  | .abandoned => (.abandoned, w)
  | .whenRestingAgain => (.asked false, { w with ending := .whenResting })

/-- Answer a call. -/
def answer (c : Call) (w : World) : c.Answer × World :=
  match c with
  | .openSocket endpoint => w.answerOpen endpoint
  | .pollConnect socket => w.byMaster socket Master.answerPoll
  | .setNoDelay socket =>
    let port := w.network.portOf socket
    let answer := match (w.network.masterAt port).noDelayError with
      | some e => .error e
      | none => .ok ()
    (answer, w.note (.noDelay port))
  | .read socket most => w.byMaster socket (·.answerRead most)
  | .write socket data => w.byMaster socket (·.answerWrite socket data)
  | .closeSocket socket => ((), w.close socket)
  | .tableExists name => (w.store.answerExists name, w.note (.existsAsked name))
  | .openWriter name =>
    let (answer, store) := w.store.answerOpen name
    (answer, { w with store }.note (.writerOpened name))
  | .createTable name metadata symbols =>
    let (answer, store) := w.store.answerCreate name metadata
    (answer, { w with store }.note (.created name metadata symbols))
  | .releaseWriter writer => ((), w.release writer)
  | .offerWriter peer masterTableId writer => w.answerWriter peer masterTableId writer
  | .offerSocket peer handoff => w.answerSocket peer handoff
  | .stopPeer peer => w.answerStop peer
  | .fetchDisconnections => (w.disconnections, { w with disconnections := [] })
  | .readClock => ((0 : Instant), w)
  | .askedToEnd => (decide (w.ending = .asked), w)
  | .rest _ => w.answerRest

end World

/-- The environment that answers from a world. -/
def world : Dialogue.Environment World := ⟨World.answer⟩

end ReplicaHandshake.Rehearsal
