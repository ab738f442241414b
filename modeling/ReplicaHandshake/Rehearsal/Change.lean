import ReplicaHandshake.Frame.Stream
import ReplicaHandshake.Outside.Task
import ReplicaHandshake.Rehearsal.World

/-!
# Changing the script of a rehearsal

Between the steps of a rehearsal the scripts may be changed: what a master does and sends, what the
store knows, how often the multiplexer refuses.  `Master.outboxes` reads what a master was sent.
-/

namespace ReplicaHandshake.Rehearsal

/-- Something that a master is to send. -/
inductive Sending where
  | bytes (bs : Bytes)
  /-- The bytes before and after come in separate pieces. -/
  | cut
  | failure (e : SystemError)
deriving DecidableEq, Repr

/-- A segment, if it holds anything. -/
def segmentOf (bs : Bytes) : List InboundItem :=
  if bs = [] then [] else [.segment bs]

/-- The pieces of what is to be sent; neighbouring bytes make one segment. -/
def inboundItems (pending : Bytes) : List Sending → List InboundItem
  | [] => segmentOf pending
  | .bytes bs :: rest => inboundItems (pending ++ bs) rest
  | .cut :: rest => segmentOf pending ++ inboundItems [] rest
  | .failure e :: rest => segmentOf pending ++ .failure e :: inboundItems [] rest

/-- A change of a master's script. -/
inductive MasterChange where
  | connect (script : ConnectScript)
  | refuse (error : Option SystemError)
  | failNoDelay (error : Option SystemError)
  | send (items : List Sending)
  | ended (ended : Bool)
  | limitReads (limit : Option Nat)
  | write (steps : List WriteStep)
deriving DecidableEq, Repr

namespace Master

/-- Change the script. -/
def change (m : Master) : MasterChange → Master
  | .connect script => { m with connect := script }
  | .refuse error => { m with refusal := error }
  | .failNoDelay error => { m with noDelayError := error }
  | .send items => { m with inbound := m.inbound ++ inboundItems [] items }
  | .ended ended => { m with ended }
  | .limitReads limit => { m with readLimit := limit }
  | .write steps => { m with writes := m.writes ++ steps }

/-- The frames that were written to each socket, and the bytes behind the last whole one. -/
def outboxes (m : Master) : List (List Frame × Bytes) :=
  m.sockets.map fun s =>
    let stream := Frame.split greatestWord32 s.written
    (stream.frames, stream.rest)

end Master

/-- A change of the store. -/
inductive StoreChange where
  | put (table : Table)
  | drop (name : String)
  | failExists (error : Option StoreError)
  | failOpen (error : Option StoreError)
  | failCreate (error : Option StoreError)
deriving DecidableEq, Repr

/-- Change the store. -/
def Store.change (s : Store) : StoreChange → Store
  | .put table => s.put table
  | .drop name => s.drop name
  | .failExists error => { s with existsError := error }
  | .failOpen error => { s with openError := error }
  | .failCreate error => { s with createError := error }

/-- A change of the multiplexer's script. -/
inductive MultiplexerChange where
  | refuseWriters (count : Nat)
  | refuseSockets (count : Nat)
  | refuseStops (count : Nat)
  | closeOnStop (closes : Bool)
deriving DecidableEq, Repr

/-- Change the multiplexer's script. -/
def Multiplexer.change (m : Multiplexer) : MultiplexerChange → Multiplexer
  | .refuseWriters count => { m with refusedWriters := count }
  | .refuseSockets count => { m with refusedSockets := count }
  | .refuseStops count => { m with refusedStops := count }
  | .closeOnStop closes => { m with closesOnStop := closes }

/-- A rehearsal in progress: its subject, the outside, and the metrics that were reported. -/
structure Stage (σ : Type) where
  subject : σ
  world : World := {}
  metrics : Array Metric := #[]

namespace Stage

variable {σ α : Type}

/-- Do work on the subject. -/
def perform (s : Stage σ) (work : Work σ α) : α × Stage σ :=
  let ((a, subject), world, entries) := (work.run s.subject).perform Rehearsal.world s.world
  (a, { subject, world, metrics := s.metrics ++ (metricsOf entries).toArray })

/-- Change the outside. -/
def changeWorld (s : Stage σ) (f : World → World) : Stage σ :=
  { s with world := f s.world }

/-- Change the script of the master on a port. -/
def changeMaster (s : Stage σ) (port : UInt16) (changes : List MasterChange) : Stage σ :=
  s.changeWorld fun w =>
    { w with network := w.network.updateMaster port fun m => changes.foldl Master.change m }

/-- What the master on a port was sent. -/
def outboxes (s : Stage σ) (port : UInt16) : List (List Frame × Bytes) :=
  (s.world.network.masterAt port).outboxes

end Stage

end ReplicaHandshake.Rehearsal
