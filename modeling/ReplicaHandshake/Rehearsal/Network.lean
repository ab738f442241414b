import ReplicaHandshake.Frame.Inbound
import ReplicaHandshake.Outside.Call
import ReplicaHandshake.Rehearsal.Script

/-!
# Masters that follow a script

The network of a rehearsal has one scripted master on every port.  The script says how sockets come
to be connected, what the master sends, in which pieces, and what becomes of the bytes written to
it.  All sockets of one port share its script; the master keeps the bytes of each.
-/

namespace ReplicaHandshake.Rehearsal

/-- How a socket answers while it connects. -/
inductive ConnectScript where
  | immediate
  | pending
  /-- In progress for so many polls, of all sockets of the port together. -/
  | after (polls : Nat)
  | failing (e : SystemError)
deriving DecidableEq, Repr

/-- What a master sends: bytes that may come in one piece, or an error in their place. -/
inductive InboundItem where
  | segment (bs : Bytes)
  | failure (e : SystemError)
deriving DecidableEq, Repr

/-- A socket as its master sees it. -/
structure SocketRecord where
  id : SocketId
  written : Bytes := []
  isClosed : Bool := false
deriving DecidableEq, Repr

/-- A master and its script. -/
structure Master where
  connect : ConnectScript := .immediate
  refusal : Option SystemError := none
  noDelayError : Option SystemError := none
  inbound : List InboundItem := []
  /-- Whether the stream ends after what is still to be sent. -/
  ended : Bool := false
  /-- How many bytes one reading brings at most. -/
  readLimit : Option Nat := none
  writes : List WriteStep := []
  /-- The sockets that were opened, in that order. -/
  sockets : List SocketRecord := []
deriving DecidableEq, Repr

namespace Master

/-- Change the record of one socket. -/
def updateSocket (m : Master) (id : SocketId) (f : SocketRecord → SocketRecord) : Master :=
  { m with sockets := m.sockets.map fun s => if s.id = id then f s else s }

/-- Answer a socket that asks how far it has come. -/
def answerPoll (m : Master) : Except SystemError ConnectStatus × Master :=
  match m.connect with
  | .immediate | .after 0 => (.ok .connected, m)
  | .pending => (.ok .inProgress, m)
  | .after (polls + 1) => (.ok .inProgress, { m with connect := .after polls })
  | .failing e => (.error e, m)

/-- The bytes that one reading takes off a segment. -/
def pieceLength (m : Master) (most available : Nat) : Nat :=
  min (min available most) (m.readLimit.getD available)

theorem pieceLength_le (m : Master) (most available : Nat) :
    m.pieceLength most available ≤ most := by
  simp only [pieceLength]
  omega

/-- Answer a reading of at most `most` bytes. -/
def answerRead (m : Master) (most : Nat) :
    Except SystemError { bs : Bytes // bs.length ≤ most } × Master :=
  match m.inbound with
  | .failure e :: rest => (.error e, { m with inbound := rest })
  | .segment bs :: rest =>
    let n := m.pieceLength most bs.length
    let left := bs.drop n
    (.ok ⟨bs.take n, by
        have := m.pieceLength_le most bs.length
        simp only [List.length_take]
        omega⟩,
      { m with inbound := if left = [] then rest else .segment left :: rest })
  | [] => (if m.ended then .ok ⟨[], Nat.zero_le _⟩ else .error (.bare .wouldBlock), m)

/-- Answer a write of a socket. -/
def answerWrite (m : Master) (id : SocketId) (data : Bytes) : WriteAnswer data.length × Master :=
  let (answer, writes) := Rehearsal.answerWrite data.length
    (fun k => .accept k data.length data.length) 0 m.writes
  let taken := match answer.result with
    | .ok n => data.take n.1
    | .error _ => []
  (answer, { m with writes }.updateSocket id fun s => { s with written := s.written ++ taken })

/-- How many sockets were opened, how many of them are closed, and how many bytes they wrote. -/
def counts (m : Master) : Nat × Nat × Nat :=
  (m.sockets.length, (m.sockets.filter (·.isClosed)).length,
    m.sockets.foldl (fun n s => n + s.written.length) 0)

end Master

/-- The masters of a rehearsal by their ports. -/
structure Network where
  masters : List (UInt16 × Master) := []
  nextSocket : SocketId := .first

namespace Network

/-- Let a function change the master on a port, which is there from then on. -/
def updateMaster (n : Network) (port : UInt16) (f : Master → Master) : Network :=
  let rec go : List (UInt16 × Master) → List (UInt16 × Master)
    | [] => [(port, f {})]
    | (p, m) :: rest => if p = port then (p, f m) :: rest else (p, m) :: go rest
  { n with masters := go n.masters }

/-- The master on a port. -/
def masterAt (n : Network) (port : UInt16) : Master :=
  (n.masters.lookup port).getD {}

/-- The port that a socket was opened to. -/
def portOf (n : Network) (socket : SocketId) : UInt16 :=
  ((n.masters.find? fun (_, m) => m.sockets.any (·.id = socket)).map Prod.fst).getD 0

/-- Let the master of a socket answer. -/
def answerBy {α : Type} (n : Network) (socket : SocketId) (f : Master → α × Master) :
    α × Network :=
  let port := n.portOf socket
  let (answer, m) := f (n.masterAt port)
  (answer, n.updateMaster port fun _ => m)

/-- Open a socket. -/
def openSocket (n : Network) (port : UInt16) : Except SystemError SocketId × Network :=
  match (n.masterAt port).refusal with
  | some e => (.error e, n)
  | none =>
    let id := n.nextSocket
    let n := n.updateMaster port fun m => { m with sockets := m.sockets ++ [{ id }] }
    (.ok id, { n with nextSocket := id.next })

/-- Close a socket. -/
def closeSocket (n : Network) (socket : SocketId) : Network :=
  n.updateMaster (n.portOf socket) fun m => m.updateSocket socket fun s =>
    { s with isClosed := true }

end Network

end ReplicaHandshake.Rehearsal
