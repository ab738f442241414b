import ReplicaHandshake.Outside.Dialogue

/-!
# Histories

A *history* is the list of what happened, oldest first: to the whole program (`happenings`) or on
behalf of one peer (`history`).  This module says what can be read off a history.

* Sockets: which ones the network opened, which were offered to the multiplexer, which it took, and
  which were closed; `about` picks what concerns one socket.
* Bytes and frames: what reading delivered and writing took, and which frames were
  queued and accepted.
* Writers: which ones the store handed out, which the multiplexer took, and which were released.
* `handed` is what the multiplexer took for a peer, sockets and writers in the order of taking.
* The course of a handler: the phases that it entered, the failures that it reported, and the peers
  of which the multiplexer said that it lets go; and the disconnections that were fetched.
* `Along P past hs` says that every happening of `hs` is as `P` says of it and of all that was
  before it, `past` included.
-/

namespace ReplicaHandshake

/-- What happened, regardless of on whose behalf. -/
def happenings (entries : List Entry) : List Happening :=
  entries.map (·.happening)

/-- What happened on behalf of a peer. -/
def history (peer : PeerId) (entries : List Entry) : List Happening :=
  happenings (entries.filter (·.peer = some peer))

@[simp] theorem happenings_nil : happenings [] = [] := rfl

@[simp] theorem happenings_cons (e : Entry) (entries : List Entry) :
    happenings (e :: entries) = e.happening :: happenings entries := rfl

@[simp] theorem happenings_append (first second : List Entry) :
    happenings (first ++ second) = happenings first ++ happenings second :=
  List.map_append

@[simp] theorem history_append (peer : PeerId) (first second : List Entry) :
    history peer (first ++ second) = history peer first ++ history peer second := by
  simp [history]

/-- What the multiplexer takes over from a handler. -/
inductive Item where
  | writer (writer : TableWriter)
  | socket (socket : SocketId)
deriving DecidableEq

namespace Happening

/-! ### Sockets -/

/-- The socket that was opened, and the master that it leads to. -/
def opening? : Happening → Option (Endpoint × SocketId)
  | answered (.openSocket endpoint) (.ok socket) => some (endpoint, socket)
  | _ => none

/-- The socket that was closed. -/
def closed? : Happening → Option SocketId
  | answered (.closeSocket socket) _ => some socket
  | _ => none

/-- The socket that was offered to the multiplexer, taken or not. -/
def offered? : Happening → Option SocketId
  | answered (.offerSocket _ handoff) _ => some handoff.socket
  | _ => none

/-- The socket that the multiplexer took. -/
def taken? : Happening → Option SocketId
  | answered (.offerSocket _ handoff) true => some handoff.socket
  | _ => none

/-- The socket that was polled, set up, read or written. -/
def used? : Happening → Option SocketId
  | answered (.pollConnect socket) _ => some socket
  | answered (.setNoDelay socket) _ => some socket
  | answered (.read socket _) _ => some socket
  | answered (.write socket _) _ => some socket
  | _ => none

/-- The socket that a happening is about. -/
def socket? : Happening → Option SocketId
  | answered (.openSocket _) (.ok socket) => some socket
  | answered (.pollConnect socket) _ => some socket
  | answered (.setNoDelay socket) _ => some socket
  | answered (.read socket _) _ => some socket
  | answered (.write socket _) _ => some socket
  | answered (.closeSocket socket) _ => some socket
  | answered (.offerSocket _ handoff) _ => some handoff.socket
  | noted (.queued socket _) => socket
  | noted (.accepted socket _) => socket
  | _ => none

/-! ### Bytes and frames -/

/-- The bytes that were read. -/
def delivered : Happening → Bytes
  | answered (.read _ _) (.ok bs) => bs.1
  | _ => []

/-- The bytes that were written. -/
def written : Happening → Bytes
  | answered (.write _ data) answer =>
    match answer.result with
    | .ok n => data.take n.1
    | .error _ => []
  | _ => []

/-- The socket that was read or written. -/
def exchanged? : Happening → Option SocketId
  | answered (.read socket _) _ => some socket
  | answered (.write socket _) _ => some socket
  | _ => none

/-- The frame that was put into an outbound buffer. -/
def queued? : Happening → Option Frame
  | noted (.queued _ f) => some f
  | _ => none

/-- The frame that was accepted. -/
def accepted? : Happening → Option Frame
  | noted (.accepted _ f) => some f
  | _ => none

/-- The description of the table that was accepted. -/
def described? : Happening → Option TableInfo
  | noted (.accepted _ (.tableInfo info)) => some info
  | _ => none

/-- The request for the data stream that was put into an outbound buffer. -/
def requested? : Happening → Option RequestReplicationStream
  | noted (.queued _ (.requestReplicationStream request)) => some request
  | _ => none

/-! ### Writers -/

/-- Whether the store was asked for a table that is there already. -/
def isLookup : Happening → Bool
  | answered (.tableExists _) _ => true
  | answered (.openWriter _) _ => true
  | _ => false

/-- The writer that the store handed out. -/
def received? : Happening → Option TableWriter
  | answered (.openWriter _) (.ok writer) => some writer
  | answered (.createTable _ _ _) (.ok writer) => some writer
  | _ => none

/-- The writer that was released. -/
def released? : Happening → Option TableWriter
  | answered (.releaseWriter writer) _ => some writer
  | _ => none

/-- The writer that the multiplexer took. -/
def takenWriter? : Happening → Option TableWriter
  | answered (.offerWriter _ _ writer) true => some writer
  | _ => none

/-- The writer that changes hands. -/
def writer? : Happening → Option TableWriter
  | answered (.openWriter _) (.ok writer) => some writer
  | answered (.createTable _ _ _) (.ok writer) => some writer
  | answered (.releaseWriter writer) _ => some writer
  | answered (.offerWriter _ _ writer) true => some writer
  | _ => none

/-! ### Peers and phases -/

/-- Whether the multiplexer was offered something. -/
def isOffer : Happening → Bool
  | answered (.offerWriter _ _ _) _ => true
  | answered (.offerSocket _ _) _ => true
  | _ => false

/-- Whether a happening is a word of the handshake: a frame that is accepted, a request for the data
stream, a question about a table that is there already, or an offer. -/
def isWord (x : Happening) : Bool :=
  x.accepted?.isSome || x.requested?.isSome || x.isLookup || x.isOffer

/-- What the multiplexer took for a peer. -/
def handed? (peer : PeerId) : Happening → Option Item
  | answered (.offerWriter p _ writer) true => if p = peer then some (.writer writer) else none
  | answered (.offerSocket p handoff) true => if p = peer then
    some (.socket handoff.socket) else none
  | _ => none

/-- The name of the phase that was entered. -/
def entered? : Happening → Option String
  | reported (.phaseEntered name) => some name
  | _ => none

/-- The kind of the failure that was reported. -/
def failure? : Happening → Option String
  | reported (.failure kind) => some kind
  | _ => none

/-- The peer of which the multiplexer said that it lets go. -/
def freed? : Happening → Option PeerId
  | answered (.stopPeer peer) true => some peer
  | _ => none

/-- Whether something was tried that cannot be done. -/
def isLapse : Happening → Bool
  | noted (.refused _ _) => true
  | noted (.absent _) => true
  | noted (.unready _) => true
  | _ => false

/-- The disconnections that were fetched. -/
def fetched : Happening → List Disconnection
  | answered .fetchDisconnections ds => ds
  | _ => []

end Happening

/-! ### Reading a history -/

/-- The sockets that were opened, each with the master that it leads to. -/
def openings (hs : List Happening) : List (Endpoint × SocketId) :=
  hs.filterMap (·.opening?)

/-- The sockets that were opened. -/
def openedSockets (hs : List Happening) : List SocketId :=
  (openings hs).map (·.2)

/-- The sockets that were closed. -/
def closedSockets (hs : List Happening) : List SocketId :=
  hs.filterMap (·.closed?)

/-- The sockets that were offered to the multiplexer, as often as they were. -/
def offeredSockets (hs : List Happening) : List SocketId :=
  hs.filterMap (·.offered?)

/-- The sockets that the multiplexer took. -/
def takenSockets (hs : List Happening) : List SocketId :=
  hs.filterMap (·.taken?)

/-- What concerns one socket. -/
def about (socket : SocketId) (hs : List Happening) : List Happening :=
  hs.filter (·.socket? = some socket)

/-- All bytes that were read. -/
def deliveredBytes (hs : List Happening) : Bytes :=
  hs.flatMap (·.delivered)

/-- All bytes that were written. -/
def writtenBytes (hs : List Happening) : Bytes :=
  hs.flatMap (·.written)

/-- The frames that were put into outbound buffers. -/
def queuedFrames (hs : List Happening) : List Frame :=
  hs.filterMap (·.queued?)

/-- The frames that were accepted. -/
def acceptedFrames (hs : List Happening) : List Frame :=
  hs.filterMap (·.accepted?)

/-- The descriptions of the table that were accepted. -/
def descriptions (hs : List Happening) : List TableInfo :=
  hs.filterMap (·.described?)

/-- The requests for the data stream that were put into outbound buffers. -/
def requests (hs : List Happening) : List RequestReplicationStream :=
  hs.filterMap (·.requested?)

/-- What the store was asked about a table that is there already, with its answers. -/
def lookups (hs : List Happening) : List Happening :=
  hs.filter (·.isLookup)

/-- The writers that the store handed out. -/
def receivedWriters (hs : List Happening) : List TableWriter :=
  hs.filterMap (·.received?)

/-- The writers that were released. -/
def releasedWriters (hs : List Happening) : List TableWriter :=
  hs.filterMap (·.released?)

/-- The writers that the multiplexer took. -/
def takenWriters (hs : List Happening) : List TableWriter :=
  hs.filterMap (·.takenWriter?)

/-- What the multiplexer took for a peer, in this order. -/
def handed (peer : PeerId) (hs : List Happening) : List Item :=
  hs.filterMap (·.handed? peer)

/-- The names of the phases that were entered, in this order. -/
def phases (hs : List Happening) : List String :=
  hs.filterMap (·.entered?)

/-- The kinds of the failures that were reported. -/
def failures (hs : List Happening) : List String :=
  hs.filterMap (·.failure?)

/-- The peers of which the multiplexer said that it lets go. -/
def freedPeers (hs : List Happening) : List PeerId :=
  hs.filterMap (·.freed?)

/-- The disconnections that were fetched, in this order. -/
def disconnections (hs : List Happening) : List Disconnection :=
  hs.flatMap (·.fetched)

section Append

variable (past hs : List Happening)

@[simp] theorem openings_append : openings (past ++ hs) = openings past ++ openings hs :=
  List.filterMap_append

@[simp] theorem openedSockets_append :
    openedSockets (past ++ hs) = openedSockets past ++ openedSockets hs := by
  simp [openedSockets]

@[simp] theorem closedSockets_append :
    closedSockets (past ++ hs) = closedSockets past ++ closedSockets hs :=
  List.filterMap_append

@[simp] theorem offeredSockets_append :
    offeredSockets (past ++ hs) = offeredSockets past ++ offeredSockets hs :=
  List.filterMap_append

@[simp] theorem takenSockets_append :
    takenSockets (past ++ hs) = takenSockets past ++ takenSockets hs :=
  List.filterMap_append

@[simp] theorem about_append (socket : SocketId) :
    about socket (past ++ hs) = about socket past ++ about socket hs :=
  List.filter_append ..

@[simp] theorem deliveredBytes_append :
    deliveredBytes (past ++ hs) = deliveredBytes past ++ deliveredBytes hs :=
  List.flatMap_append

@[simp] theorem writtenBytes_append :
    writtenBytes (past ++ hs) = writtenBytes past ++ writtenBytes hs :=
  List.flatMap_append

@[simp] theorem queuedFrames_append :
    queuedFrames (past ++ hs) = queuedFrames past ++ queuedFrames hs :=
  List.filterMap_append

@[simp] theorem acceptedFrames_append :
    acceptedFrames (past ++ hs) = acceptedFrames past ++ acceptedFrames hs :=
  List.filterMap_append

@[simp] theorem descriptions_append :
    descriptions (past ++ hs) = descriptions past ++ descriptions hs :=
  List.filterMap_append

@[simp] theorem requests_append : requests (past ++ hs) = requests past ++ requests hs :=
  List.filterMap_append

@[simp] theorem lookups_append : lookups (past ++ hs) = lookups past ++ lookups hs :=
  List.filter_append ..

@[simp] theorem receivedWriters_append :
    receivedWriters (past ++ hs) = receivedWriters past ++ receivedWriters hs :=
  List.filterMap_append

@[simp] theorem releasedWriters_append :
    releasedWriters (past ++ hs) = releasedWriters past ++ releasedWriters hs :=
  List.filterMap_append

@[simp] theorem takenWriters_append :
    takenWriters (past ++ hs) = takenWriters past ++ takenWriters hs :=
  List.filterMap_append

@[simp] theorem handed_append (peer : PeerId) :
    handed peer (past ++ hs) = handed peer past ++ handed peer hs :=
  List.filterMap_append

@[simp] theorem phases_append : phases (past ++ hs) = phases past ++ phases hs :=
  List.filterMap_append

@[simp] theorem failures_append : failures (past ++ hs) = failures past ++ failures hs :=
  List.filterMap_append

@[simp] theorem freedPeers_append : freedPeers (past ++ hs) = freedPeers past ++ freedPeers hs :=
  List.filterMap_append

@[simp] theorem disconnections_append :
    disconnections (past ++ hs) = disconnections past ++ disconnections hs :=
  List.flatMap_append

end Append

/-! ### Properties of every happening and its past -/

section Along

variable {ε : Type} {P : List ε → ε → Prop}

/-- Every element has a property with regard to all that is before it. -/
def Along (P : List ε → ε → Prop) : List ε → List ε → Prop
  | _, [] => True
  | past, x :: rest => P past x ∧ Along P (past ++ [x]) rest

@[simp] theorem along_nil (past : List ε) : Along P past [] := trivial

@[simp] theorem along_cons {past : List ε} {x : ε} {rest : List ε} :
    Along P past (x :: rest) ↔ P past x ∧ Along P (past ++ [x]) rest := Iff.rfl

theorem along_append {past first second : List ε} :
    Along P past (first ++ second) ↔ Along P past first ∧ Along P (past ++ first) second := by
  induction first generalizing past with
  | nil => simp
  | cons x first ih => simp [ih, and_assoc]

theorem along_of_forall {past hs : List ε} (h : ∀ x ∈ hs, ∀ past, P past x) :
    Along P past hs := by
  induction hs generalizing past with
  | nil => trivial
  | cons x hs ih =>
    refine ⟨h x List.mem_cons_self past, ih fun y hy => ?_⟩
    exact h y (List.mem_cons_of_mem x hy)

theorem Along.split {before after : List ε} {x : ε} (h : Along P [] (before ++ x :: after)) :
    P before x := by
  have h := (along_append.1 h).2
  rw [List.nil_append] at h
  exact h.1

theorem along_of_split {past hs : List ε}
    (h : ∀ before x after, hs = before ++ x :: after → P (past ++ before) x) : Along P past hs := by
  induction hs generalizing past with
  | nil => trivial
  | cons x hs ih =>
    refine ⟨by simpa using h [] x hs rfl, ih fun before y after heq => ?_⟩
    simpa using h (x :: before) y after (by rw [heq]; rfl)

end Along

end ReplicaHandshake
