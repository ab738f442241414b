import ReplicaHandshake.Proofs.Connection.Sound

/-!
# Traffic

Most of what happens with a connection is *traffic*: its socket is polled, read and written, it asks
its master for the table, and reports metrics of all that.  No traffic opens, closes or offers a
socket, nor moves a writer, nor is it a word of the handshake (`Wordless`), and all of it concerns
the socket that the connection has.
-/

namespace ReplicaHandshake

/-- There is no word of the handshake. -/
structure Wordless (hs : List Happening) : Prop where
  accepted : acceptedFrames hs = []
  descriptions : descriptions hs = []
  requests : requests hs = []
  lookups : lookups hs = []

theorem Happening.described?_of_accepted {x : Happening} (h : x.accepted? = none) :
    x.described? = none := by
  unfold described?
  split <;> first | rfl | cases h

theorem Happening.handed?_of_isOffer {x : Happening} {peer : PeerId} (h : x.isOffer = false) :
    x.handed? peer = none := by
  unfold handed?
  split <;> first | rfl | cases h

theorem Happening.of_isWord {x : Happening} (h : x.isWord = false) :
    x.accepted? = none ∧ x.requested? = none ∧ x.isLookup = false ∧ x.isOffer = false := by
  simpa [isWord, and_assoc] using h

theorem wordless_of_forall {hs : List Happening} (h : ∀ x ∈ hs, x.isWord = false) :
    Wordless hs := by
  have hparts := fun x hx => Happening.of_isWord (h x hx)
  refine ⟨?_, ?_, ?_, ?_⟩
  · exact List.filterMap_eq_nil_iff.2 fun x hx => (hparts x hx).1
  · apply List.filterMap_eq_nil_iff.2
    intro x hx
    exact Happening.described?_of_accepted (hparts x hx).1
  · exact List.filterMap_eq_nil_iff.2 fun x hx => (hparts x hx).2.1
  · exact List.filter_eq_nil_iff.2 fun x hx => by simp [(hparts x hx).2.2.1]

theorem Happening.socket?_of_used {x : Happening} {socket : SocketId}
    (h : x.used? = some socket) : x.socket? = some socket := by
  unfold used? at h
  split at h <;> first | exact h | cases h

namespace Connection

/-- What happens with the socket of a connection in the course of the handshake. -/
inductive Traffic (c : Connection) : Happening → Prop where
  | pollConnect {socket : SocketId} {answer : Except SystemError ConnectStatus} :
      c.socket = some socket → Traffic c (.answered (.pollConnect socket) answer)
  | setNoDelay {socket : SocketId} {answer : Except SystemError Unit} :
      c.socket = some socket → Traffic c (.answered (.setNoDelay socket) answer)
  | read {socket : SocketId} {most : Nat}
      {answer : Except SystemError { bs : Bytes // bs.length ≤ most }} :
      c.socket = some socket → Traffic c (.answered (.read socket most) answer)
  | write {socket : SocketId} {data : Bytes} {answer : WriteAnswer data.length} :
      c.socket = some socket → Traffic c (.answered (.write socket data) answer)
  | asked {request : RequestTableInfo} {socket : SocketId} : c.socket = some socket →
      Traffic c (.noted (.queued c.socketId (.requestTableInfo request)))
  | event (tableName what : String) : Traffic c (.reported (.connectionEvent tableName what))
  | sent (kind : String) : Traffic c (.reported (.frameSent kind))
  | received (kind : String) : Traffic c (.reported (.frameReceived kind))

variable {c c' : Connection} {hs : List Happening}

theorem Traffic.isWord {x : Happening} (h : Traffic c x) : x.isWord = false := by
  cases h <;> rfl

theorem Traffic.used {x : Happening} {socket : SocketId} (h : Traffic c x)
    (hused : x.used? = some socket) : c.socket = some socket := by
  cases h with
  | pollConnect h | setNoDelay h | read h | write h =>
    cases hused
    exact h
  | asked | event | sent | received => cases hused

theorem Traffic.socket {x : Happening} {socket : SocketId} (h : Traffic c x) (hsound : c.Sound)
    (hsocket : x.socket? = some socket) : c.socketId = some socket ∧ c.socket = some socket := by
  have hid : ∀ {own : SocketId}, c.socket = some own → c.socketId = c.socket := by
    intro own hown
    exact (hsound.holds_of_socket hown).2.1.symm
  cases h with
  | pollConnect h | setNoDelay h | read h | write h =>
    cases hsocket
    exact ⟨(hid h).trans h, h⟩
  | asked h => exact ⟨hsocket, (hid h).symm.trans hsocket⟩
  | event | sent | received => cases hsocket

theorem Traffic.congr {x : Happening} (h : Traffic c x) (hsocket : c'.socket = c.socket)
    (hid : c'.socketId = c.socketId) : Traffic c' x := by
  cases h with
  | pollConnect h => exact .pollConnect (hsocket.trans h)
  | setNoDelay h => exact .setNoDelay (hsocket.trans h)
  | read h => exact .read (hsocket.trans h)
  | write h => exact .write (hsocket.trans h)
  | asked h =>
    rw [← hid]
    exact .asked (hsocket.trans h)
  | event tableName what => exact .event tableName what
  | sent kind => exact .sent kind
  | received kind => exact .received kind

theorem wordless_of_traffic (h : ∀ x ∈ hs, Traffic c x) : Wordless hs :=
  wordless_of_forall fun x hx => (h x hx).isWord

/-! ### Who has the socket -/

/-- The socket is where it was. -/
def Keeps (c c' : Connection) : Prop :=
  Same c c' ∧ c'.socket = c.socket ∧ c'.pendingHandoff = c.pendingHandoff

theorem Keeps.refl (c : Connection) : Keeps c c :=
  ⟨.refl c, rfl, rfl⟩

theorem Keeps.trans {c'' : Connection} (h : Keeps c c') (h' : Keeps c' c'') : Keeps c c'' :=
  ⟨h.1.trans h'.1, h'.2.1.trans h.2.1, h'.2.2.trans h.2.2⟩

theorem Keeps.ownedSockets_eq (h : Keeps c c') : c'.ownedSockets = c.ownedSockets := by
  rw [ownedSockets, ownedSockets, h.2.1, h.2.2]

theorem Write.traffic (h : Write c hs c') : Keeps c c' ∧ ∀ x ∈ hs, Traffic c x := by
  cases h with
  | some hsocket | none hsocket => simpa using ⟨.refl c, .write hsocket⟩

theorem traffic_of_writes (h : Way Write c hs c') : Keeps c c' ∧ ∀ x ∈ hs, Traffic c x := by
  induction h with
  | refl => exact ⟨.refl c, by simp⟩
  | tail _ hwrite ih =>
    obtain ⟨hkeeps, htraffic⟩ := hwrite.traffic
    refine ⟨ih.1.trans hkeeps, ?_⟩
    intro x hx
    rcases List.mem_append.1 hx with hx | hx
    · exact ih.2 x hx
    · exact (htraffic x hx).congr ih.1.2.1.symm ih.1.1.2.2.2.2.symm

theorem Step.traffic (h : Step c hs c') : Keeps c c' ∧ ∀ x ∈ hs, Traffic c x := by
  cases h with
  | write h => exact h.traffic
  | wait _ hsocket => simpa using ⟨.refl c, .pollConnect hsocket⟩
  | ask _ _ hsocket =>
    refine ⟨.refl c, ?_⟩
    simp only [List.forall_mem_cons, List.not_mem_nil, false_implies, implies_true, and_true]
    exact ⟨.pollConnect hsocket, .setNoDelay hsocket, .event .., .asked hsocket, .sent _⟩
  | read hsocket | block hsocket => simpa using ⟨.refl c, .read hsocket⟩

theorem Fault.traffic {f : Failure} (h : Fault c hs f c') :
    Keeps c c' ∧ ∀ x ∈ hs, Traffic c x := by
  refine ⟨by cases h <;> exact .refl c, ?_⟩
  cases h with
  | connect _ hsocket => simpa using ⟨.pollConnect hsocket, .event ..⟩
  | ask _ _ hsocket => simpa using ⟨.pollConnect hsocket, .setNoDelay hsocket, .event ..⟩
  | writeNothing hsocket | write hsocket => simpa using .write hsocket
  | read hsocket => simpa using .read hsocket
  | ended hsocket => simpa using ⟨.read hsocket, .event ..⟩
  | frame => simp
  | refuse => simpa using .received _

/-- What happens when the stream is asked for: the request, and traffic. -/
theorem Request.traffic {r : RequestReplicationStream} (h : Request r c hs c') :
    Keeps c c' ∧ ∃ rest, hs = .noted (.queued c.socketId (.requestReplicationStream r)) :: rest ∧
      ∀ x ∈ rest, Traffic c x := by
  cases h with
  | ask _ _ hwrites =>
    obtain ⟨hkeeps, htraffic⟩ := traffic_of_writes hwrites
    refine ⟨⟨hkeeps.1, hkeeps.2⟩, _, rfl, ?_⟩
    intro x hx
    rcases List.mem_cons.1 hx with rfl | hx
    · exact .sent _
    · exact (htraffic x hx).congr rfl rfl

theorem RequestFault.traffic {r : RequestReplicationStream} {f : Failure}
    (h : RequestFault r c hs f c') :
    Keeps c c' ∧ (hs = [] ∨ ∃ rest,
      hs = .noted (.queued c.socketId (.requestReplicationStream r)) :: rest ∧
        ∀ x ∈ rest, Traffic c x) := by
  cases h with
  | queue => exact ⟨.refl c, .inl rfl⟩
  | write _ _ hends =>
    obtain ⟨c₁, hs₁, hs₂, rfl, hwrites, hfault, -⟩ := hends
    obtain ⟨hkeeps, htraffic⟩ := traffic_of_writes hwrites
    obtain ⟨hkeeps', htraffic'⟩ := hfault.traffic
    have hall := hkeeps.trans hkeeps'
    refine ⟨⟨hall.1, hall.2⟩, .inr ⟨_, rfl, ?_⟩⟩
    intro x hx
    rcases List.mem_cons.1 hx with rfl | hx
    · exact .sent _
    rcases List.mem_append.1 hx with hx | hx
    · exact (htraffic x hx).congr rfl rfl
    · exact (htraffic' x hx).congr hkeeps.2.1.symm hkeeps.1.2.2.2.2.symm

theorem Hear.keeps {event : ConnectionEvent} (h : Hear c hs event c') : Keeps c c' := by
  cases h with
  | accept _ _ haccept => cases haccept <;> exact .refl _

end Connection

end ReplicaHandshake
