import ReplicaHandshake.Proofs.Connection.Traffic

/-!
# Who has a socket

`Connection.Act` is what a connection of a handler does as long as nothing goes wrong.  It talks
with its master by the socket that it has (`Connection.Talk`), and keeps the socket, or it offers
the socket; then the multiplexer has it or the connection owns it still (`Act.custody`), but in
either case does not use it any more (`Act.view`).
-/

namespace ReplicaHandshake

/-- No socket changes hands by a happening. -/
structure Happening.Still (x : Happening) : Prop where
  opening : x.opening? = none
  closed : x.closed? = none
  offered : x.offered? = none
  taken : x.taken? = none

theorem Happening.still_of_socket? {x : Happening} (h : x.socket? = none) : x.Still := by
  constructor
  · unfold opening?
    split <;> first | rfl | cases h
  · unfold closed?
    split <;> first | rfl | cases h
  · unfold offered?
    split <;> first | rfl | cases h
  · unfold taken?
    split <;> first | rfl | cases h

theorem Happening.socket?_of_offered {x : Happening} {socket : SocketId}
    (h : x.offered? = some socket) : x.socket? = some socket := by
  unfold offered? at h
  split at h <;> first | exact h | cases h

theorem Happening.socket?_of_closed {x : Happening} {socket : SocketId}
    (h : x.closed? = some socket) : x.socket? = some socket := by
  unfold closed? at h
  split at h <;> first | exact h | cases h

/-- Where no writer changes hands, none is received, released or taken. -/
theorem Happening.of_writer? {x : Happening} (h : x.writer? = none) :
    x.received? = none ∧ x.released? = none ∧ x.takenWriter? = none := by
  refine ⟨?_, ?_, ?_⟩
  · unfold received?
    split <;> first | rfl | cases h
  · unfold released?
    split <;> first | rfl | cases h
  · unfold takenWriter?
    split <;> first | rfl | cases h

theorem openings_of_still {hs : List Happening} (h : ∀ x ∈ hs, x.Still) : openings hs = [] :=
  List.filterMap_eq_nil_iff.2 fun x hx => (h x hx).opening

theorem closedSockets_of_still {hs : List Happening} (h : ∀ x ∈ hs, x.Still) :
    closedSockets hs = [] :=
  List.filterMap_eq_nil_iff.2 fun x hx => (h x hx).closed

theorem offeredSockets_of_still {hs : List Happening} (h : ∀ x ∈ hs, x.Still) :
    offeredSockets hs = [] :=
  List.filterMap_eq_nil_iff.2 fun x hx => (h x hx).offered

theorem takenSockets_of_still {hs : List Happening} (h : ∀ x ∈ hs, x.Still) :
    takenSockets hs = [] :=
  List.filterMap_eq_nil_iff.2 fun x hx => (h x hx).taken

namespace Connection

variable {c c' : Connection} {hs : List Happening}

/-- A connection talks with its master. -/
inductive Talk (c : Connection) : Happening → Prop where
  | traffic {x : Happening} : Traffic c x → Talk c x
  | queued (f : Frame) : c.Holds → Talk c (.noted (.queued c.socketId f))
  | accepted (f : Frame) : c.Holds → Talk c (.noted (.accepted c.socketId f))

theorem Talk.still {x : Happening} (h : Talk c x) : x.Still := by
  cases h with
  | traffic h => cases h <;> exact ⟨rfl, rfl, rfl, rfl⟩
  | queued | accepted => exact ⟨rfl, rfl, rfl, rfl⟩

theorem Talk.socket {x : Happening} {socket : SocketId} (h : Talk c x) (hsound : c.Sound)
    (hsocket : x.socket? = some socket) : c.socketId = some socket ∧ c.socket = some socket := by
  cases h with
  | traffic h => exact h.socket hsound hsocket
  | queued _ hholds | accepted _ hholds => exact ⟨hsocket, hholds.2.1.trans hsocket⟩

theorem Talk.used {x : Happening} {socket : SocketId} (h : Talk c x)
    (hused : x.used? = some socket) : c.socket = some socket := by
  cases h with
  | traffic h => exact h.used hused
  | queued | accepted => cases hused

theorem Talk.writer {x : Happening} (h : Talk c x) : x.writer? = none := by
  cases h with
  | traffic h => cases h <;> rfl
  | queued | accepted => rfl

theorem Hear.talk {event : ConnectionEvent} (h : Hear c hs event c') (hholds : c.Holds) :
    Keeps c c' ∧ ∀ x ∈ hs, Talk c x := by
  refine ⟨h.keeps, ?_⟩
  cases h with
  | accept => simpa using ⟨.traffic (.received _), .accepted _ hholds⟩

theorem Request.talk {r : RequestReplicationStream} (h : Request r c hs c') (hholds : c.Holds) :
    Keeps c c' ∧ ∀ x ∈ hs, Talk c x := by
  obtain ⟨hkeeps, rest, rfl, htraffic⟩ := h.traffic
  refine ⟨hkeeps, List.forall_mem_cons.2 ⟨.queued _ hholds, ?_⟩⟩
  exact fun x hx => .traffic (htraffic x hx)

theorem RequestFault.talk {r : RequestReplicationStream} {f : Failure}
    (h : RequestFault r c hs f c') (hholds : c.Holds) : Keeps c c' ∧ ∀ x ∈ hs, Talk c x := by
  obtain ⟨hkeeps, rfl | ⟨rest, rfl, htraffic⟩⟩ := h.traffic
  · exact ⟨hkeeps, by simp⟩
  · refine ⟨hkeeps, List.forall_mem_cons.2 ⟨.queued _ hholds, ?_⟩⟩
    exact fun x hx => .traffic (htraffic x hx)

/-- What a connection of a handler does as long as nothing goes wrong. -/
inductive Act : Connection → List Happening → Connection → Prop where
  | step {c c' : Connection} {hs : List Happening} : Step c hs c' → Act c hs c'
  | hear {c c' : Connection} {hs : List Happening} {event : ConnectionEvent} : c.Holds →
      Hear c hs event c' → Act c hs c'
  | request {c c' : Connection} {hs : List Happening} {r : RequestReplicationStream} : c.Holds →
      Request r c hs c' → Act c hs c'
  | offer {c c' : Connection} {hs : List Happening} {taken : Bool} : c.Holds ∨ c.Refused →
      Offer c hs taken c' → Act c hs c'

/-- What an act has to do with the socket: talk, or an offer, after which it is used no more. -/
theorem Act.view (h : Act c hs c') :
    (Keeps c c' ∧ ∀ x ∈ hs, Talk c x) ∨
    ∃ socket taken, c.socketId = some socket ∧
      hs = [.answered (.offerSocket c.peer ⟨socket, c.held⟩) taken] ∧ Same c c' ∧
      c'.socket = none ∧ c.ownedSockets = [socket] ∧
      c'.ownedSockets = if taken then [] else [socket] := by
  cases h with
  | step h =>
    obtain ⟨hkeeps, htraffic⟩ := h.traffic
    exact .inl ⟨hkeeps, fun x hx => .traffic (htraffic x hx)⟩
  | hear hholds h => exact .inl (h.talk hholds)
  | request hholds h => exact .inl (h.talk hholds)
  | @offer _ _ taken hkept h =>
    obtain ⟨socket, hid, hhs, -, -, hsame, hafter⟩ := h.spec hkept
    have hid' : c'.socketId = some socket := hsame.2.2.2.2.trans hid
    refine .inr ⟨socket, taken, hid, hhs, hsame, ?_⟩
    have howned : c.ownedSockets = [socket] := by
      rcases hkept with ⟨-, hsocket, hnone⟩ | ⟨handoff, hsame, hsocket, hsome⟩
      · simp [ownedSockets, hsocket, hid, hnone]
      · rw [hid] at hsame
        cases hsame
        simp [ownedSockets, hsocket, hsome]
    cases taken with
    | true =>
      obtain ⟨-, -, hsocket, hnone⟩ := hafter
      exact ⟨hsocket, howned, by simp [ownedSockets, hsocket, hnone]⟩
    | false =>
      obtain ⟨-, ⟨handoff, hsame, hsocket, hsome⟩, -⟩ := hafter
      rw [hid'] at hsame
      cases hsame
      exact ⟨hsocket, howned, by simp [ownedSockets, hsocket, hsome]⟩

theorem Act.writer (h : Act c hs c') : ∀ x ∈ hs, x.writer? = none := by
  obtain ⟨-, htalk⟩ | ⟨_, _, -, rfl, -⟩ := h.view
  · exact fun x hx => (htalk x hx).writer
  · simp [Happening.writer?]

theorem Act.same (h : Act c hs c') : Same c c' := by
  obtain ⟨hkeeps, -⟩ | ⟨_, _, -, -, hsame, -⟩ := h.view
  · exact hkeeps.1
  · exact hsame

/-- What a connection owned it owns still, or the multiplexer took it. -/
theorem Act.custody (h : Act c hs c') :
    openings hs = [] ∧ closedSockets hs = [] ∧
      c.ownedSockets = c'.ownedSockets ++ takenSockets hs := by
  obtain ⟨hkeeps, htalk⟩ | ⟨socket, taken, -, rfl, -, -, howned, howned'⟩ := h.view
  · have hstill : ∀ x ∈ hs, x.Still := fun x hx => (htalk x hx).still
    refine ⟨openings_of_still hstill, closedSockets_of_still hstill, ?_⟩
    rw [hkeeps.ownedSockets_eq, takenSockets_of_still hstill, List.append_nil]
  · refine ⟨rfl, rfl, ?_⟩
    rw [howned, howned']
    cases taken <;> rfl

/-- An act concerns no other socket than that of the connection. -/
theorem Act.socket (h : Act c hs c') (hsound : c.Sound) {x : Happening} (hx : x ∈ hs)
    {socket : SocketId} (hsocket : x.socket? = some socket) :
    c.socketId = some socket ∧ socket ∈ c.ownedSockets := by
  obtain ⟨-, htalk⟩ | ⟨own, taken, hid, rfl, -, -, howned, -⟩ := h.view
  · obtain ⟨hid, hown⟩ := (htalk x hx).socket hsound hsocket
    exact ⟨hid, by simp [ownedSockets, hown]⟩
  · rw [List.mem_singleton] at hx
    subst hx
    cases hsocket
    exact ⟨hid, by simp [howned]⟩

/-- What the multiplexer has taken is not owned any more. -/
theorem Sound.ownedSockets_eq_nil (hsound : c.Sound) (h : c.isTransferred) :
    c.ownedSockets = [] := by
  rw [isTransferred, decide_eq_true_eq] at h
  simp only [Sound, h] at hsound
  simp [ownedSockets, hsound.1.2.1, hsound.1.2.2]

end Connection

end ReplicaHandshake
