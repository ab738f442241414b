import ReplicaHandshake.Proofs.Connection.Bytes

/-!
# What becomes of the frames that go out

A frame that is put into the outbound buffer goes out as bytes, and in pieces.
`Flows pending hs pending'` says that by these happenings an outbound buffer comes from one
content to another: frames go in behind, and what is written goes out in front.  So what was
written is always the front of what was put in (`Flows.written_prefix`), and all of it once the
buffer is empty.

While it has not given its socket away, a connection accounts in this way for all frames that it has
put in, and its state says which ones these are (`Dispatches`).
-/

namespace ReplicaHandshake

/-- Nothing goes into an outbound buffer or out of it. -/
def Happening.IsDry (x : Happening) : Prop :=
  x.written = [] ∧ x.queued? = none

/-- By these happenings an outbound buffer comes from one content to another. -/
inductive Flows : Bytes → List Happening → Bytes → Prop where
  | done (pending : Bytes) : Flows pending [] pending
  | queues {pending pending' : Bytes} {hs : List Happening} (socket : Option SocketId) (f : Frame) :
      Flows (pending ++ f.bytes) hs pending' →
      Flows pending (.noted (.queued socket f) :: hs) pending'
  | writes {pending pending' : Bytes} {x : Happening} {hs : List Happening} :
      x.queued? = none → Flows pending hs pending' → Flows (x.written ++ pending) (x :: hs) pending'

namespace Flows

variable {pending pending' pending'' : Bytes} {hs hs' : List Happening}

theorem append (h : Flows pending hs pending') (h' : Flows pending' hs' pending'') :
    Flows pending (hs ++ hs') pending'' := by
  induction h with
  | done => exact h'
  | queues socket f _ ih => exact .queues socket f (ih h')
  | writes hx _ ih => exact .writes hx (ih h')

theorem front (h : Flows pending (hs ++ hs') pending') : ∃ between, Flows pending hs between := by
  induction hs generalizing pending with
  | nil => exact ⟨pending, .done pending⟩
  | cons x hs ih =>
    cases h with
    | queues socket f h =>
      obtain ⟨between, h⟩ := ih h
      exact ⟨between, .queues socket f h⟩
    | writes hx h =>
      obtain ⟨between, h⟩ := ih h
      exact ⟨between, .writes hx h⟩

/-- All that was in the buffer and went in is written, or is in the buffer still. -/
theorem bytes (h : Flows pending hs pending') :
    pending ++ (queuedFrames hs).flatMap Frame.bytes = writtenBytes hs ++ pending' := by
  induction h with
  | done => simp [queuedFrames, writtenBytes]
  | queues socket f _ ih =>
    simp only [queuedFrames, writtenBytes] at ih ⊢
    simpa [Happening.queued?, Happening.written] using ih
  | writes hx _ ih =>
    simp only [queuedFrames, writtenBytes] at ih ⊢
    simpa [List.filterMap_cons, hx] using ih

theorem written_prefix (h : Flows [] hs pending) :
    writtenBytes hs <+: (queuedFrames hs).flatMap Frame.bytes :=
  ⟨pending, by simpa using h.bytes.symm⟩

theorem dry {x : Happening} (hdry : x.IsDry) (h : Flows pending hs pending') :
    Flows pending (x :: hs) pending' := by
  have hflows := Flows.writes hdry.2 h
  rwa [hdry.1, List.nil_append] at hflows

theorem of_dry (hdry : ∀ x ∈ hs, x.IsDry) (pending : Bytes) : Flows pending hs pending := by
  induction hs with
  | nil => exact .done pending
  | cons x hs ih =>
    obtain ⟨hx, hrest⟩ := List.forall_mem_cons.1 hdry
    exact (ih hrest).dry hx

/-- Where all that goes in and out concerns one socket, the rest may be left out. -/
theorem about {socket : SocketId} (h : Flows pending hs pending')
    (hown : ∀ x ∈ hs, x.socket? = some socket ∨ x.IsDry) :
    Flows pending (ReplicaHandshake.about socket hs) pending' := by
  induction h with
  | done => exact .done _
  | queues id f _ ih =>
    obtain ⟨hx, hrest⟩ := List.forall_mem_cons.1 hown
    have hsocket : (Happening.noted (.queued id f)).socket? = some socket := by
      refine hx.resolve_right fun hdry => ?_
      cases hdry.2
    rw [ReplicaHandshake.about, List.filter_cons_of_pos (by simpa using hsocket)]
    exact .queues id f (ih hrest)
  | @writes _ _ x _ hqueued _ ih =>
    obtain ⟨hx, hrest⟩ := List.forall_mem_cons.1 hown
    by_cases hsocket : x.socket? = some socket
    · rw [ReplicaHandshake.about, List.filter_cons_of_pos (by simpa using hsocket)]
      exact .writes hqueued (ih hrest)
    · rw [ReplicaHandshake.about, List.filter_cons_of_neg (by simpa using hsocket),
        (hx.resolve_left hsocket).1]
      exact ih hrest

end Flows

theorem Happening.socket?_of_exchanged {x : Happening} {socket : SocketId}
    (h : x.exchanged? = some socket) : x.socket? = some socket := by
  unfold exchanged? at h
  split at h <;> first | exact h | cases h

theorem queuedFrames_of_dry {hs : List Happening} (hdry : ∀ x ∈ hs, x.IsDry) :
    queuedFrames hs = [] :=
  List.filterMap_eq_nil_iff.2 fun x hx => (hdry x hx).2

theorem queuedFrames_about {socket : SocketId} {hs : List Happening}
    (hown : ∀ x ∈ hs, x.socket? = some socket ∨ x.IsDry) :
    queuedFrames (about socket hs) = queuedFrames hs := by
  induction hs with
  | nil => rfl
  | cons x hs ih =>
    obtain ⟨hx, hrest⟩ := List.forall_mem_cons.1 hown
    have ih := ih hrest
    simp only [queuedFrames, about] at ih ⊢
    by_cases hsocket : x.socket? = some socket
    · simp [hsocket, List.filterMap_cons, ih]
    · simp [hsocket, (hx.resolve_left hsocket).2, ih]

theorem OutboundBuffer.queue_ok {b b' : OutboundBuffer} {f : Frame} (h : b.queue f = .ok b') :
    b'.pending = b.pending ++ f.bytes ∧ f.encodedLength ≤ greatestWord32 := by
  unfold queue at h
  split at h
  · cases h
  · unfold Frame.encode at h
    split at h
    next hfits =>
      cases h
      exact ⟨rfl, hfits⟩
    · cases h

namespace Connection

variable {c c' : Connection} {hs : List Happening}

/-! ### What goes out -/

theorem Write.flows (h : Write c hs c') : Flows c.outbound.pending hs c'.outbound.pending := by
  cases h with
  | @some socket answer n _ hsocket _ hanswer =>
    have hwritten : (Happening.answered (.write socket c.outbound.pending) answer).written =
        c.outbound.pending.take (n + 1) := by simp [Happening.written, hanswer]
    have hflows := Flows.writes (x := .answered (.write socket c.outbound.pending) answer) rfl
      (.done (c.outbound.pending.drop (n + 1)))
    rwa [hwritten, List.take_append_drop] at hflows
  | none _ _ hanswer =>
    exact .of_dry (by simp [Happening.IsDry, Happening.written, Happening.queued?, hanswer]) _

theorem flows_of_writes (h : Way Write c hs c') :
    Flows c.outbound.pending hs c'.outbound.pending := by
  induction h with
  | refl => exact .done _
  | tail _ hwrite ih => exact ih.append hwrite.flows

theorem Write.unqueued (h : Write c hs c') : queuedFrames hs = [] := by
  cases h <;> rfl

theorem unqueued_of_writes (h : Way Write c hs c') : queuedFrames hs = [] := by
  induction h with
  | refl => rfl
  | tail _ hwrite ih => rw [queuedFrames_append, ih, hwrite.unqueued, List.append_nil]

/-- What a connection puts into its outbound buffer in its state, and what it writes of that. -/
structure Pours (c : Connection) (hs : List Happening) (c' : Connection) : Prop where
  flows : Flows c.outbound.pending hs c'.outbound.pending
  fits : ∀ f ∈ queuedFrames hs, f.encodedLength ≤ greatestWord32
  frames : queuedFrames hs = [] ∨
    c.state = .connecting ∧ queuedFrames hs = [.requestTableInfo c.request] ∨
      c.state = .ready ∧ ∃ r, queuedFrames hs = [.requestReplicationStream r]
  own : ∀ x ∈ hs, x.socket? = c.socketId ∨ x.IsDry

theorem pours_of_dry (hdry : ∀ x ∈ hs, x.IsDry)
    (hpending : c'.outbound.pending = c.outbound.pending) : Pours c hs c' where
  flows := by
    rw [hpending]
    exact .of_dry hdry _
  fits := by simp [queuedFrames_of_dry hdry]
  frames := .inl (queuedFrames_of_dry hdry)
  own x hx := .inr (hdry x hx)

/-- Whatever traffic is not dry is by the socket of the connection. -/
theorem Traffic.own {x : Happening} (h : Traffic c x) (hsound : c.Sound) :
    x.socket? = c.socketId ∨ x.IsDry := by
  cases h with
  | write hsocket => exact .inl (hsocket.symm.trans (hsound.holds_of_socket hsocket).2.1)
  | asked => exact .inl rfl
  | _ => exact .inr ⟨rfl, rfl⟩

theorem pours_of_writes (h : Way Write c hs c') (hsound : c.Sound) : Pours c hs c' where
  flows := flows_of_writes h
  fits := by simp [unqueued_of_writes h]
  frames := .inl (unqueued_of_writes h)
  own x hx := ((traffic_of_writes h).2 x hx).own hsound

theorem Step.pours (h : Step c hs c') (hsound : c.Sound) : Pours c hs c' := by
  cases h with
  | write h => exact pours_of_writes (.single h) hsound
  | wait | block =>
    exact pours_of_dry (by simp [Happening.IsDry, Happening.written, Happening.queued?]) rfl
  | read => exact pours_of_dry (by simp [Happening.IsDry, Happening.written, Happening.queued?]) rfl
  | @ask socket answer outbound noDelay hstate hsocket hanswer hqueue =>
    have htraffic := (Step.ask noDelay hstate hsocket hanswer hqueue).traffic.2
    obtain ⟨hpending, hfits⟩ := OutboundBuffer.queue_ok hqueue
    refine ⟨?_, by simpa [queuedFrames, Happening.queued?] using hfits, .inr (.inl ⟨hstate, rfl⟩),
      fun x hx => (htraffic x hx).own hsound⟩
    show Flows c.outbound.pending _ outbound.pending
    rw [hpending]
    exact .dry ⟨rfl, rfl⟩
      (.dry ⟨rfl, rfl⟩ (.dry ⟨rfl, rfl⟩ (.queues _ _ (.dry ⟨rfl, rfl⟩ (.done _)))))

theorem Hear.dry {event : ConnectionEvent} (h : Hear c hs event c') :
    (∀ x ∈ hs, x.IsDry) ∧ c'.outbound = c.outbound := by
  cases h with
  | accept _ _ haccept =>
    refine ⟨by simp [Happening.IsDry, Happening.written, Happening.queued?], ?_⟩
    cases haccept <;> rfl

theorem pours_of_request {r : RequestReplicationStream} {outbound : OutboundBuffer}
    {rest : List Happening} (hstate : c.state = .ready)
    (hqueue : c.outbound.queue (.requestReplicationStream r) = .ok outbound)
    (hrest : Pours { c with outbound, state := .awaitingStreamStart } rest c')
    (hunqueued : queuedFrames rest = []) :
    Pours c (.noted (.queued c.socketId (.requestReplicationStream r)) ::
      .reported (.frameSent FrameKind.requestReplicationStream.name) :: rest) c' := by
  obtain ⟨hpending, hfits⟩ := OutboundBuffer.queue_ok hqueue
  have hframes : queuedFrames (.noted (.queued c.socketId (.requestReplicationStream r)) ::
      .reported (.frameSent FrameKind.requestReplicationStream.name) :: rest) =
      .requestReplicationStream r :: queuedFrames rest := rfl
  rw [hunqueued] at hframes
  refine ⟨?_, ?_, .inr (.inr ⟨hstate, r, hframes⟩), ?_⟩
  · have hflows : Flows outbound.pending rest c'.outbound.pending := hrest.flows
    rw [hpending] at hflows
    exact .queues _ _ (.dry ⟨rfl, rfl⟩ hflows)
  · simpa [hframes] using hfits
  · exact List.forall_mem_cons.2 ⟨.inl rfl, List.forall_mem_cons.2 ⟨.inr ⟨rfl, rfl⟩, hrest.own⟩⟩

theorem Request.pours {r : RequestReplicationStream} (h : Request r c hs c') (hholds : c.Holds)
    (hsound : c.Sound) : Pours c hs c' := by
  cases h with
  | ask hstate hqueue hwrites =>
    refine pours_of_request hstate hqueue ?_ (unqueued_of_writes hwrites)
    exact pours_of_writes hwrites (sound_asked hstate hholds hsound)

/-- What ends a connection puts nothing into the buffer, and writes nothing. -/
theorem Fault.dry {f : Failure} (h : Fault c hs f c') :
    (∀ x ∈ hs, x.IsDry) ∧ c'.outbound = c.outbound := by
  cases h with
  | writeNothing _ _ hanswer | write _ _ hanswer =>
    simp [Happening.IsDry, Happening.written, Happening.queued?, hanswer]
  | connect | ask | read | ended | frame | refuse =>
    simp [Happening.IsDry, Happening.written, Happening.queued?]

theorem RequestFault.pours {r : RequestReplicationStream} {f : Failure}
    (h : RequestFault r c hs f c') (hholds : c.Holds) (hsound : c.Sound) : Pours c hs c' := by
  cases h with
  | queue => exact pours_of_dry (by simp) rfl
  | write hstate hqueue hends =>
    obtain ⟨c₁, hs₁, hs₂, rfl, hwrites, hfault, -⟩ := hends
    have hfirst := pours_of_writes hwrites (sound_asked hstate hholds hsound)
    obtain ⟨hdry, houtbound⟩ := hfault.dry
    have hframes : queuedFrames (hs₁ ++ hs₂) = [] := by
      rw [queuedFrames_append, unqueued_of_writes hwrites, queuedFrames_of_dry hdry,
        List.append_nil]
    refine pours_of_request hstate hqueue ⟨?_, by simp [hframes], .inl hframes, ?_⟩ hframes
    · refine hfirst.flows.append ?_
      rw [houtbound]
      exact .of_dry hdry _
    · intro x hx
      exact (List.mem_append.1 hx).elim (hfirst.own x) fun hx => .inr (hdry x hx)

theorem Offer.dry {taken : Bool} (h : Offer c hs taken c') :
    (∀ x ∈ hs, x.IsDry) ∧ c'.outbound = c.outbound := by
  have htake : ∀ {handoff rest}, c.takeHandoff = (some handoff, rest) →
      rest.outbound = c.outbound := by
    intro handoff rest htake
    unfold takeHandoff at htake
    split at htake <;> cases htake <;> rfl
  cases h with
  | taken _ h | refused _ h =>
    exact ⟨by simp [Happening.IsDry, Happening.written, Happening.queued?], (htake h :)⟩

theorem Act.pours (h : Act c hs c') (hsound : c.Sound) : Pours c hs c' := by
  cases h with
  | step h => exact h.pours hsound
  | hear _ h => exact pours_of_dry h.dry.1 (by rw [h.dry.2])
  | request hholds h => exact h.pours hholds hsound
  | offer _ h => exact pours_of_dry h.dry.1 (by rw [h.dry.2])

/-! ### Accounts of what goes out -/

/-- What a connection has put into its outbound buffer to come to its state. -/
def HasQueued (c : Connection) (frames : List Frame) : Prop :=
  match c.state with
  | .connecting => frames = []
  | .awaitingTableInfo | .ready => frames = [.requestTableInfo c.request]
  | .awaitingStreamStart | .streamStarted =>
    ∃ r, frames = [.requestTableInfo c.request, .requestReplicationStream r]
  | .disconnected | .transferred | .closed => True

/-- The history of a connection and its outbound buffer account for all frames that were put in. -/
structure Dispatches (c : Connection) (hs : List Happening) : Prop where
  flows : Flows [] hs c.outbound.pending
  fits : ∀ f ∈ queuedFrames hs, f.encodedLength ≤ greatestWord32
  queued : c.HasQueued (queuedFrames hs)

theorem Same.request_eq (h : Same c c') : c'.request = c.request := by
  obtain ⟨-, hinstance, hpeer, hname, -⟩ := h
  simp [request, hinstance, hpeer, hname]

theorem HasQueued.congr {frames : List Frame} (h : c.HasQueued frames) (hstate : c'.state = c.state)
    (hsame : Same c c') : c'.HasQueued frames := by
  unfold HasQueued
  rw [hstate, hsame.request_eq]
  exact h

theorem Step.hasQueued {frames : List Frame} (h : Step c hs c') (hqueued : c.HasQueued frames) :
    c'.HasQueued (frames ++ queuedFrames hs) := by
  have hsame := h.same
  cases h with
  | write h =>
    rw [h.unqueued, List.append_nil]
    exact hqueued.congr (keeps_of_writes (.single h)).1 hsame
  | wait | read | block =>
    have hkept := hqueued.congr rfl hsame
    rwa [← List.append_nil frames] at hkept
  | ask _ hstate =>
    simp only [HasQueued, hstate] at hqueued
    subst hqueued
    rfl

theorem Hear.hasQueued {event : ConnectionEvent} {frames : List Frame} (h : Hear c hs event c')
    (hqueued : c.HasQueued frames) : c'.HasQueued (frames ++ queuedFrames hs) := by
  rw [queuedFrames_of_dry h.dry.1, List.append_nil]
  cases h with
  | accept _ _ haccept =>
    cases haccept with
    | tableInfo _ hstate | streamStart hstate =>
      simp only at hstate
      simp only [HasQueued, hstate] at hqueued
      exact hqueued

theorem Request.hasQueued {r : RequestReplicationStream} {frames : List Frame}
    (h : Request r c hs c') (hqueued : c.HasQueued frames) :
    c'.HasQueued (frames ++ queuedFrames hs) := by
  have hrequest := h.same.request_eq
  have hstate' := h.keeps.1
  cases h with
  | @ask _ outbound rest hstate _ hwrites =>
    have hframes : queuedFrames (.noted (.queued c.socketId (.requestReplicationStream r)) ::
        .reported (.frameSent FrameKind.requestReplicationStream.name) :: rest) =
        .requestReplicationStream r :: queuedFrames rest := rfl
    simp only [HasQueued, hstate] at hqueued
    simp only [HasQueued, hstate', hframes, unqueued_of_writes hwrites, hqueued, hrequest]
    exact ⟨r, rfl⟩

theorem Offer.hasQueued {taken : Bool} {frames : List Frame} (h : Offer c hs taken c')
    (hkept : c.Holds ∨ c.Refused) (hqueued : c.HasQueued frames) :
    c'.HasQueued (frames ++ queuedFrames hs) := by
  rw [queuedFrames_of_dry h.dry.1, List.append_nil]
  obtain ⟨_, -, -, -, -, hsame, hafter⟩ := h.spec hkept
  cases taken with
  | true => simp only [HasQueued, hafter.1]
  | false => exact hqueued.congr hafter.1 hsame

theorem Act.hasQueued {frames : List Frame} (h : Act c hs c') (hqueued : c.HasQueued frames) :
    c'.HasQueued (frames ++ queuedFrames hs) := by
  cases h with
  | step h => exact h.hasQueued hqueued
  | hear _ h => exact h.hasQueued hqueued
  | request _ h => exact h.hasQueued hqueued
  | offer hkept h => exact h.hasQueued hkept hqueued

/-- Every act keeps the account; only what concerns the socket of the connection matters for it. -/
theorem Act.dispatches {past : List Happening} {socket : SocketId} (h : Act c hs c')
    (hsound : c.Sound) (hid : c.socketId = some socket) (hpast : c.Dispatches past) :
    c'.Dispatches (past ++ about socket hs) := by
  have hpours := h.pours hsound
  have hown : ∀ x ∈ hs, x.socket? = some socket ∨ x.IsDry := by
    rw [← hid]
    exact hpours.own
  have hframes : queuedFrames (about socket hs) = queuedFrames hs := queuedFrames_about hown
  refine ⟨hpast.flows.append (hpours.flows.about hown), ?_, ?_⟩
  · rw [queuedFrames_append, hframes]
    exact fun f hf => (List.mem_append.1 hf).elim (hpast.fits f) (hpours.fits f)
  · rw [queuedFrames_append, hframes]
    exact h.hasQueued hpast.queued

/-! ### Before a socket is read or written -/

/-- The socket has said that it is connected. -/
def HasConnected (socket : SocketId) (past : List Happening) : Prop :=
  ∃ answer, .answered (.pollConnect socket) answer ∈ past ∧ isConnected answer = .ok true

theorem HasConnected.mono {socket : SocketId} {past past' : List Happening}
    (h : HasConnected socket past) (hsub : ∀ x ∈ past, x ∈ past') : HasConnected socket past' := by
  obtain ⟨answer, hmem, hanswer⟩ := h
  exact ⟨answer, hsub _ hmem, hanswer⟩

/-- A connection that has asked its master has a socket that is connected. -/
def IsReached (past : List Happening) (c : Connection) : Prop :=
  ∀ socket, c.socket = some socket → c.hasRequestedTableInfo → HasConnected socket past

/-- Whatever happenings of a connection read or write do so on its socket, after its
master was asked. -/
def Exchanges (c : Connection) (hs : List Happening) : Prop :=
  ∀ x ∈ hs, ∀ socket, x.exchanged? = some socket → c.socket = some socket ∧ c.hasRequestedTableInfo

theorem exchanges_of_none (hnone : ∀ x ∈ hs, x.exchanged? = none) : c.Exchanges hs := by
  intro x hx socket hsocket
  simp [hnone x hx] at hsocket

theorem hasRequestedTableInfo_congr (h : c'.state = c.state) :
    c'.hasRequestedTableInfo = c.hasRequestedTableInfo := by
  simp only [hasRequestedTableInfo, h]

theorem exchanges_of_writes (h : Way Write c hs c') : c.Exchanges hs := by
  induction h with
  | refl => exact exchanges_of_none (by simp)
  | tail hway hwrite ih =>
    have hsocket := (traffic_of_writes hway).1.2.1
    have hopen := hasRequestedTableInfo_congr (keeps_of_writes hway).1
    intro x hx own hown
    rcases List.mem_append.1 hx with hx | hx
    · exact ih x hx own hown
    rw [← hsocket, ← hopen]
    cases hwrite with
    | some hsocket hopen | none hsocket hopen =>
      rw [List.mem_singleton] at hx
      subst hx
      cases hown
      exact ⟨hsocket, hopen⟩

theorem Step.exchanges (h : Step c hs c') : c.Exchanges hs := by
  cases h with
  | write h => exact exchanges_of_writes (.single h)
  | wait | ask => exact exchanges_of_none (by simp [Happening.exchanged?])
  | read hsocket hopen | block hsocket hopen =>
    simpa [Exchanges, Happening.exchanged?] using ⟨hsocket, hopen⟩

theorem Fault.exchanges {f : Failure} (h : Fault c hs f c') : c.Exchanges hs := by
  cases h with
  | connect | ask | frame | refuse => exact exchanges_of_none (by simp [Happening.exchanged?])
  | writeNothing hsocket hopen | write hsocket hopen | read hsocket hopen | ended hsocket hopen =>
    simpa [Exchanges, Happening.exchanged?] using ⟨hsocket, hopen⟩

theorem Request.exchanges {r : RequestReplicationStream} (h : Request r c hs c') :
    c.Exchanges hs := by
  cases h with
  | ask hstate _ hwrites =>
    have hopen : c.hasRequestedTableInfo := by simp [hasRequestedTableInfo, hstate]
    intro x hx socket hsocket
    simp only [List.mem_cons] at hx
    rcases hx with rfl | rfl | hx
    · cases hsocket
    · cases hsocket
    · exact ⟨(exchanges_of_writes hwrites x hx socket hsocket).1, hopen⟩

theorem RequestFault.exchanges {r : RequestReplicationStream} {f : Failure}
    (h : RequestFault r c hs f c') : c.Exchanges hs := by
  cases h with
  | queue => exact exchanges_of_none (by simp)
  | write hstate _ hends =>
    obtain ⟨c₁, hs₁, hs₂, rfl, hwrites, hfault, -⟩ := hends
    have hopen : c.hasRequestedTableInfo := by simp [hasRequestedTableInfo, hstate]
    intro x hx socket hsocket
    simp only [List.mem_cons, List.mem_append] at hx
    rcases hx with rfl | rfl | hx | hx
    · cases hsocket
    · cases hsocket
    · exact ⟨(exchanges_of_writes hwrites x hx socket hsocket).1, hopen⟩
    · have hown := (hfault.exchanges x hx socket hsocket).1
      rw [(traffic_of_writes hwrites).1.2.1] at hown
      exact ⟨hown, hopen⟩

theorem Act.exchanges (h : Act c hs c') : c.Exchanges hs := by
  cases h with
  | step h => exact h.exchanges
  | hear _ h =>
    cases h with
    | accept => exact exchanges_of_none (by simp [Happening.exchanged?])
  | request _ h => exact h.exchanges
  | offer _ h => cases h <;> exact exchanges_of_none (by simp [Happening.exchanged?])

/-- Before a connection asks its master, its socket has said that it is connected. -/
theorem Act.isReached {past : List Happening} (h : Act c hs c') (hpast : c.IsReached past) :
    c'.IsReached (past ++ hs) := by
  have hkept : c'.socket = c.socket → c'.hasRequestedTableInfo = c.hasRequestedTableInfo →
      c'.IsReached (past ++ hs) := by
    intro hsocket hopen socket hown
    rw [hsocket] at hown
    rw [hopen]
    exact fun hopen => (hpast socket hown hopen).mono fun x hx => List.mem_append_left hs hx
  cases h with
  | step h =>
    have hsocket := h.traffic.1.2.1
    cases h with
    | write h => exact hkept hsocket (hasRequestedTableInfo_congr (keeps_of_writes (.single h)).1)
    | wait | read | block => exact hkept hsocket rfl
    | ask _ _ hown hanswer =>
      intro socket hsame _
      rw [hsocket, hown] at hsame
      cases hsame
      exact ⟨_, List.mem_append_right _ List.mem_cons_self, hanswer⟩
  | hear _ h =>
    refine hkept h.keeps.2.1 ?_
    cases h with
    | accept hopen _ haccept =>
      rw [hopen]
      cases haccept <;> rfl
  | request _ h =>
    refine hkept h.traffic.1.2.1 ?_
    have hstate' := h.keeps.1
    cases h with
    | ask hstate => simp only [hasRequestedTableInfo, hstate, hstate']
  | @offer _ _ taken hoffers h =>
    obtain ⟨_, -, -, -, -, -, hafter⟩ := h.spec hoffers
    have hgone : c'.socket = none := by
      cases taken with
      | true => exact hafter.2.2.1
      | false =>
        obtain ⟨-, ⟨_, -, hgone, -⟩, -⟩ := hafter
        exact hgone
    intro socket hown
    rw [hgone] at hown
    cases hown

end Connection

end ReplicaHandshake
