import ReplicaHandshake.Proofs.Handler.Exchanges

/-!
# What goes out by the sockets of a handler

What was written by a socket is at every moment the front of what went into its outbound buffer,
and that is the question for the table, and by the first socket then the request for the data
stream (`Life.sends`).  When the socket is offered, all of it has been written
(`Life.offersEmptied`).  So what is to go out and what has gone out are known to the byte
(`Life.written_prefix`, `Life.written_of_offer`).
-/

namespace ReplicaHandshake

namespace Handler

variable {h h' : Handler} {past hs : List Happening} {table : TableSettings}

/-! ### What goes out by a socket -/

/-- The question of a handler to the masters of its table. -/
def question (instanceId : InstanceId) (peer : PeerId) (table : TableSettings) :
    RequestTableInfo where
  protocolVersion := protocolVersion
  instanceId := instanceId
  peerId := peer.number.toUInt64
  tableName := table.tableName

theorem Life.request_eq (hlife : Life table past h) {c : Connection} (hc : c ∈ h.connections) :
    c.request = question c.instanceId h.peer table := by
  obtain ⟨hpeer, hname⟩ := hlife.sound.same c hc
  unfold Connection.request question
  rw [hpeer, hname, hlife.tableName]

theorem Connection.IsOpened.dispatches {c : Connection} (hopened : c.IsOpened)
    (hoverture : ∀ x ∈ hs, Overture x) : c.Dispatches hs := by
  have hdry : ∀ x ∈ hs, x.IsDry := fun x hx => (hoverture x hx).isAside.1
  refine ⟨?_, by simp [queuedFrames_of_dry hdry], ?_⟩
  · rw [hopened.pending]
    exact .of_dry hdry []
  · simp only [Connection.HasQueued, hopened.state, queuedFrames_of_dry hdry]

theorem Life.dispatches (hlife : Life table past h) :
    (openedSockets past).Nodup → h.AtWork → EachHas Connection.Dispatches past h :=
  hlife.eachHas (fun hopened hoverture => Connection.IsOpened.dispatches hopened hoverture)
    fun hact hsound _ hid hpast => hact.dispatches hsound hid hpast

theorem mem_queuedFrames {f : Frame} (hf : f ∈ queuedFrames hs) :
    ∃ socket, .noted (.queued socket f) ∈ hs := by
  obtain ⟨x, hx, hqueued⟩ := List.mem_filterMap.1 hf
  unfold Happening.queued? at hqueued
  split at hqueued
  · cases hqueued
    exact ⟨_, hx⟩
  · cases hqueued

theorem mem_queuedFrames_about {f : Frame} {socket : SocketId}
    (hf : f ∈ queuedFrames (about socket hs)) : .noted (.queued (some socket) f) ∈ hs := by
  obtain ⟨own, hx⟩ := mem_queuedFrames hf
  obtain ⟨hx, hsocket⟩ := List.mem_filter.1 hx
  obtain rfl : own = some socket := of_decide_eq_true hsocket
  exact hx

theorem head_of_request (hasks : Along (AsksAgreed table) [] past) {socket : SocketId}
    {r : RequestReplicationStream}
    (hasked : .noted (.queued (some socket) (.requestReplicationStream r)) ∈ past) :
    (openedSockets past).head? = some socket := by
  obtain ⟨before, after, rfl⟩ := List.append_of_mem hasked
  obtain ⟨-, -, hhead, -⟩ := hasks.split _ _ rfl
  rw [openedSockets_append, List.head?_append, ← hhead]
  rfl

/-- What goes out by a socket: the question for the table, and by the first socket then the request
for the data stream. -/
structure Sends (table : TableSettings) (peer : PeerId) (past : List Happening)
    (socket : SocketId) :
    Prop where
  flows : ∃ pending, Flows [] (about socket past) pending
  fits : ∀ f ∈ queuedFrames (about socket past), f.encodedLength ≤ greatestWord32
  frames : queuedFrames (about socket past) = [] ∨ ∃ instanceId,
    queuedFrames (about socket past) = [.requestTableInfo (question instanceId peer table)] ∨
      (openedSockets past).head? = some socket ∧ ∃ r, queuedFrames (about socket past) =
        [.requestTableInfo (question instanceId peer table), .requestReplicationStream r]

theorem sends_of_dry {peer : PeerId} {socket : SocketId} (hdry : ∀ x ∈ hs, x.IsDry) :
    Sends table peer hs socket := by
  have habout : ∀ x ∈ about socket hs, x.IsDry := fun x hx => hdry x (List.mem_filter.1 hx).1
  exact ⟨⟨[], .of_dry habout []⟩, by simp [queuedFrames_of_dry habout],
    .inl (queuedFrames_of_dry habout)⟩

theorem Sends.dry {peer : PeerId} {socket : SocketId} (h : Sends table peer past socket)
    (hopened : openedSockets (past ++ hs) = openedSockets past)
    (hdry : ∀ x ∈ about socket hs, x.IsDry) : Sends table peer (past ++ hs) socket := by
  have hframes : queuedFrames (about socket (past ++ hs)) = queuedFrames (about socket past) := by
    rw [about_append, queuedFrames_append, queuedFrames_of_dry hdry, List.append_nil]
  obtain ⟨pending, hflows⟩ := h.flows
  refine ⟨⟨pending, ?_⟩, ?_, ?_⟩
  · rw [about_append]
    exact hflows.append (.of_dry hdry pending)
  · rw [hframes]
    exact h.fits
  · rw [hframes, hopened]
    exact h.frames

theorem Life.sends_pours {c c' : Connection} {socket : SocketId} (hlife : Life table past h)
    (hlife' : Life table (past ++ hs) h') (hc : c ∈ h.connections) (hid : c.socketId = some socket)
    (hdispatches : c.Dispatches (about socket past)) (hpours : c.Pours hs c')
    (hpast : Sends table h.peer past socket)
    (hopened : openedSockets (past ++ hs) = openedSockets past) :
    Sends table h.peer (past ++ hs) socket := by
  have hown : ∀ x ∈ hs, x.socket? = some socket ∨ x.IsDry := by
    rw [← hid]
    exact hpours.own
  have hframes : queuedFrames (about socket (past ++ hs)) =
      queuedFrames (about socket past) ++ queuedFrames hs := by
    rw [about_append, queuedFrames_append, queuedFrames_about hown]
  have hrequest := hlife.request_eq hc
  refine ⟨⟨c'.outbound.pending, ?_⟩, ?_, ?_⟩
  · rw [about_append]
    exact hdispatches.flows.append (hpours.flows.about hown)
  · rw [hframes]
    exact fun f hf => (List.mem_append.1 hf).elim (hdispatches.fits f) (hpours.fits f)
  · have hqueued := hdispatches.queued
    obtain hnone | ⟨hstate, hasked⟩ | ⟨hstate, r, hasked⟩ := hpours.frames
    · rw [hframes, hnone, List.append_nil, hopened]
      exact hpast.frames
    · simp only [Connection.HasQueued, hstate] at hqueued
      refine .inr ⟨c.instanceId, .inl ?_⟩
      rw [hframes, hqueued, hasked, hrequest, List.nil_append]
    · simp only [Connection.HasQueued, hstate] at hqueued
      rw [hqueued, hasked, hrequest] at hframes
      refine .inr ⟨c.instanceId, .inr ⟨?_, r, hframes⟩⟩
      apply head_of_request hlife'.asks (r := r)
      apply mem_queuedFrames_about
      rw [hframes]
      simp

theorem Sound.atWork_of_free (hsound : h.Sound) {c : Connection} (hc : c ∈ h.connections)
    (hfree : c.isTransferred = false) : h.AtWork := by
  intro hover
  have htaken := (hsound.isOver hover).connections c hc
  rw [hfree] at htaken
  cases htaken

/-- All its life a handler sends by every socket what is to be sent. -/
theorem Life.sends (hlife : Life table past h) :
    (openedSockets past).Nodup → ∀ socket, Sends table h.peer past socket := by
  induction hlife with
  | begins _ hbegins => exact fun _ socket => sends_of_dry fun x hx => (hbegins.isAside x hx).1
  | @turns past hs h h' hlife hturn ih =>
    intro hnodup socket
    have hopened := hturn.openedSockets_eq hlife.sound past
    rw [hopened] at hnodup
    rw [hturn.name.1]
    have hpast := ih hnodup socket
    obtain hdry | ⟨c, hc, hfree, c', hpours⟩ := (hturn.does hlife.sound).pours hlife.sound
    · exact hpast.dry hopened fun x hx => hdry x (List.mem_filter.1 hx).1
    by_cases hid : c.socketId = some socket
    · have hwork := hlife.sound.atWork_of_free hc hfree
      exact hlife.sends_pours (hlife.turns hturn) hc hid
        (hlife.dispatches hnodup hwork c hc hfree socket hid) hpours hpast hopened
    · apply hpast.dry hopened
      intro x hx
      obtain ⟨hx, hsocket⟩ := List.mem_filter.1 hx
      obtain hown | hdry := hpours.own x hx
      · exact absurd (hown.symm.trans (of_decide_eq_true hsocket)) hid
      · exact hdry

/-! ### When a socket is offered -/

/-- All that goes out by a socket was written. -/
structure Emptied (table : TableSettings) (peer : PeerId) (past : List Happening)
    (socket : SocketId) :
    Prop where
  flows : Flows [] (about socket past) []
  frames : ∃ instanceId, if (openedSockets past).head? = some socket then
      ∃ r, queuedFrames (about socket past) =
        [.requestTableInfo (question instanceId peer table), .requestReplicationStream r]
    else queuedFrames (about socket past) = [.requestTableInfo (question instanceId peer table)]

/-- What is offered was emptied. -/
def OffersEmptied (table : TableSettings) (peer : PeerId) (past : List Happening) (x : Happening) :
    Prop :=
  ∀ socket, x.offered? = some socket → Emptied table peer past socket

theorem Hands.emptied {given left : List Connection} {c : Connection} {socket : SocketId}
    (hlife : Life table past h) (hnodup : (openedSockets past).Nodup)
    (hhands : h.Hands given c left) (hid : c.socketId = some socket)
    (hpending : c.outbound.pending = []) : Emptied table h.peer past socket := by
  have hc := mem_of_split hhands.2.2.1
  have hdispatches := hlife.dispatches hnodup hhands.atWork c hc hhands.2.2.2.2 socket hid
  obtain ⟨hflows, -, hqueued⟩ := hdispatches
  rw [hpending] at hflows
  refine ⟨hflows, c.instanceId, ?_⟩
  obtain ⟨first, rest, hsplit, hfirst, hrest⟩ := (hlife.sound.handsOver hhands.1).states
  have hnot : c.state ≠ .transferred := by simpa [Connection.isTransferred] using hhands.2.2.2.2
  rw [hhands.2.2.1] at hsplit
  simp only [hlife.head_iff hnodup hhands hid, ← hlife.request_eq hc]
  cases given with
  | nil =>
    obtain ⟨rfl, rfl⟩ := List.cons.inj hsplit
    rw [if_pos rfl]
    simpa only [Connection.HasQueued, hfirst.resolve_right hnot] using hqueued
  | cons g given =>
    obtain ⟨rfl, rfl⟩ := List.cons.inj hsplit
    have hstate := (hrest c (by simp)).resolve_right hnot
    rw [if_neg (by simp)]
    simpa only [Connection.HasQueued, hstate] using hqueued

theorem offersEmptied_of_unoffered {peer : PeerId} (h : ∀ x ∈ hs, x.offered? = none) :
    Along (OffersEmptied table peer) past hs := by
  apply along_of_forall
  intro x hx past socket hsocket
  rw [h x hx] at hsocket
  cases hsocket

theorem Happening.offered?_of_isOffer {x : Happening} (h : x.isOffer = false) :
    x.offered? = none := by
  unfold Happening.offered?
  split
  · cases h
  · rfl

/-- All its life a handler offers only sockets that it has emptied. -/
theorem Life.offersEmptied (hlife : Life table past h) :
    (openedSockets past).Nodup → Along (OffersEmptied table h.peer) [] past := by
  refine hlife.invariant ?_ ?_ ?_
  · intro hs h hopened _
    exact offersEmptied_of_unoffered fun x hx => (hopened.overture x hx).sockets.2.1
  · intro hs h hrefused _
    obtain ⟨front, back, rfl, hfront, hcloses, -⟩ := hrefused.happenings
    apply offersEmptied_of_unoffered
    intro x hx
    rcases List.mem_append.1 hx with hx | hx
    · exact (hfront x hx).sockets.2.1
    · exact (hcloses.none_else x hx).2.1
  · intro past h hs h' hlife ih hturn hnodup
    rw [hturn.openedSockets_eq hlife.sound] at hnodup
    rw [hturn.name.1]
    refine along_append.2 ⟨ih hnodup, ?_⟩
    rw [List.nil_append]
    obtain hnone | ⟨-, ⟨_, _, back, -, -, -, rfl, hback⟩ |
      ⟨given, c, left, handoff, taken, back, hhands, hid, -, hpending, rfl, hback, -⟩⟩ :=
      hturn.offers hlife.sound
    · exact offersEmptied_of_unoffered fun x hx => Happening.offered?_of_isOffer (hnone x hx)
    · refine ⟨?_, ?_⟩
      · rintro socket ⟨⟩
      exact offersEmptied_of_unoffered fun x hx => Happening.offered?_of_isOffer (hback x hx)
    · refine ⟨fun socket hsocket => ?_, ?_⟩
      · cases hsocket
        exact hhands.emptied hlife hnodup hid hpending
      · exact offersEmptied_of_unoffered fun x hx => Happening.offered?_of_isOffer (hback x hx)

/-! ### Who asks -/

end Handler

/-- A question for a table is asked under this identity. -/
def Happening.Presents (id : InstanceId) (x : Happening) : Prop :=
  ∀ q, x.queued? = some (.requestTableInfo q) → q.instanceId = id

theorem Happening.IsDry.presents {x : Happening} (hdry : x.IsDry) (id : InstanceId) :
    x.Presents id := by
  intro q hq
  rw [hdry.2] at hq
  cases hq

namespace Handler

section Look

variable {α : Type} {look : Connection → α} {a : α}

/-- In what no act of a connection changes, the connections of a handler at work stay alike. -/
theorem View.all_look (hview : View h hs h')
    (hact : ∀ {c c' : Connection} {hs : List Happening}, Connection.Act c hs c' → look c' = look c)
    (hall : h.AtWork → ∀ c ∈ h.connections, look c = a) :
    h'.AtWork → ∀ c ∈ h'.connections, look c = a := by
  intro hwork' d hd
  cases hview with
  | acts hwork _ hconnections hconnections' hdid _ =>
    have hall := hall hwork
    rw [hconnections, List.forall_mem_append, List.forall_mem_cons] at hall
    obtain ⟨hbefore, hc, hafter⟩ := hall
    rw [hconnections', List.mem_append, List.mem_cons] at hd
    obtain hd | rfl | hd := hd
    · exact hbefore d hd
    · exact (hact hdid).trans hc
    · exact hafter d hd
  | goesOn hwork _ hconnections => exact hall hwork d (hconnections ▸ hd)
  | ends _ hover | rests _ hover => exact absurd hwork' hover

theorem Opens.all_look {cs cs' : List Connection} {f : Option Failure} (hopens : Opens cs hs f cs')
    (hopened : ∀ c socket, look (Connection.opened c socket) = look c)
    (hall : ∀ c ∈ cs, look c = a) :
    ∀ c ∈ cs', look c = a := by
  induction hopens with
  | done => exact hall
  | opened socket _ ih =>
    obtain ⟨hc, hrest⟩ := List.forall_mem_cons.1 hall
    exact List.forall_mem_cons.2 ⟨(hopened _ socket).trans hc, ih hrest⟩
  | refused => exact hall

theorem Begins.all_look (hbegins : Begins h hs h')
    (hopened : ∀ c socket, look (Connection.opened c socket) = look c)
    (hall : ∀ c ∈ h.connections, look c = a) :
    h'.AtWork → ∀ c ∈ h'.connections, look c = a := by
  intro hwork
  cases hbegins with
  | opens hopens => exact hopens.all_look hopened hall
  | fails => exact absurd hwork (not_atWork_stopping rfl)

end Look

/-- While a handler is at work, all its connections have this identity to present. -/
def HasIdentity (id : InstanceId) (h : Handler) : Prop :=
  h.AtWork → ∀ c ∈ h.connections, c.instanceId = id

theorem View.hasIdentity {id : InstanceId} (hview : View h hs h') (hid : h.HasIdentity id) :
    h'.HasIdentity id :=
  hview.all_look (fun hact => hact.same.2.1) hid

/-- A handler keeps the identity of its connections, and asks under it. -/
theorem Turn.presents {id : InstanceId} (hturn : Turn h hs h') (hsound : h.Sound)
    (hid : h.HasIdentity id) : h'.HasIdentity id ∧ ∀ x ∈ hs, x.Presents id := by
  refine ⟨(hturn.view hsound).hasIdentity hid, fun x hx q hq => ?_⟩
  obtain hdry | ⟨c, hc, hfree, c', hpours⟩ := (hturn.does hsound).pours hsound
  · exact (hdry x hx).presents id q hq
  have hmem : .requestTableInfo q ∈ queuedFrames hs := List.mem_filterMap.2 ⟨x, hx, hq⟩
  obtain hnone | ⟨-, hasked⟩ | ⟨-, r, hasked⟩ := hpours.frames
  · rw [hnone] at hmem
    cases hmem
  · have hwork := hsound.atWork_of_free hc hfree
    rw [hasked, List.mem_singleton] at hmem
    cases hmem
    exact hid hwork c hc
  · rw [hasked, List.mem_singleton] at hmem
    cases hmem

theorem Begins.presents {id : InstanceId} {peer : PeerId} {frameBuffer : Nat} {timeout : Duration}
    {now : Instant} (hbegins : Begins (new id peer table frameBuffer timeout now) hs h) :
    h.HasIdentity id ∧ ∀ x ∈ hs, x.Presents id := by
  have hnew : ∀ c ∈ (new id peer table frameBuffer timeout now).connections, c.instanceId = id := by
    intro c hc
    obtain ⟨_, -, rfl⟩ := List.mem_map.1 hc
    rfl
  exact ⟨hbegins.all_look (fun _ _ => rfl) hnew, fun x hx => (hbegins.isAside x hx).1.presents id⟩

/-! ### What is to go out -/

end Handler

/-- The bytes of frames, one behind the other. -/
def encodeAll (frames : List Frame) : Except FrameError Bytes :=
  frames.foldlM (fun dst f => f.encode dst) []

theorem encodeAll_of_fits {frames : List Frame}
    (hfits : ∀ f ∈ frames, f.encodedLength ≤ greatestWord32) :
    encodeAll frames = .ok (frames.flatMap Frame.bytes) := by
  have hfold : ∀ (dst : Bytes), frames.foldlM (fun dst f => f.encode dst) dst =
      .ok (dst ++ frames.flatMap Frame.bytes) := by
    induction frames with
    | nil => simp [pure, Except.pure]
    | cons f rest ih =>
      obtain ⟨hf, hrest⟩ := List.forall_mem_cons.1 hfits
      intro dst
      have hencode : f.encode dst = .ok (dst ++ f.bytes) := if_pos hf
      rw [List.foldlM_cons, hencode]
      show rest.foldlM (fun dst f => f.encode dst) (dst ++ f.bytes) = _
      rw [ih hrest, List.flatMap_cons, List.append_assoc]
  exact hfold []

namespace Handler

/-- What is to go out by a socket so far: the question for the table, and by the first socket what
was asked of the data stream. -/
def outgoing (instanceId : InstanceId) (table : TableSettings) (peer : PeerId)
    (past : List Happening) (socket : SocketId) : List Frame :=
  .requestTableInfo (question instanceId peer table) ::
    if (openedSockets past).head? = some socket then
      (requests past).map .requestReplicationStream
    else []

theorem mem_requests_of_queued {socket : Option SocketId} {r : RequestReplicationStream}
    (hasked : .noted (.queued socket (.requestReplicationStream r)) ∈ past) : r ∈ requests past :=
  List.mem_filterMap.2 ⟨_, hasked, rfl⟩

/-- What was put into the buffer of a socket by some moment is the front of what is to
go out by it. -/
theorem Life.queued_prefix {front back : List Happening} {id : InstanceId}
    (hlife : Life table (front ++ back) h) (hnodup : (openedSockets (front ++ back)).Nodup)
    (hid : ∀ x ∈ front ++ back, x.Presents id) (socket : SocketId) :
    queuedFrames (about socket front) <+: outgoing id table h.peer front socket := by
  have hasks := (along_append.1 hlife.asks).1
  have hframes := (hlife.sends hnodup socket).frames
  have hpresents : ∀ q, .requestTableInfo q ∈ queuedFrames (about socket (front ++ back)) →
      q.instanceId = id := by
    intro q hq
    exact hid _ (mem_queuedFrames_about hq) q rfl
  generalize hall : queuedFrames (about socket (front ++ back)) = frames at hframes hpresents
  rw [about_append, queuedFrames_append] at hall
  have hlead : queuedFrames (about socket front) <+: frames := ⟨_, hall⟩
  obtain rfl | ⟨id', rfl | ⟨-, r, rfl⟩⟩ := hframes
  · rw [List.prefix_nil.1 hlead]
    exact List.nil_prefix
  · obtain rfl : id' = id := hpresents _ List.mem_cons_self
    exact hlead.trans (List.prefix_append _ _)
  · obtain rfl : id' = id := hpresents _ List.mem_cons_self
    have hlead' : queuedFrames (about socket front) <+:
        [.requestTableInfo (question id' h.peer table)] ++ [.requestReplicationStream r] := hlead
    obtain heq | hquestion := List.prefix_concat_iff.1 hlead'
    · have hasked : .requestReplicationStream r ∈ queuedFrames (about socket front) := by
        rw [heq]
        simp
      have hnoted := mem_queuedFrames_about hasked
      have hmem := mem_requests_of_queued hnoted
      have hle := requests_of_along hasks (Nat.zero_le 1)
      rw [List.nil_append] at hle
      obtain ⟨r', hrequests⟩ :=
        List.length_eq_one_iff.1 (Nat.le_antisymm hle (List.length_pos_of_mem hmem))
      rw [hrequests, List.mem_singleton] at hmem
      subst hmem
      rw [heq, outgoing, if_pos (head_of_request hasks hnoted), hrequests]
      exact List.prefix_refl _
    · exact hquestion.trans (List.prefix_append _ _)

theorem Life.outgoing_fits {front back : List Happening} {id : InstanceId}
    (hlife : Life table (front ++ back) h) (hnodup : (openedSockets (front ++ back)).Nodup)
    (hid : ∀ x ∈ front ++ back, x.Presents id) {socket : SocketId}
    (hsome : queuedFrames (about socket front) ≠ []) :
    ∀ f ∈ outgoing id table h.peer front socket, f.encodedLength ≤ greatestWord32 := by
  obtain ⟨rest, hlead⟩ := hlife.queued_prefix hnodup hid socket
  have hfits := (hlife.sends hnodup socket).fits
  rw [about_append, queuedFrames_append] at hfits
  intro f hf
  rw [outgoing, List.mem_cons] at hf
  obtain rfl | hf := hf
  · apply hfits
    obtain ⟨g, gs, hqueued⟩ := List.exists_cons_of_ne_nil hsome
    rw [hqueued, outgoing, List.cons_append] at hlead
    obtain ⟨rfl, -⟩ := List.cons.inj hlead
    rw [hqueued]
    simp
  · split at hf
    · obtain ⟨r, -, rfl⟩ := List.mem_map.1 hf
      show headerLength + 20 ≤ greatestWord32
      decide
    · cases hf

/-- At every moment what was written to a socket is the front of what is to go out by it. -/
theorem Life.written_prefix {front back : List Happening} {id : InstanceId}
    (hlife : Life table (front ++ back) h) (hnodup : (openedSockets (front ++ back)).Nodup)
    (hid : ∀ x ∈ front ++ back, x.Presents id) (socket : SocketId) :
    writtenBytes (about socket front) = [] ∨
      ∃ bytes, encodeAll (outgoing id table h.peer front socket) = .ok bytes ∧
        writtenBytes (about socket front) <+: bytes := by
  obtain ⟨pending, hflows⟩ := (hlife.sends hnodup socket).flows
  rw [about_append] at hflows
  obtain ⟨between, hflows⟩ := hflows.front
  have hwritten := hflows.written_prefix
  obtain ⟨rest, hlead⟩ := hlife.queued_prefix hnodup hid socket
  by_cases hnone : queuedFrames (about socket front) = []
  · rw [hnone] at hwritten
    exact .inl (List.prefix_nil.1 hwritten)
  · refine .inr ⟨_, encodeAll_of_fits (hlife.outgoing_fits hnodup hid hnone), ?_⟩
    rw [← hlead, List.flatMap_append]
    exact hwritten.trans (List.prefix_append _ _)

/-- When a socket is offered, all that is to go out by it was written; by the first one that
includes the request for the data stream. -/
theorem Life.written_of_offer {front back : List Happening} {x : Happening} {id : InstanceId}
    (hlife : Life table (front ++ x :: back) h)
    (hnodup : (openedSockets (front ++ x :: back)).Nodup)
    (hid : ∀ y ∈ front ++ x :: back, y.Presents id) {socket : SocketId}
    (hoffered : x.offered? = some socket) :
    encodeAll (outgoing id table h.peer front socket) = .ok (writtenBytes (about socket front)) ∧
      ((openedSockets front).head? = some socket → (requests front).length = 1) := by
  obtain ⟨hflows, id', hframes⟩ := (hlife.offersEmptied hnodup).split socket hoffered
  have hasks := (along_append.1 hlife.asks).1
  have hbytes := hflows.bytes
  rw [List.nil_append, List.append_nil] at hbytes
  obtain ⟨rest, hlead⟩ := hlife.queued_prefix hnodup hid socket
  have hrequests : (openedSockets front).head? = some socket → (requests front).length = 1 := by
    intro hhead
    rw [if_pos hhead] at hframes
    obtain ⟨r, hframes⟩ := hframes
    have hasked : .requestReplicationStream r ∈ queuedFrames (about socket front) := by
      rw [hframes]
      simp
    have hmem := mem_requests_of_queued (mem_queuedFrames_about hasked)
    have hle := requests_of_along hasks (Nat.zero_le 1)
    rw [List.nil_append] at hle
    exact Nat.le_antisymm hle (List.length_pos_of_mem hmem)
  have hlength : (queuedFrames (about socket front)).length =
      (outgoing id table h.peer front socket).length := by
    unfold outgoing
    split at hframes
    next hhead =>
      obtain ⟨r, hframes⟩ := hframes
      simp [hframes, hhead, hrequests hhead]
    next hhead => simp [hframes, hhead]
  have hwhole : queuedFrames (about socket front) = outgoing id table h.peer front socket :=
    List.IsPrefix.eq_of_length ⟨rest, hlead⟩ hlength
  have hsome : queuedFrames (about socket front) ≠ [] := by
    rw [hwhole, outgoing]
    simp
  refine ⟨?_, hrequests⟩
  rw [encodeAll_of_fits (hlife.outgoing_fits hnodup hid hsome), ← hwhole, hbytes]

end Handler

end ReplicaHandshake
