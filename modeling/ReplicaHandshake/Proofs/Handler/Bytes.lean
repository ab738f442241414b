import ReplicaHandshake.Proofs.Connection.Bytes
import ReplicaHandshake.Proofs.Handler.Handoff
import ReplicaHandshake.Proofs.Handler.Uses

/-!
# The bytes behind a handoff

As long as a socket has not been taken, its connection accounts for all bytes that were read from it
(`Life.accounts`).  So all that was read from a socket that the multiplexer took are the frames of
the handshake, in their order, and then the bytes that were handed over with it (`Life.handsOn`).
-/

namespace ReplicaHandshake.Handler

variable {h h' : Handler} {past hs : List Happening} {table : TableSettings}

/-! ### Which happenings are about a socket -/

theorem about_of_none {socket : SocketId} (h : ∀ x ∈ hs, x.socket? ≠ some socket) :
    about socket hs = [] :=
  List.filter_eq_nil_iff.2 fun x hx => by simpa using h x hx

theorem about_of_silent (socket : SocketId) (h : ∀ x ∈ hs, x.socket? = none) :
    about socket hs = [] :=
  about_of_none fun x hx => by simp [h x hx]

theorem Life.ids_nodup (hlife : Life table past h) (hnodup : (openedSockets past).Nodup)
    (hwork : h.AtWork) : (h.connections.map (·.socketId)).Nodup := by
  have hids : h.connections.map (·.socketId) = (openedSockets past).map some := by
    have hroster := congrArg (List.map Prod.snd) (hlife.roster hwork).1
    simpa [Handler.roster, rosterOf, openedSockets, Function.comp_def] using hroster
  rw [hids, List.nodup_iff_pairwise_ne, List.pairwise_map]
  exact hnodup.imp fun hne heq => hne (Option.some.inj heq)

theorem id_ne_of_nodup {before after : List Connection} {c d : Connection}
    (hnodup : (h.connections.map (·.socketId)).Nodup)
    (hconnections : h.connections = before ++ c :: after) (hd : d ∈ before ∨ d ∈ after) :
    d.socketId ≠ c.socketId := by
  rw [hconnections, List.map_append, List.map_cons, List.nodup_append, List.nodup_cons] at hnodup
  obtain ⟨-, ⟨hafter, -⟩, hbefore⟩ := hnodup
  intro heq
  rcases hd with hd | hd
  · exact hbefore _ (List.mem_map_of_mem hd) _ List.mem_cons_self heq
  · exact hafter (heq ▸ List.mem_map_of_mem hd)

/-! ### Before the handoff -/

/-- What a connection has to do with its past, every one has that was not taken, with the past
of its socket. -/
def EachHas (P : Connection → List Happening → Prop) (past : List Happening) (h : Handler) : Prop :=
  ∀ c ∈ h.connections, c.isTransferred = false → ∀ socket, c.socketId = some socket →
    P c (about socket past)

/-- What every act keeps. -/
def KeptByActs (P : Connection → List Happening → Prop) : Prop :=
  ∀ {c c' : Connection} {past hs : List Happening} {socket : SocketId}, Connection.Act c hs c' →
    c.Sound →
    c'.isTransferred = false → c.socketId = some socket → P c past → P c' (past ++ about socket hs)

section Each

variable {P : Connection → List Happening → Prop}

theorem View.eachHas (hkept : KeptByActs P) (hview : View h hs h') (hsound : h.Sound)
    (hids : (h.connections.map (·.socketId)).Nodup) (hall : EachHas P past h) (hwork : h'.AtWork) :
    EachHas P (past ++ hs) h' := by
  cases hview with
  | @acts _ before after c c' front hs back _ _ hconnections hconnections' hact hnone =>
    have hc := mem_of_split hconnections
    have hsame := hact.same.2.2.2.2
    have hfront : ∀ socket, about socket front = [] := fun socket =>
      about_of_silent socket fun x hx => hnone x (List.mem_append_left back hx)
    have hback : ∀ socket, about socket back = [] := fun socket =>
      about_of_silent socket fun x hx => hnone x (List.mem_append_right front hx)
    intro d hd hfree socket hid
    rw [about_append, about_append, about_append, hfront, hback, List.nil_append, List.append_nil]
    have hd' : d = c' ∨ d ∈ before ∨ d ∈ after := by
      simp only [hconnections', List.mem_append, List.mem_cons] at hd
      rcases hd with hd | rfl | hd <;> simp [*]
    rcases hd' with rfl | hd'
    · have hid₀ := hsame.symm.trans hid
      exact hkept hact (hsound.connections c hc) hfree hid₀
        (hall c hc (hact.free hfree) socket hid₀)
    · have hmem : d ∈ h.connections := by
        rcases hd' with hd' | hd' <;> simp [hconnections, hd']
      have hother : about socket hs = [] := by
        apply about_of_none
        intro x hx hsocket
        have hown := (hact.socket (hsound.connections c hc) hx hsocket).1
        exact id_ne_of_nodup hids hconnections hd' (hid.trans hown.symm)
      rw [hother, List.append_nil]
      exact hall d hmem hfree socket hid
  | goesOn _ _ hconnections hnone =>
    intro c hc hfree socket hid
    rw [about_append, about_of_silent socket hnone, List.append_nil]
    exact hall c (hconnections ▸ hc) hfree socket hid
  | ends _ hover | rests _ hover => exact absurd hwork hover

/-- What an opened connection has to do with its past, and every act keeps, that all connections
have of a handler at work. -/
theorem Life.eachHas (hopened : ∀ {c : Connection} {hs : List Happening}, c.IsOpened →
      (∀ x ∈ hs, Overture x) → P c hs) (hkept : KeptByActs P) (hlife : Life table past h) :
    (openedSockets past).Nodup → h.AtWork → EachHas P past h := by
  refine hlife.invariant ?_ ?_ ?_
  · intro hs h hopen _ _ c hc _ socket _
    exact hopened (hopen.connections c hc).1 fun x hx => hopen.overture x (List.mem_filter.1 hx).1
  · intro hs h hrefused _ hwork
    exact absurd hwork (not_atWork_stopping hrefused.phase)
  · intro past h hs h' hlife ih hturn hnodup hwork
    rw [hturn.openedSockets_eq hlife.sound] at hnodup
    have hview := hturn.view hlife.sound
    have hwork₀ := (hview.roster hwork).1
    exact hview.eachHas hkept hlife.sound (hlife.ids_nodup hnodup hwork₀) (ih hnodup hwork₀) hwork

end Each

/-- Every connection that was not taken accounts for the bytes of its socket. -/
def AllAccount (past : List Happening) (h : Handler) : Prop :=
  EachHas Connection.Accounts past h

theorem keptByActs_accounts : KeptByActs Connection.Accounts := by
  intro c c' past hs socket hact hsound hfree hid hpast
  obtain ⟨hbytes, hframes⟩ := hact.about_eq hsound hid
  exact (hact.accounts hsound hfree hpast).congr (by simp [hbytes]) (by simp [hframes])

theorem Connection.IsOpened.accounts {c : Connection} (hopened : c.IsOpened)
    (hoverture : ∀ x ∈ hs, Overture x) : c.Accounts hs := by
  have hdelivered : deliveredBytes hs = [] := by
    apply List.flatMap_eq_nil_iff.2
    intro x hx
    cases hoverture x hx <;> rfl
  have hframes : acceptedFrames hs = [] :=
    List.filterMap_eq_nil_iff.2 fun x hx => (Happening.of_isWord (hoverture x hx).isWord).1
  constructor
  · rw [hdelivered, hframes, Connection.held_of_holds hopened.holds, hopened.buffered]
    rfl
  · simp [hframes]
  · simp only [Connection.HasHeard, hopened.state, hframes]

/-- All its life a handler at work accounts for the bytes of all sockets that were not taken. -/
theorem Life.accounts (hlife : Life table past h) :
    (openedSockets past).Nodup → h.AtWork → AllAccount past h :=
  hlife.eachHas (fun hopened hoverture => Connection.IsOpened.accounts hopened hoverture)
    keptByActs_accounts

/-! ### With the handoff -/

/-- All bytes that were read from a socket are those of the frames of the handshake, and then those
that go on with the socket.  The first socket is the one by which the data stream was started. -/
structure HandsOn (past : List Happening) (handoff : Handoff) : Prop where
  bytes : deliveredBytes (about handoff.socket past) =
    (acceptedFrames (about handoff.socket past)).flatMap Frame.bytes ++ handoff.buffered
  fits : ∀ f ∈ acceptedFrames (about handoff.socket past), f.encodedLength ≤ greatestWord32
  frames : ∃ info,
    if (openedSockets past).head? = some handoff.socket then
      ∃ start, acceptedFrames (about handoff.socket past) =
        [.tableInfo info, .startOfReplicationStream start]
    else acceptedFrames (about handoff.socket past) = [.tableInfo info]

theorem HandsOn.mono {handoff : Handoff} (h : HandsOn past handoff)
    (hopened : openedSockets (past ++ hs) = openedSockets past)
    (habout : about handoff.socket hs = []) : HandsOn (past ++ hs) handoff := by
  obtain ⟨hbytes, hfits, hframes⟩ := h
  constructor <;> rw [about_append, habout, List.append_nil]
  · exact hbytes
  · exact hfits
  · rwa [hopened]

/-- What the connection has heard that is next to be taken. -/
theorem Hands.heard {given left : List Connection} {c : Connection} {frames : List Frame}
    (hsound : h.Sound) (hhands : h.Hands given c left) (hheard : c.HasHeard frames) :
    ∃ info, if given = [] then ∃ start, frames = [.tableInfo info, .startOfReplicationStream start]
      else frames = [.tableInfo info] := by
  obtain ⟨hphase, -, hconnections, -, hfree⟩ := hhands
  obtain ⟨first, rest, hsplit, hfirst, hrest⟩ := (hsound.handsOver hphase).states
  have hnot : c.state ≠ .transferred := by simpa [Connection.isTransferred] using hfree
  rw [hconnections] at hsplit
  cases given with
  | nil =>
    obtain ⟨rfl, rfl⟩ := List.cons.inj hsplit
    simp only [Connection.HasHeard, hfirst.resolve_right hnot] at hheard
    simpa using hheard
  | cons g given =>
    obtain ⟨rfl, rfl⟩ := List.cons.inj hsplit
    have hstate := (hrest c (by simp)).resolve_right hnot
    simp only [Connection.HasHeard, hstate] at hheard
    simpa using hheard

/-- What is offered next is the first socket exactly when nothing was taken before. -/
theorem Life.head_iff (hlife : Life table past h) (hnodup : (openedSockets past).Nodup)
    {given left : List Connection} {c : Connection} {socket : SocketId}
    (hhands : h.Hands given c left) (hid : c.socketId = some socket) :
    (openedSockets past).head? = some socket ↔ given = [] := by
  have hat := hlife.socket_at hhands.atWork hhands.2.2.1
  rw [hid] at hat
  rw [List.head?_eq_getElem?]
  constructor
  · intro hhead
    have hlt : 0 < (openedSockets past).length := (List.getElem?_eq_some_iff.1 hhead).1
    have hzero := (List.getElem?_inj hlt hnodup).1 (hhead.trans hat.symm)
    exact List.eq_nil_of_length_eq_zero hzero.symm
  · rintro rfl
    exact hat

theorem mem_takenSockets {peer : PeerId} {handoff : Handoff}
    (htaken : .answered (.offerSocket peer handoff) true ∈ past) :
    handoff.socket ∈ takenSockets past :=
  List.mem_filterMap.2 ⟨_, htaken, rfl⟩

theorem offer_still {peer : PeerId} {handoff : Handoff} {taken : Bool} {back : List Happening}
    (hsilent : ∀ x ∈ back, x.socket? = none) :
    deliveredBytes (about handoff.socket
        (past ++ .answered (.offerSocket peer handoff) taken :: back)) =
      deliveredBytes (about handoff.socket past) ∧
    acceptedFrames (about handoff.socket
        (past ++ .answered (.offerSocket peer handoff) taken :: back)) =
      acceptedFrames (about handoff.socket past) := by
  have hoffer : about handoff.socket (.answered (.offerSocket peer handoff) taken :: back) =
      [.answered (.offerSocket peer handoff) taken] := by
    rw [about, List.filter_cons_of_pos (by simp [Happening.socket?])]
    exact congrArg _ (about_of_silent _ hsilent)
  rw [about_append, hoffer, deliveredBytes_append, acceptedFrames_append]
  exact ⟨List.append_nil _, List.append_nil _⟩

/-- Of all bytes that were read from a socket that the multiplexer took, none was lost and none went
another way. -/
theorem Life.handsOn (hlife : Life table past h) :
    (openedSockets past).Nodup → ∀ peer handoff,
      .answered (.offerSocket peer handoff) true ∈ past → HandsOn past handoff := by
  refine hlife.invariant ?_ ?_ ?_
  · intro hs h hopened _ peer handoff htaken
    cases hopened.overture _ htaken
  · intro hs h hrefused _ peer handoff htaken
    obtain ⟨front, back, rfl, hfront, hcloses, -⟩ := hrefused.happenings
    rcases List.mem_append.1 htaken with htaken | htaken
    · cases hfront _ htaken
    · cases (hcloses.none_else _ htaken).2.1
  · intro past h hs h' hlife ih hturn hnodup peer handoff htaken
    have hopened := hturn.openedSockets_eq hlife.sound past
    rw [hopened] at hnodup
    rcases List.mem_append.1 htaken with htaken | htaken
    · refine (ih hnodup peer handoff htaken).mono hopened (about_of_none fun x hx hsocket => ?_)
      have hown := (hturn.view hlife.sound).socket hlife.sound hx hsocket
      have hall := hlife.nodup hnodup
      rw [List.append_assoc, List.nodup_append] at hall
      exact hall.2.2 _ hown _ (List.mem_append_left _ (mem_takenSockets htaken)) rfl
    obtain hnone | ⟨-, ⟨_, _, back, -, -, -, rfl, hback⟩ |
      ⟨given, c, left, given', taken, back, hhands, hid, hheld, -, rfl, hback, hsilent⟩⟩ :=
      hturn.offers hlife.sound
    · cases hnone _ htaken
    · rcases List.mem_cons.1 htaken with heq | htaken
      · cases heq
      · cases hback _ htaken
    · obtain rfl : handoff = given' := by
        rcases List.mem_cons.1 htaken with heq | htaken
        · cases heq
          rfl
        · cases hback _ htaken
      have haccounts := hlife.accounts hnodup hhands.atWork c (mem_of_split hhands.2.2.1)
        hhands.2.2.2.2 handoff.socket hid
      obtain ⟨hbytes, hframes⟩ : deliveredBytes (about handoff.socket (past ++ _ :: back)) = _ ∧
          acceptedFrames (about handoff.socket (past ++ _ :: back)) = _ := offer_still hsilent
      constructor
      · rw [hbytes, hframes, hheld]
        exact haccounts.bytes
      · rw [hframes]
        exact haccounts.fits
      · rw [hframes, hopened]
        simp only [hlife.head_iff hnodup hhands hid]
        exact hhands.heard hlife.sound haccounts.heard

end ReplicaHandshake.Handler
