import ReplicaHandshake.Proofs.Handler.Custody

/-!
# Lives of handlers

`Handler.Life table past h` says that a handler of a table has come to be `h`, and that `past` is
all that happened on its behalf: it began, and took its turns.

All its life a handler is sound, it keeps its name and its peer, and while it is at work it has one
connection for each master, by the socket that was opened to it (`Life.roster`).  Of the sockets
that were opened and the writers that were received none is lost and none counted twice
(`Life.sockets`, `Life.writers`).
-/

namespace ReplicaHandshake

/-! ### Beginning -/

/-- What happens when a handler is started. -/
inductive Overture : Happening → Prop where
  | started (tableName : String) (masters : Nat) : Overture (.noted (.started tableName masters))
  | entered : Overture (.reported (.phaseEntered Phase.initializing.name))
  | openSocket (endpoint : Endpoint) (answer : Except SystemError SocketId) :
      Overture (.answered (.openSocket endpoint) answer)

theorem Overture.isWord {x : Happening} (h : Overture x) : x.isWord = false := by
  cases h <;> rfl

theorem Overture.writer {x : Happening} (h : Overture x) : x.writer? = none := by
  cases h <;> rfl

theorem Overture.sockets {x : Happening} (h : Overture x) :
    x.closed? = none ∧ x.offered? = none ∧ x.taken? = none ∧ x.used? = none := by
  cases h <;> exact ⟨rfl, rfl, rfl, rfl⟩

theorem mem_openedSockets_of_overture {hs : List Happening} {x : Happening} {socket : SocketId}
    (hx : x ∈ hs) (h : Overture x) (hsocket : x.socket? = some socket) :
    socket ∈ openedSockets hs := by
  have hopening : ∃ endpoint, x.opening? = some (endpoint, socket) := by
    cases h with
    | openSocket endpoint answer =>
      cases answer with
      | ok opened =>
        cases hsocket
        exact ⟨endpoint, rfl⟩
      | error e => cases hsocket
    | started | entered => cases hsocket
  obtain ⟨endpoint, hopening⟩ := hopening
  exact List.mem_map.2 ⟨_, List.mem_filterMap.2 ⟨x, hx, hopening⟩, rfl⟩

theorem closedSockets_of_overture {hs : List Happening} (h : ∀ x ∈ hs, Overture x) :
    closedSockets hs = [] ∧ takenSockets hs = [] :=
  ⟨List.filterMap_eq_nil_iff.2 fun x hx => (h x hx).sockets.1,
    List.filterMap_eq_nil_iff.2 fun x hx => (h x hx).sockets.2.2.1⟩

/-- A connection that has not been opened. -/
structure Connection.IsFresh (c : Connection) : Prop where
  state : c.state = .disconnected
  socket : c.socket = none
  pendingHandoff : c.pendingHandoff = none
  tableInfo : c.tableInfo = none
  buffered : c.inbound.buffered = []
  pending : c.outbound.pending = []

/-- A connection that was just opened, and has not done anything else. -/
structure Connection.IsOpened (c : Connection) : Prop where
  state : c.state = .connecting
  holds : c.Holds
  tableInfo : c.tableInfo = none
  buffered : c.inbound.buffered = []
  pending : c.outbound.pending = []

namespace Handler

/-- Whom a handler is connected to, and by which sockets. -/
def roster (h : Handler) : List (Endpoint × Option SocketId) :=
  h.connections.map fun c => (c.endpoint, c.socketId)

/-- The roster of a handler to which these sockets were opened. -/
def rosterOf (opened : List (Endpoint × SocketId)) : List (Endpoint × Option SocketId) :=
  opened.map fun o => (o.1, some o.2)

variable {h h' : Handler} {hs : List Happening} {cs cs' : List Connection} {f : Option Failure}

theorem Opens.overture (hopens : Opens cs hs f cs') : ∀ x ∈ hs, Overture x := by
  induction hopens with
  | done => simp
  | opened socket _ ih => exact List.forall_mem_cons.2 ⟨.openSocket .., ih⟩
  | refused e => simpa using .openSocket ..

theorem Opens.owned (hopens : Opens cs hs f cs') (hfresh : ∀ c ∈ cs, c.IsFresh) :
    cs'.flatMap Connection.ownedSockets = openedSockets hs ∧
      ∀ c ∈ cs', c.isTransferred = false := by
  have hnone : ∀ c : Connection, c.IsFresh → c.ownedSockets = [] ∧ c.isTransferred = false := by
    intro c hc
    simp [Connection.ownedSockets, Connection.isTransferred, hc.socket, hc.pendingHandoff, hc.state]
  induction hopens with
  | done => exact ⟨rfl, by simp⟩
  | @opened c rest rest' hs f socket _ ih =>
    obtain ⟨hc, hrest⟩ := List.forall_mem_cons.1 hfresh
    obtain ⟨howned, hfree⟩ := ih hrest
    refine ⟨?_, List.forall_mem_cons.2 ⟨rfl, hfree⟩⟩
    simp only [openedSockets, openings] at howned ⊢
    simp [Connection.ownedSockets, Connection.opened, hc.pendingHandoff, howned, Happening.opening?]
  | @refused c rest e =>
    refine ⟨?_, fun x hx => (hnone x (hfresh x hx)).2⟩
    exact List.flatMap_eq_nil_iff.2 fun x hx => (hnone x (hfresh x hx)).1

/-- The sockets are opened to the masters, in their order, and to all of them if none is refused. -/
theorem Opens.masters (hopens : Opens cs hs f cs') :
    (openings hs).map (·.1) <+: cs.map (·.endpoint) ∧
      (f = none → cs'.map (fun c => (c.endpoint, c.socketId)) = rosterOf (openings hs) ∧
        (openings hs).map (·.1) = cs.map (·.endpoint)) := by
  induction hopens with
  | done => exact ⟨List.nil_prefix, fun _ => ⟨rfl, rfl⟩⟩
  | @opened c rest rest' hs f socket _ ih =>
    obtain ⟨hlead, hall⟩ := ih
    have hopenings : openings (.answered (.openSocket c.endpoint) (.ok socket) :: hs) =
        (c.endpoint, socket) :: openings hs := rfl
    rw [hopenings]
    refine ⟨(List.cons_prefix_cons.2 ⟨rfl, hlead⟩ :), fun hf => ?_⟩
    obtain ⟨hroster, hmasters⟩ := hall hf
    exact ⟨congrArg (_ :: ·) hroster, congrArg (_ :: ·) hmasters⟩
  | refused e => exact ⟨List.nil_prefix, by simp⟩

theorem Opens.opened_connections (hopens : Opens cs hs none cs') (hfresh : ∀ c ∈ cs, c.IsFresh)
    {peer : PeerId} {tableName : String}
    (hsame : ∀ c ∈ cs, c.peer = peer ∧ c.tableName = tableName) :
    ∀ c ∈ cs', c.IsOpened ∧ c.peer = peer ∧ c.tableName = tableName := by
  generalize hf : (none : Option Failure) = f at hopens
  induction hopens with
  | done => simp
  | @opened c rest rest' hs f socket _ ih =>
    obtain ⟨hc, hrest⟩ := List.forall_mem_cons.1 hfresh
    obtain ⟨hsame, hsames⟩ := List.forall_mem_cons.1 hsame
    refine List.forall_mem_cons.2 ⟨⟨?_, hsame⟩, ih hrest hsames hf⟩
    exact ⟨rfl, ⟨rfl, rfl, hc.pendingHandoff⟩, hc.tableInfo, hc.buffered, hc.pending⟩
  | refused e => cases hf

/-- A handler has just begun, and all its connections are open. -/
structure Opened (table : TableSettings) (hs : List Happening) (h : Handler) : Prop where
  phase : h.phase = .initializing
  overture : ∀ x ∈ hs, Overture x
  connections : ∀ c ∈ h.connections, c.IsOpened ∧ c.peer = h.peer ∧ c.tableName = h.tableName
  roster : h.roster = rosterOf (openings hs)
  masters : (openings hs).map (·.1) = table.masters
  owned : h.ownedSockets = openedSockets hs
  fresh : h.ready = 0 ∧ h.writer = none ∧ h.writerTransferred = false

/-- A handler has just begun, and could not open a connection. -/
structure Refused (table : TableSettings) (hs : List Happening) (h : Handler) : Prop where
  phase : h.phase = .stopping
  connections : h.connections = []
  writer : h.writer = none
  owes : h.writerTransferred = false ∧ h.needsPeerStop = false
  happenings : ∃ front back, hs = front ++ back ∧ (∀ x ∈ front, Overture x) ∧
    Closes (openedSockets front) back ∧ (∀ x ∈ back, x.writer? = none ∧ x.isWord = false) ∧
    (openings front).map (·.1) <+: table.masters

theorem stopForHappenings_writer (hwriter : h.writer = none) (kind : String) :
    ∀ x ∈ h.stopForHappenings kind, x.writer? = none := by
  have hreleases : h.releases = [] := by simp [releases, hwriter]
  simp only [stopForHappenings, stopHappenings, hreleases, List.append_nil, List.forall_mem_cons,
    List.forall_mem_flatMap]
  exact ⟨rfl, rfl, fun c _ => closings_writer c⟩

/-- A handler that is started says so, and which phase it is in. -/
theorem overture_greetings (instanceId : InstanceId) (peer : PeerId) (table : TableSettings)
    (frameBuffer : Nat) (timeout : Duration) (now : Instant) :
    ∀ x ∈ (new instanceId peer table frameBuffer timeout now).greetings, Overture x := by
  simp only [greetings, List.forall_mem_cons, List.not_mem_nil, false_implies,
    implies_true, and_true]
  exact ⟨.started .., .entered⟩

/-- The connections of a new handler are fresh, and belong to its peer and its table. -/
theorem new_connections (instanceId : InstanceId) (peer : PeerId) (table : TableSettings)
    (frameBuffer : Nat) (timeout : Duration) (now : Instant) :
    ∀ c ∈ (new instanceId peer table frameBuffer timeout now).connections,
      c.IsFresh ∧ c.peer = peer ∧ c.tableName = table.tableName := by
  intro c hc
  obtain ⟨_, -, rfl⟩ := List.mem_map.1 hc
  exact ⟨⟨rfl, rfl, rfl, rfl, rfl, rfl⟩, rfl, rfl⟩

theorem Begins.spec {instanceId : InstanceId} {peer : PeerId} {table : TableSettings}
    {frameBuffer : Nat} {timeout : Duration} {now : Instant}
    (hbegins : Begins (new instanceId peer table frameBuffer timeout now) hs h) :
    h.peer = peer ∧ h.tableName = table.tableName ∧ (Opened table hs h ∨ Refused table hs h) := by
  have hgreetings := overture_greetings instanceId peer table frameBuffer timeout now
  have hfresh := new_connections instanceId peer table frameBuffer timeout now
  have hmasters : (new instanceId peer table frameBuffer timeout now).connections.map (·.endpoint) =
      table.masters := by
    simp [new, Connection.new, Function.comp_def]
  cases hbegins with
  | opens hopens =>
    refine ⟨rfl, rfl, .inl ?_⟩
    obtain ⟨howned, -⟩ := hopens.owned fun c hc => (hfresh c hc).1
    obtain ⟨-, hall⟩ := hopens.masters
    obtain ⟨hroster, hendpoints⟩ := hall rfl
    refine ⟨rfl, ?_, ?_, hroster, hendpoints.trans hmasters, howned, rfl, rfl, rfl⟩
    · intro x hx
      exact (List.mem_append.1 hx).elim (hgreetings x) (hopens.overture x)
    · exact hopens.opened_connections (fun c hc => (hfresh c hc).1) fun c hc => (hfresh c hc).2
  | @fails hs cs f hopens =>
    refine ⟨rfl, rfl, .inr ?_⟩
    obtain ⟨howned, hfree⟩ := hopens.owned fun c hc => (hfresh c hc).1
    obtain ⟨hendpoints, -⟩ := hopens.masters
    have hback := fun x hx => And.intro (stopForHappenings_writer rfl f.kind x hx)
      (stopForHappenings_isWord { new instanceId peer table frameBuffer timeout now with
        connections := cs } f.kind x hx)
    have hnone : cs.filter (·.isTransferred) = [] :=
      List.filter_eq_nil_iff.2 fun c hc => by simp [hfree c hc]
    refine ⟨rfl, hnone, rfl, ⟨rfl, ?_⟩, _, _, rfl, ?_, ?_, hback, ?_⟩
    · show (false || !(cs.filter (·.isTransferred)).isEmpty) = false
      rw [hnone]
      rfl
    · intro x hx
      exact (List.mem_append.1 hx).elim (hgreetings x) (hopens.overture x)
    · have hcloses := closes_stopFor
        (h := { new instanceId peer table frameBuffer timeout now with connections := cs })
        (fun c hc htransferred => by simp [hfree c hc] at htransferred) f.kind
      rw [ownedSockets, howned] at hcloses
      exact hcloses
    · rw [← hmasters]
      exact hendpoints

/-! ### Living -/

/-- What happened on behalf of a handler of this table from its beginning, and what has
become of it. -/
inductive Life (table : TableSettings) : List Happening → Handler → Prop where
  | begins {instanceId : InstanceId} {peer : PeerId} {frameBuffer : Nat} {timeout : Duration}
      {now : Instant} {hs : List Happening} {h : Handler} :
      table.validate = .ok () →
      Begins (new instanceId peer table frameBuffer timeout now) hs h → Life table hs h
  | turns {past hs : List Happening} {h h' : Handler} :
      Life table past h → Turn h hs h' → Life table (past ++ hs) h'

variable {table : TableSettings} {past : List Happening}

theorem Opened.sound (hopened : Opened table hs h) (hmasters : table.masters ≠ []) : h.Sound := by
  have hconnecting : ∀ c ∈ h.connections, c.IsOpened := fun c hc => (hopened.connections c hc).1
  have hcount : h.connections.countP (·.tableInfo.isSome) = 0 := by
    apply List.countP_eq_zero.2
    intro c hc
    simp [(hconnecting c hc).tableInfo]
  refine ⟨⟨?_, fun c hc => (hopened.connections c hc).2, fun _ => hopened.fresh.2.1⟩, ?_, ?_⟩
  · intro c hc
    simp only [Connection.Sound, (hconnecting c hc).state]
    exact ⟨(hconnecting c hc).holds, (hconnecting c hc).tableInfo⟩
  · intro _ hempty
    have hroster := hopened.roster
    simp only [Handler.roster, rosterOf, hempty, List.map_nil, List.nil_eq,
      List.map_eq_nil_iff] at hroster
    exact hmasters (by rw [← hopened.masters, hroster, List.map_nil])
  · simp only [InPhase, hopened.phase]
    refine ⟨fun c hc => .inl (hconnecting c hc).state, fun c hc => (hconnecting c hc).holds, ?_, ?_,
      hopened.fresh.2.1, hopened.fresh.2.2⟩
    · rw [hcount, hopened.fresh.1]
    · intro c hc info hinfo
      simp [(hconnecting c hc).tableInfo] at hinfo

theorem Refused.sound (hrefused : Refused table hs h) : h.Sound := by
  refine ⟨⟨?_, ?_, fun _ => hrefused.writer⟩, ?_, ?_⟩
  · simp [hrefused.connections]
  · simp [hrefused.connections]
  · simp [hrefused.phase, Phase.isHandshaking]
  · simp only [InPhase, hrefused.phase]
    exact ⟨by simp [hrefused.connections], hrefused.writer⟩

theorem masters_of_validate (hvalid : table.validate = .ok ()) : table.masters ≠ [] := by
  intro hmasters
  simp only [TableSettings.validate, hmasters, if_true] at hvalid
  split at hvalid <;> cases hvalid

theorem Life.sound (hlife : Life table past h) : h.Sound := by
  induction hlife with
  | begins hvalid hbegins =>
    obtain ⟨-, -, hopened | hrefused⟩ := hbegins.spec
    · exact hopened.sound (masters_of_validate hvalid)
    · exact hrefused.sound
  | turns _ hturn ih => exact hturn.sound ih

/-- What holds when a handler begins, and is kept by every turn, holds all its life. -/
@[elab_as_elim]
theorem Life.invariant {P : List Happening → Handler → Prop} (hlife : Life table past h)
    (hopened : ∀ hs h, Opened table hs h → P hs h) (hrefused : ∀ hs h, Refused table hs h → P hs h)
    (hturn : ∀ past h hs h', Life table past h → P past h → Turn h hs h' → P (past ++ hs) h') :
    P past h := by
  induction hlife with
  | begins _ hbegins =>
    obtain ⟨-, -, h | h⟩ := hbegins.spec
    · exact hopened _ _ h
    · exact hrefused _ _ h
  | turns hlife h ih => exact hturn _ _ _ _ hlife ih h

theorem Life.of_way (hlife : Life table past h) (hway : Way Turn h hs h') :
    Life table (past ++ hs) h' := by
  induction hway with
  | refl => simpa using hlife
  | tail _ hturn ih =>
    rw [← List.append_assoc]
    exact ih.turns hturn

/-! ### Names -/

theorem Resolves.name {rows : UInt64} (hresolves : h.Resolves hs rows h') :
    h'.peer = h.peer ∧ h'.tableName = h.tableName := by
  cases hresolves <;> exact ⟨rfl, rfl⟩

theorem Fault.name {f : Failure} (hfault : Fault h hs f h') :
    h'.peer = h.peer ∧ h'.tableName = h.tableName := by
  cases hfault with
  | request _ _ _ hresolves => exact hresolves.name
  | _ => exact ⟨rfl, rfl⟩

theorem Turn.name (hturn : Turn h hs h') : h'.peer = h.peer ∧ h'.tableName = h.tableName := by
  cases hturn with
  | move hmove =>
    cases hmove with
    | rendezvous _ _ _ hresolves => exact hresolves.name
    | fails hfault => exact hfault.name
    | _ => exact ⟨rfl, rfl⟩
  | loses _ _ _ heq =>
    subst heq
    exact ⟨rfl, rfl⟩
  | _ => exact ⟨rfl, rfl⟩

theorem name_of_way (hway : Way Turn h hs h') :
    h'.peer = h.peer ∧ h'.tableName = h.tableName := by
  induction hway with
  | refl => exact ⟨rfl, rfl⟩
  | tail _ hturn ih => exact ⟨hturn.name.1.trans ih.1, hturn.name.2.trans ih.2⟩

theorem peer_of_way (hway : Way Turn h hs h') : h'.peer = h.peer :=
  (name_of_way hway).1

theorem Life.tableName (hlife : Life table past h) : h.tableName = table.tableName := by
  induction hlife with
  | begins _ hbegins => exact hbegins.spec.2.1
  | turns _ hturn ih => exact hturn.name.2.trans ih

/-- First of all a handler says which table it brings up, and how many masters serve it. -/
def Announces (table : TableSettings) (past : List Happening) : Prop :=
  0 < table.masters.length ∧
    past.head? = some (.noted (.started table.tableName table.masters.length))

theorem Life.announces (hlife : Life table past h) : Announces table past := by
  induction hlife with
  | begins hvalid hbegins =>
    refine ⟨List.length_pos_iff.2 (masters_of_validate hvalid), ?_⟩
    cases hbegins <;> simp [greetings, new]
  | turns _ _ ih => exact ⟨ih.1, by simp [List.head?_append, ih.2]⟩

theorem Life.ne_nil (hlife : Life table past h) : past ≠ [] := by
  rintro rfl
  cases hlife.announces.2

/-! ### Connections -/

/-- A handler at work was at work before, with the same connections. -/
theorem View.roster (hview : View h hs h') (hwork : h'.AtWork) :
    h.AtWork ∧ h'.roster = h.roster := by
  cases hview with
  | acts hwork₀ _ hconnections hconnections' hact =>
    obtain ⟨hendpoint, -, -, -, hid⟩ := hact.same
    exact ⟨hwork₀, by simp [Handler.roster, hconnections, hconnections', hendpoint, hid]⟩
  | goesOn hwork₀ _ hconnections => exact ⟨hwork₀, by rw [Handler.roster, hconnections]; rfl⟩
  | ends _ hover | rests _ hover => exact absurd hwork hover

theorem sound_of_way (hsound : h.Sound) (hway : Way Turn h hs h') : h'.Sound := by
  induction hway with
  | refl => exact hsound
  | tail _ hturn ih => exact hturn.sound ih

theorem atWork_of_way (hsound : h.Sound) (hway : Way Turn h hs h') (hwork : h'.AtWork) :
    h.AtWork := by
  induction hway with
  | refl => exact hwork
  | tail hway hturn ih => exact ih ((hturn.view (sound_of_way hsound hway)).roster hwork).1

/-- While it is at work, a handler has one connection for each master, in their order, and each by
the socket that was opened to it. -/
theorem Life.roster (hlife : Life table past h) :
    h.AtWork → h.roster = rosterOf (openings past) ∧ (openings past).map (·.1) = table.masters := by
  refine hlife.invariant ?_ ?_ ?_
  · intro hs h hopened _
    exact ⟨hopened.roster, hopened.masters⟩
  · intro hs h hrefused hwork
    exact absurd hwork (not_atWork_stopping hrefused.phase)
  · intro past h hs h' hlife ih hturn hwork
    obtain ⟨hwork₀, hroster⟩ := (hturn.view hlife.sound).roster hwork
    rw [openings_append, (hturn.sockets hlife.sound).1, List.append_nil, hroster]
    exact ih hwork₀

section Connections

variable {P : List Happening → Connection → Prop}

theorem View.forall_connections (hview : View h hs h') (hsound' : h'.Sound)
    (htaken : ∀ {past c}, c.Sound → c.isTransferred → P past c)
    (hmono : ∀ {past past' c}, P past c → (∀ x ∈ past, x ∈ past') → P past' c)
    (hact : ∀ {past c hs c'}, Connection.Act c hs c' → P past c → P (past ++ hs) c')
    (hpast : ∀ c ∈ h.connections, P past c) : ∀ c ∈ h'.connections, P (past ++ hs) c := by
  have hkept : ∀ c ∈ h.connections, P (past ++ hs) c := fun c hc =>
    hmono (hpast c hc) fun x hx => List.mem_append_left hs hx
  have hover : ¬h'.AtWork → ∀ c ∈ h'.connections, P (past ++ hs) c := fun hover c hc =>
    htaken (hsound'.connections c hc)
      ((hsound'.isOver (Decidable.not_not.1 hover)).connections c hc)
  cases hview with
  | @acts _ before after c c' front done back _ _ hconnections hconnections' hdone _ =>
    have hc : P (past ++ (front ++ done ++ back)) c' := by
      refine hmono (hact hdone (hpast c (mem_of_split hconnections))) fun x hx => ?_
      simp only [List.mem_append] at hx ⊢
      exact hx.imp_right fun hx => .inl (.inr hx)
    rw [hconnections, List.forall_mem_append, List.forall_mem_cons] at hkept
    rw [hconnections', List.forall_mem_append, List.forall_mem_cons]
    exact ⟨hkept.1, hc, hkept.2.2⟩
  | goesOn _ _ hconnections => rwa [hconnections]
  | ends _ h | rests _ h => exact hover h

/-- What is so of every connection that was just opened, and is kept by whatever a connection does,
is so of all connections of a handler all its life. -/
theorem Life.forall_connections (hlife : Life table past h)
    (hopened : ∀ {past c}, c.IsOpened → P past c)
    (htaken : ∀ {past c}, c.Sound → c.isTransferred → P past c)
    (hmono : ∀ {past past' c}, P past c → (∀ x ∈ past, x ∈ past') → P past' c)
    (hact : ∀ {past c hs c'}, Connection.Act c hs c' → P past c → P (past ++ hs) c') :
    ∀ c ∈ h.connections, P past c := by
  refine hlife.invariant ?_ ?_ ?_
  · intro hs h hopen c hc
    exact hopened (hopen.connections c hc).1
  · intro hs h hrefused c hc
    rw [hrefused.connections] at hc
    cases hc
  · intro past h hs h' hlife ih hturn
    exact (hturn.view hlife.sound).forall_connections (hturn.sound hlife.sound) htaken hmono hact ih

end Connections

/-- While a handler is at work, one socket was opened to it for each master. -/
theorem Life.length_connections (hlife : Life table past h) (hwork : h.AtWork) :
    h.connections.length = table.masters.length ∧
      (openedSockets past).length = table.masters.length := by
  obtain ⟨hroster, hmasters⟩ := hlife.roster hwork
  have hlength : (openedSockets past).length = table.masters.length := by
    rw [← hmasters, openedSockets, List.length_map, List.length_map]
  refine ⟨?_, hlength⟩
  rw [← hlength, openedSockets, List.length_map]
  simpa [Handler.roster, rosterOf] using congrArg List.length hroster

/-! ### Custody -/

theorem Turn.openedSockets_eq (hturn : Turn h hs h') (hsound : h.Sound) (past : List Happening) :
    openedSockets (past ++ hs) = openedSockets past := by
  rw [openedSockets, openings_append, (hturn.sockets hsound).1, List.append_nil, openedSockets]

/-- Every socket that was opened is owned, or the multiplexer took it, or it was closed. -/
theorem Life.sockets (hlife : Life table past h) :
    (openedSockets past).Perm (h.ownedSockets ++ takenSockets past ++ closedSockets past) := by
  refine hlife.invariant ?_ ?_ ?_
  · intro hs h hopened
    obtain ⟨hclosed, htaken⟩ := closedSockets_of_overture hopened.overture
    rw [hclosed, htaken, List.append_nil, List.append_nil, hopened.owned]
  · intro hs h hrefused
    obtain ⟨front, back, rfl, hfront, hcloses, -, -⟩ := hrefused.happenings
    obtain ⟨hclosed, htaken⟩ := closedSockets_of_overture hfront
    obtain ⟨hopen, htaken'⟩ := hcloses.openings
    have howned : h.ownedSockets = [] := by rw [ownedSockets, hrefused.connections]; rfl
    have hopened : openedSockets back = [] := by rw [openedSockets, hopen]; rfl
    rw [howned, openedSockets_append, takenSockets_append, closedSockets_append, hopened, hclosed,
      htaken, htaken', hcloses.closed]
    simp
  · intro past h hs h' hlife ih hturn
    obtain ⟨hopen, hsockets⟩ := hturn.sockets hlife.sound
    have hopened : openedSockets hs = [] := by rw [openedSockets, hopen]; rfl
    rw [openedSockets_append, takenSockets_append, closedSockets_append, perm_account_iff ih,
      hopened]
    exact hsockets

/-- Every writer that was received is owned, or the multiplexer took it, or it was released. -/
theorem Life.writers (hlife : Life table past h) :
    (receivedWriters past).Perm (h.ownedWriters ++ takenWriters past ++ releasedWriters past) := by
  refine hlife.invariant ?_ ?_ ?_
  · intro hs h hopened
    have hnone : ∀ x ∈ hs, x.writer? = none := fun x hx => (hopened.overture x hx).writer
    have hbalances : Balances h hs h := balances_of_none hnone rfl
    simpa [Balances, ownedWriters, hopened.fresh.2.1] using hbalances
  · intro hs h hrefused
    obtain ⟨front, back, rfl, hfront, -, hback, -⟩ := hrefused.happenings
    have hnone : ∀ x ∈ front ++ back, x.writer? = none := fun x hx =>
      (List.mem_append.1 hx).elim (fun hx => (hfront x hx).writer) fun hx => (hback x hx).1
    have hbalances : Balances h (front ++ back) h := balances_of_none hnone rfl
    simpa [Balances, ownedWriters, hrefused.writer] using hbalances
  · intro past h hs h' hlife ih hturn
    rw [receivedWriters_append, takenWriters_append, releasedWriters_append, perm_account_iff ih]
    exact hturn.writers hlife.sound

/-- Turn by turn, what a handler owned it owns still, or the multiplexer took it, or
it was closed. -/
theorem Life.sockets_of_way (hlife : Life table past h) (hway : Way Turn h hs h') :
    (openedSockets hs ++ h.ownedSockets).Perm
      (h'.ownedSockets ++ takenSockets hs ++ closedSockets hs) := by
  have hafter := (hlife.of_way hway).sockets
  rw [openedSockets_append, takenSockets_append, closedSockets_append] at hafter
  exact (perm_account_iff hlife.sockets).1 hafter

theorem Life.writers_of_way (hlife : Life table past h) (hway : Way Turn h hs h') :
    (receivedWriters hs ++ h.ownedWriters).Perm
      (h'.ownedWriters ++ takenWriters hs ++ releasedWriters hs) := by
  have hafter := (hlife.of_way hway).writers
  rw [receivedWriters_append, takenWriters_append, releasedWriters_append] at hafter
  exact (perm_account_iff hlife.writers).1 hafter

end Handler

end ReplicaHandshake
