import ReplicaHandshake.Proofs.Handler.Life
import ReplicaHandshake.Proofs.Handler.Poll

/-!
# The rendezvous of the masters

A handler asks for the data stream once, by its first connection, and not before all masters have
described the table and said the same of it (`Life.asks`).  What it asks for is what the masters
have said and what the local store has answered (`Agreement`).  In turn, with the last description
the request is made, or the handler fails (`Life.concludes`).
-/

namespace ReplicaHandshake.Handler

variable {h h' : Handler} {past hs : List Happening} {table : TableSettings}

/-! ### Asking -/

/-- There is no request for the data stream. -/
def Unasked (hs : List Happening) : Prop :=
  ∀ x ∈ hs, x.requested? = none

theorem unasked_of_isWord (h : ∀ x ∈ hs, x.isWord = false) : Unasked hs :=
  fun x hx => (Happening.of_isWord (h x hx)).2.1

theorem Unasked.append {hs' : List Happening} (h : Unasked hs) (h' : Unasked hs') :
    Unasked (hs ++ hs') :=
  fun x hx => (List.mem_append.1 hx).elim (h x) (h' x)

theorem Unasked.requests (h : Unasked hs) : requests hs = [] :=
  List.filterMap_eq_nil_iff.2 h

theorem unasked_of_traffic {c : Connection} (h : ∀ x ∈ hs, Connection.Traffic c x) : Unasked hs :=
  unasked_of_isWord fun x hx => (h x hx).isWord

theorem unasked_of_hear {c c' : Connection} {event : ConnectionEvent}
    (h : Connection.Hear c hs event c') : Unasked hs := by
  cases h with
  | accept => simp [Unasked, Happening.requested?]

theorem unasked_of_offer {c c' : Connection} {taken : Bool}
    (h : Connection.Offer c hs taken c') : Unasked hs := by
  cases h <;> simp [Unasked, Happening.requested?]

theorem Resolves.unasked {rows : UInt64} (h : h.Resolves hs rows h') : Unasked hs := by
  cases h <;> simp [Unasked, Happening.requested?]

theorem Resolves.undescribed {rows : UInt64} (h : h.Resolves hs rows h') :
    descriptions hs = [] := by
  cases h <;> rfl

theorem Supplies.unasked {tableName : String} {owned : Option TableWriter}
    {start : StartOfReplicationStream} {writer : TableWriter}
    (h : Supplies tableName owned start hs writer) : Unasked hs := by
  cases h <;> simp [Unasked, Happening.requested?]

/-- The handler asks for the data stream: all masters have answered, and the table was looked up. -/
def Asks (h : Handler) (hs : List Happening) : Prop :=
  ∃ first rest front rows h₁ back, h.phase = .awaitingRendezvous ∧ h.allReady ∧
    h.connections = first :: rest ∧ h.Resolves front rows h₁ ∧
    hs = front ++
      .noted (.queued first.socketId (.requestReplicationStream (h.agreedRequest rows))) :: back ∧
    Unasked back

theorem Asks.append {back : List Happening} (hasks : Asks h hs) (hback : Unasked back) :
    Asks h (hs ++ back) := by
  obtain ⟨first, rest, front, rows, h₁, back', hphase, hready, hconnections, hresolves,
      rfl, hback'⟩ :=
    hasks
  exact ⟨first, rest, front, rows, h₁, back' ++ back, hphase, hready, hconnections, hresolves,
    by simp, hback'.append hback⟩

theorem Fault.asks {f : Failure} (hfault : Fault h hs f h') : Unasked hs ∨ Asks h hs := by
  cases hfault with
  | timeout | tableExists | openWriter | mismatch =>
    exact .inl (by simp [Unasked, Happening.requested?])
  | connection _ _ hfault | handoff _ hfault => exact .inl (unasked_of_traffic hfault.traffic.2)
  | divergence _ _ hhear => exact .inl (unasked_of_hear hhear)
  | createTable _ _ hhear =>
    exact .inl ((unasked_of_hear hhear).append (by simp [Unasked, Happening.requested?]))
  | request hphase hready hconnections hresolves hrequest =>
    obtain ⟨-, rfl | ⟨back, rfl, htraffic⟩⟩ := hrequest.traffic
    · exact .inl (hresolves.unasked.append (by simp [Unasked]))
    · exact .inr ⟨_, _, _, _, _, back, hphase, hready, hconnections, hresolves, rfl,
        unasked_of_traffic htraffic⟩

theorem Move.asks (hmove : Move h hs h') : Unasked hs ∨ Asks h hs := by
  cases hmove with
  | exchange _ _ hstep => exact .inl (unasked_of_traffic hstep.traffic.2)
  | tableInfo _ _ hhear => exact .inl (unasked_of_hear hhear)
  | allConnected | writerTaken | writerRefused | waits | streams | stopAccepted | stopRefused =>
    exact .inl (by simp [Unasked, Happening.requested?])
  | rendezvous hphase hready hconnections hresolves hrequest =>
    obtain ⟨-, back, rfl, htraffic⟩ := hrequest.traffic
    have hasks : Asks h _ := ⟨_, _, _, _, _, back, hphase, hready, hconnections, hresolves, rfl,
      unasked_of_traffic htraffic⟩
    exact .inr (hasks.append (by simp [Unasked, Happening.requested?]))
  | streamStart _ _ hhear hsupplies =>
    refine .inl (((unasked_of_hear hhear).append hsupplies.unasked).append ?_)
    simp [Unasked, Happening.requested?]
  | write _ hwrite => exact .inl (unasked_of_traffic hwrite.traffic.2)
  | socketTaken _ hoffer => exact .inl (unasked_of_offer hoffer)
  | socketRefused _ hoffer =>
    exact .inl ((unasked_of_offer hoffer).append (by simp [Unasked, Happening.requested?]))
  | @fails h₁ _ f hfault =>
    have hstop := unasked_of_isWord (h₁.stopForHappenings_isWord f.kind)
    exact hfault.asks.imp (·.append hstop) (·.append hstop)

theorem Turn.asks (hturn : Turn h hs h') : Unasked hs ∨ Asks h hs := by
  cases hturn with
  | move hmove => exact hmove.asks
  | stops => exact .inl (unasked_of_isWord h.stopHappenings_isWord)
  | loses => exact .inl (unasked_of_isWord (stopForHappenings_isWord _ _))
  | letsGo | finishes | concludes => exact .inl (by simp [Unasked, Happening.requested?])

/-! ### Waiting -/

/-- What was told while the handler waits for its masters. -/
structure Waits (past : List Happening) (h : Handler) : Prop where
  requests : requests past = []
  lookups : lookups past = []
  descriptions : (descriptions past).length = h.ready
  /-- What a connection knows of the table it was told, and accepted. -/
  told : ∀ c ∈ h.connections, ∀ info, c.tableInfo = some info →
    .noted (.accepted c.socketId (.tableInfo info)) ∈ past

theorem Waits.exchange {before after : List Connection} {c c' : Connection} (hwaits : Waits past h)
    (hconnections : h.connections = before ++ c :: after) (hstep : Connection.Step c hs c') :
    Waits (past ++ hs) (h.put before c' after) := by
  have hwordless := Connection.wordless_of_traffic hstep.traffic.2
  refine ⟨?_, ?_, ?_, ?_⟩
  · rw [requests_append, hwaits.requests, hwordless.requests, List.nil_append]
  · rw [lookups_append, hwaits.lookups, hwordless.lookups, List.nil_append]
  · rw [descriptions_append, hwordless.descriptions, List.append_nil, hwaits.descriptions]
    rfl
  · intro x hx info hinfo
    apply List.mem_append_left _
    rcases mem_put hconnections hx with hx | rfl
    · exact hwaits.told x hx info hinfo
    · rw [hstep.same.2.2.2.2]
      exact hwaits.told c (mem_of_split hconnections) info (hstep.keeps.2.1 ▸ hinfo)

theorem Waits.hear {before after : List Connection} {c c' : Connection} {info : TableInfo}
    (hwaits : Waits past h) (hconnections : h.connections = before ++ c :: after)
    (hhear : Connection.Hear c hs (.tableInfo info) c') :
    Waits (past ++ hs) { h.put before c' after with
      masterTableId := info.masterTableId
      structureVersion := info.structureVersion
      ready := h.ready + 1 } := by
  obtain ⟨-, -, -, hsome, -⟩ := hhear.tableInfo_spec
  have hid := hhear.same.2.2.2.2
  obtain rfl : hs = [.reported (.frameReceived FrameKind.tableInfo.name),
      .noted (.accepted c.socketId (.tableInfo info))] := by
    cases hhear with
    | accept _ _ haccept => cases haccept; rfl
  refine ⟨?_, ?_, ?_, ?_⟩
  · rw [requests_append, hwaits.requests]
    rfl
  · rw [lookups_append, hwaits.lookups]
    rfl
  · rw [descriptions_append, List.length_append, hwaits.descriptions]
    rfl
  · intro x hx other hother
    rcases mem_put hconnections hx with hx | rfl
    · exact List.mem_append_left _ (hwaits.told x hx other hother)
    · rw [hsome] at hother
      cases hother
      simp [hid]

/-- A handler that waits after a turn has waited before. -/
theorem Turn.waits (hturn : Turn h hs h') (hwaits : h.IsGathering → Waits past h)
    (hgathering : h'.IsGathering) : Waits (past ++ hs) h' := by
  cases hturn.move_of_atWork hgathering.atWork with
  | exchange hpolls hconnections hstep => exact (hwaits hgathering).exchange hconnections hstep
  | tableInfo _ hconnections hhear => exact (hwaits hgathering).hear hconnections hhear
  | allConnected hphase =>
    obtain ⟨hrequests, hlookups, hdescriptions, htold⟩ := hwaits (.inl hphase)
    refine ⟨?_, ?_, ?_, fun c hc info hinfo => List.mem_append_left _ (htold c hc info hinfo)⟩
    · rw [requests_append, hrequests]
      rfl
    · rw [lookups_append, hlookups]
      rfl
    · rw [descriptions_append, List.length_append, hdescriptions]
      rfl
  | rendezvous | streamStart | streams => simp [IsGathering] at hgathering
  | writerTaken hphase | writerRefused hphase | stopAccepted hphase | stopRefused hphase =>
    simp [IsGathering, hphase] at hgathering
  | write hhands | socketTaken hhands | socketRefused hhands | waits hhands =>
    simp [IsGathering, hhands.1] at hgathering
  | fails => exact absurd hgathering.atWork (not_atWork_stopping rfl)

theorem wordless_of_overture (h : ∀ x ∈ hs, Overture x) : Wordless hs :=
  wordless_of_forall fun x hx => (h x hx).isWord

theorem Life.waits (hlife : Life table past h) : h.IsGathering → Waits past h := by
  refine hlife.invariant ?_ ?_ ?_
  · intro hs h hopened _
    have hwordless := wordless_of_overture hopened.overture
    refine ⟨hwordless.requests, hwordless.lookups, ?_, fun c hc info hinfo => ?_⟩
    · rw [hwordless.descriptions, hopened.fresh.1, List.length_nil]
    · simp [(hopened.connections c hc).1.tableInfo] at hinfo
  · intro hs h hrefused hgathering
    simp [IsGathering, hrefused.phase] at hgathering
  · intro past h hs h' _ ih hturn hgathering
    exact hturn.waits ih hgathering

/-! ### Agreement -/

/-- All descriptions so far say what the handler has noted. -/
def Concurring (past : List Happening) (h : Handler) : Prop :=
  ∀ info ∈ descriptions past, info.masterTableId = h.masterTableId ∧
    info.structureVersion = h.structureVersion

theorem Concurring.mono (hconcurring : Concurring past h) (hnone : descriptions hs = [])
    (hid : h'.masterTableId = h.masterTableId)
    (hversion : h'.structureVersion = h.structureVersion) :
    Concurring (past ++ hs) h' := by
  intro info hinfo
  rw [descriptions_append, hnone, List.append_nil] at hinfo
  rw [hid, hversion]
  exact hconcurring info hinfo

/-- Whoever waits for its masters notes what the first one says, and fails if another one says
something else. -/
theorem Turn.concurring (hturn : Turn h hs h') (hlife : Life table past h)
    (ih : h.IsGathering → Concurring past h) (hgathering : h'.IsGathering) :
    Concurring (past ++ hs) h' := by
  cases hturn.move_of_atWork hgathering.atWork with
  | exchange _ _ hstep =>
    exact (ih hgathering).mono (Connection.wordless_of_traffic hstep.traffic.2).descriptions rfl rfl
  | tableInfo hphase _ hhear hagrees =>
    intro other hother
    cases hhear with
    | accept _ _ haccept =>
      cases haccept
      rw [descriptions_append, List.mem_append] at hother
      obtain hother | hother := hother
      · obtain hfirst | ⟨hid, hversion⟩ := hagrees
        · have hnone :=
            List.eq_nil_of_length_eq_zero ((hlife.waits hphase).descriptions.trans hfirst)
          rw [hnone] at hother
          cases hother
        · rw [hid, hversion]
          exact ih hphase other hother
      · obtain rfl := List.mem_singleton.1 hother
        exact ⟨rfl, rfl⟩
  | allConnected hphase => exact (ih (.inl hphase)).mono rfl rfl rfl
  | rendezvous | streamStart | streams => simp [IsGathering] at hgathering
  | writerTaken hphase | writerRefused hphase | stopAccepted hphase | stopRefused hphase =>
    simp [IsGathering, hphase] at hgathering
  | write hhands | socketTaken hhands | socketRefused hhands | waits hhands =>
    simp [IsGathering, hhands.1] at hgathering
  | fails => exact absurd hgathering.atWork (not_atWork_stopping rfl)

theorem Life.concurring (hlife : Life table past h) : h.IsGathering → Concurring past h := by
  refine hlife.invariant ?_ ?_ ?_
  · intro hs h hopened _ info hinfo
    rw [(wordless_of_overture hopened.overture).descriptions] at hinfo
    cases hinfo
  · intro hs h hrefused hgathering
    simp [IsGathering, hrefused.phase] at hgathering
  · intro past h hs h' hlife ih hturn hgathering
    exact hturn.concurring hlife ih hgathering

/-- What the store has answered about the table, for a request that goes on behind the rows that are
there. -/
inductive LookedUp (table : TableSettings) (request : RequestReplicationStream) :
    List Happening → Prop where
  | absent : request.initialRowCount = 0 →
      LookedUp table request [.answered (.tableExists table.tableName) (.ok false)]
  | present {writer : TableWriter} : writer.structureVersion = request.structureVersion →
      request.initialRowCount = writer.rowCount →
      LookedUp table request
        [.answered (.tableExists table.tableName) (.ok true),
          .answered (.openWriter table.tableName) (.ok writer)]

/-- All masters of a table have described it as a request says, and the store was asked. -/
structure Agreement (table : TableSettings) (past : List Happening)
    (request : RequestReplicationStream) : Prop where
  /-- Every master has a socket. -/
  masters : (openings past).map (·.1) = table.masters
  /-- As many descriptions were accepted as there are masters. -/
  complete : (descriptions past).length = table.masters.length
  /-- By every socket one description of this table was accepted, and all say the same. -/
  described : ∀ socket ∈ openedSockets past, ∃ info,
    .noted (.accepted (some socket) (.tableInfo info)) ∈ past ∧
      info.tableName = table.tableName ∧ info.masterTableId ≠ 0 ∧
      info.masterTableId = request.masterTableId ∧
      info.structureVersion = request.structureVersion
  lookedUp : LookedUp table request (lookups past)

/-- The data stream is asked for once, by the first socket, and after the masters have agreed. -/
def AsksAgreed (table : TableSettings) (past : List Happening) (x : Happening) : Prop :=
  ∀ socket request, x = .noted (.queued socket (.requestReplicationStream request)) →
    requests past = [] ∧ socket.isSome ∧ socket = (openedSockets past).head? ∧
      Agreement table past request

theorem along_of_unasked (h : Unasked hs) : Along (AsksAgreed table) past hs := by
  apply along_of_forall
  intro x hx past socket request hrequest
  have hnone := h x hx
  simp [hrequest, Happening.requested?] at hnone

theorem Resolves.lookedUp {rows : UInt64} (hresolves : h.Resolves hs rows h')
    (hname : h.tableName = table.tableName) :
    LookedUp table (h.agreedRequest rows) (lookups hs) := by
  cases hresolves with
  | absent =>
    rw [hname]
    exact .absent rfl
  | present hversion =>
    rw [hname]
    exact .present hversion rfl

theorem Life.connection (hlife : Life table past h) (hwork : h.AtWork) {socket : SocketId}
    (hsocket : socket ∈ openedSockets past) : ∃ c ∈ h.connections, c.socketId = some socket := by
  obtain ⟨hroster, -⟩ := hlife.roster hwork
  obtain ⟨⟨endpoint, socket⟩, hopening, rfl⟩ := List.mem_map.1 hsocket
  have hmem : (endpoint, some socket) ∈ h.roster := by
    rw [hroster]
    exact List.mem_map.2 ⟨_, hopening, rfl⟩
  obtain ⟨c, hc, heq⟩ := List.mem_map.1 hmem
  exact ⟨c, hc, congrArg Prod.snd heq⟩

/-- The first connection is by the socket that was opened first. -/
theorem Life.head (hlife : Life table past h) (hwork : h.AtWork) {first : Connection}
    {rest : List Connection} (hconnections : h.connections = first :: rest) :
    first.socketId.isSome ∧ first.socketId = (openedSockets past).head? := by
  obtain ⟨hroster, -⟩ := hlife.roster hwork
  rw [Handler.roster, rosterOf, hconnections, List.map_cons] at hroster
  cases hopenings : openings past with
  | nil => simp [hopenings] at hroster
  | cons o os =>
    rw [hopenings, List.map_cons, List.cons.injEq] at hroster
    have hid : first.socketId = some o.2 := congrArg Prod.snd hroster.1
    simp [openedSockets, hopenings, hid]

/-- All masters of a table have described it, and all say the same. -/
structure Assembled (table : TableSettings) (past : List Happening) (masterTableId : UInt32)
    (structureVersion : UInt64) : Prop where
  /-- Every master has a socket. -/
  masters : (openings past).map (·.1) = table.masters
  /-- As many descriptions were accepted as there are masters. -/
  complete : (descriptions past).length = table.masters.length
  /-- By every socket a description of this table was accepted. -/
  described : ∀ socket ∈ openedSockets past, ∃ info,
    .noted (.accepted (some socket) (.tableInfo info)) ∈ past ∧ info.tableName = table.tableName ∧
      info.masterTableId ≠ 0
  alike : ∀ info ∈ descriptions past, info.masterTableId = masterTableId ∧
    info.structureVersion = structureVersion

theorem mem_descriptions {socket : Option SocketId} {info : TableInfo}
    (h : .noted (.accepted socket (.tableInfo info)) ∈ past) : info ∈ descriptions past :=
  List.mem_filterMap.2 ⟨_, h, rfl⟩

theorem Life.assembled (hlife : Life table past h) (hphase : h.phase = .awaitingRendezvous)
    (hready : h.allReady) :
    Assembled table past h.masterTableId h.structureVersion := by
  have hwaits := hlife.waits (.inr hphase)
  have hgathers := hlife.sound.gathers (.inr hphase)
  have hwork : h.AtWork := atWork_of_phase hphase (by decide) rfl
  refine ⟨(hlife.roster hwork).2, ?_, ?_, hlife.concurring (.inr hphase)⟩
  · have hall : h.ready = h.connections.length := by simpa [allReady] using hready
    rw [hwaits.descriptions, hall, (hlife.length_connections hwork).1]
  · intro socket hsocket
    obtain ⟨c, hc, hid⟩ := hlife.connection hwork hsocket
    have hstate := hgathers.ready_of_allReady hlife.sound hready c hc
    obtain ⟨-, info, hinfo, hname, hnonzero⟩ := (hlife.sound.connections c hc).kept (.inl hstate)
    refine ⟨info, ?_, (hname.trans (hlife.sound.same c hc).2).trans hlife.tableName, hnonzero⟩
    rw [← hid]
    exact hwaits.told c hc info hinfo

theorem Life.agreement (hlife : Life table past h) (hphase : h.phase = .awaitingRendezvous)
    (hready : h.allReady) {rows : UInt64} (hresolves : h.Resolves hs rows h') :
    Agreement table (past ++ hs) (h.agreedRequest rows) := by
  obtain ⟨hmasters, hcomplete, hdescribed, halike⟩ := hlife.assembled hphase hready
  have hopen : openings hs = [] :=
    openings_of_still fun x hx => Happening.still_of_socket? (hresolves.sockets.1 x hx)
  refine ⟨?_, ?_, ?_, ?_⟩
  · rw [openings_append, hopen, List.append_nil, hmasters]
  · rw [descriptions_append, hresolves.undescribed, List.append_nil, hcomplete]
  · intro socket hsocket
    rw [openedSockets, openings_append, hopen, List.append_nil] at hsocket
    obtain ⟨info, hinfo, hname, hnonzero⟩ := hdescribed socket hsocket
    exact ⟨info, List.mem_append_left _ hinfo, hname, hnonzero,
      halike info (mem_descriptions hinfo)⟩
  · rw [lookups_append, (hlife.waits (.inr hphase)).lookups, List.nil_append]
    exact hresolves.lookedUp hlife.tableName

/-- All its life a handler asks for the data stream only after the masters have agreed. -/
theorem Life.asks (hlife : Life table past h) : Along (AsksAgreed table) [] past := by
  refine hlife.invariant ?_ ?_ ?_
  · intro hs h hopened
    exact along_of_unasked (unasked_of_isWord fun x hx => (hopened.overture x hx).isWord)
  · intro hs h hrefused
    obtain ⟨front, back, rfl, hfront, -, hback, -⟩ := hrefused.happenings
    refine along_of_unasked (unasked_of_isWord fun x hx => ?_)
    exact (List.mem_append.1 hx).elim (fun hx => (hfront x hx).isWord) fun hx => (hback x hx).2
  · intro past h hs h' hlife ih hturn
    refine along_append.2 ⟨ih, ?_⟩
    rcases hturn.asks with hunasked | hasks
    · exact along_of_unasked hunasked
    obtain ⟨first, rest, front, rows, h₁, back, hphase, hready, hconnections, hresolves,
        rfl, hback⟩ :=
      hasks
    refine along_append.2 ⟨along_of_unasked hresolves.unasked, ?_, along_of_unasked hback⟩
    rintro socket request ⟨⟩
    have hwork : h.AtWork := atWork_of_phase hphase (by decide) rfl
    have hagreement := hlife.agreement hphase hready hresolves
    have hopen : openings front = [] :=
      openings_of_still fun x hx => Happening.still_of_socket? (hresolves.sockets.1 x hx)
    refine ⟨?_, (hlife.head hwork hconnections).1, ?_, hagreement⟩
    · rw [List.nil_append, requests_append, (hlife.waits (.inr hphase)).requests,
        hresolves.unasked.requests, List.nil_append]
    · rw [(hlife.head hwork hconnections).2, List.nil_append, openedSockets, openedSockets,
        openings_append, hopen, List.append_nil]

theorem eq_queued_of_requested? {x : Happening} {request : RequestReplicationStream}
    (h : x.requested? = some request) :
    ∃ socket, x = .noted (.queued socket (.requestReplicationStream request)) := by
  unfold Happening.requested? at h
  split at h
  · cases h
    exact ⟨_, rfl⟩
  · cases h

theorem requests_of_along (halong : Along (AsksAgreed table) past hs)
    (hpast : (requests past).length ≤ 1) : (requests (past ++ hs)).length ≤ 1 := by
  induction hs generalizing past with
  | nil => simpa using hpast
  | cons x hs ih =>
    obtain ⟨hx, hrest⟩ := along_cons.1 halong
    have hnext : (requests (past ++ [x])).length ≤ 1 := by
      cases hrequested : x.requested? with
      | none => simpa [requests, hrequested] using hpast
      | some request =>
        obtain ⟨socket, rfl⟩ := eq_queued_of_requested? hrequested
        rw [requests_append, (hx socket request rfl).1]
        exact Nat.le_refl 1
    simpa using ih hrest hnext

theorem Life.requests_le (hlife : Life table past h) : (requests past).length ≤ 1 := by
  simpa using requests_of_along hlife.asks (Nat.zero_le 1)

/-! ### After the rendezvous -/

/-- The handler has asked for the data stream, and was not stopped since. -/
def HasAsked (h : Handler) : Prop :=
  h.phase = .requestingStream ∨ h.phase = .handingOff ∨ h.phase = .streaming

theorem HasAsked.atWork (hasked : h.HasAsked) : h.AtWork := by
  rcases hasked with hphase | hphase | hphase <;> exact atWork_of_phase hphase (by decide) rfl

/-- A handler at work waits for its masters, or has asked. -/
theorem gathering_or_asked (hwork : h.AtWork) : h.IsGathering ∨ h.HasAsked := by
  cases hphase : h.phase with
  | initializing => exact .inl (.inl hphase)
  | awaitingRendezvous => exact .inl (.inr hphase)
  | requestingStream => exact .inr (.inl hphase)
  | handingOff => exact .inr (.inr (.inl hphase))
  | streaming => exact .inr (.inr (.inr hphase))
  | stopping => exact absurd (.inl hphase) hwork
  | stopped | distressed => exact absurd (.inr (by rw [hphase]; rfl)) hwork

theorem Turn.hasAsked (hturn : Turn h hs h') (hasked : h'.HasAsked) :
    h.HasAsked ∧ h'.masterTableId = h.masterTableId ∨
      h.phase = .awaitingRendezvous ∧
        ∃ request, requests hs = [request] ∧ request.masterTableId = h'.masterTableId := by
  cases hturn.move_of_atWork hasked.atWork with
  | exchange => exact .inl ⟨hasked, rfl⟩
  | tableInfo hphase => rcases hphase with hphase | hphase <;> simp [HasAsked, hphase] at hasked
  | allConnected => simp [HasAsked] at hasked
  | @rendezvous _ first _ _ _ _ rows hphase _ _ hresolves hrequest =>
    obtain ⟨-, back, rfl, htraffic⟩ := hrequest.traffic
    refine .inr ⟨hphase, h.agreedRequest rows, ?_, by cases hresolves <;> rfl⟩
    have hrequests : requests (.noted (.queued first.socketId (.requestReplicationStream
        (h.agreedRequest rows))) :: back) = h.agreedRequest rows :: requests back := rfl
    rw [requests_append, requests_append, hresolves.unasked.requests, hrequests,
      (unasked_of_traffic htraffic).requests]
    rfl
  | streamStart hphase => exact .inl ⟨.inl hphase, rfl⟩
  | writerTaken hphase | writerRefused hphase => exact .inl ⟨.inr (.inl hphase), rfl⟩
  | write hhands | socketTaken hhands | socketRefused hhands | waits hhands =>
    exact .inl ⟨.inr (.inl hhands.1), rfl⟩
  | streams _ hphase => exact .inl ⟨.inr (.inl hphase), rfl⟩
  | fails => exact absurd hasked.atWork (not_atWork_stopping rfl)
  | stopAccepted hphase | stopRefused hphase => simp [HasAsked, hphase] at hasked

/-- A handler that has asked for the stream did so once, for the table that it goes on with. -/
theorem Life.asked (hlife : Life table past h) :
    h.HasAsked → ∃ request, requests past = [request] ∧
      request.masterTableId = h.masterTableId := by
  refine hlife.invariant ?_ ?_ ?_
  · intro hs h hopened hasked
    simp [HasAsked, hopened.phase] at hasked
  · intro hs h hrefused hasked
    simp [HasAsked, hrefused.phase] at hasked
  · intro past h hs h' hlife ih hturn hasked
    rcases hturn.hasAsked hasked with ⟨hasked₀, hid⟩ | ⟨hphase, request, hrequests, hid⟩
    · obtain ⟨request, hrequests, hid₀⟩ := ih hasked₀
      refine ⟨request, ?_, hid₀.trans hid.symm⟩
      rcases hturn.asks with hunasked | ⟨_, _, _, _, _, _, hphase, -⟩
      · rw [requests_append, hunasked.requests, hrequests, List.append_nil]
      · simp [HasAsked, hphase] at hasked₀
    · refine ⟨request, ?_, hid⟩
      rw [requests_append, (hlife.waits (.inr hphase)).requests, hrequests, List.nil_append]

/-! ### The last description -/

theorem undescribed_of_traffic {c : Connection} (h : ∀ x ∈ hs, Connection.Traffic c x) :
    descriptions hs = [] :=
  (Connection.wordless_of_traffic h).descriptions

theorem undescribed_of_start {c c' : Connection} {start : StartOfReplicationStream}
    (h : Connection.Hear c hs (.streamStart start) c') : descriptions hs = [] := by
  cases h with
  | accept _ _ haccept => cases haccept; rfl

theorem Fault.undescribed {f : Failure} (hfault : Fault h hs f h') (hno : ¬h.IsGathering) :
    descriptions hs = [] := by
  cases hfault with
  | timeout => rfl
  | connection _ _ hfault | handoff _ hfault => exact undescribed_of_traffic hfault.traffic.2
  | divergence hphase => exact absurd hphase hno
  | tableExists hphase | openWriter hphase | mismatch hphase | request hphase =>
    exact absurd (.inr hphase) hno
  | createTable _ _ hhear =>
    rw [descriptions_append, undescribed_of_start hhear]
    rfl

/-- Only a handler that waits for its masters hears a description. -/
theorem Move.undescribed (hmove : Move h hs h') (hno : ¬h.IsGathering) :
    descriptions hs = [] ∧ ¬h'.IsGathering := by
  cases hmove with
  | exchange _ _ hstep => exact ⟨undescribed_of_traffic hstep.traffic.2, hno⟩
  | tableInfo hphase => exact absurd hphase hno
  | allConnected hphase => exact absurd (.inl hphase) hno
  | rendezvous hphase => exact absurd (.inr hphase) hno
  | @streamStart _ _ _ _ hs' _ _ _ _ hhear hsupplies =>
    have hsupplied : descriptions hs' = [] := by cases hsupplies <;> rfl
    refine ⟨?_, by simp [IsGathering]⟩
    rw [descriptions_append, descriptions_append, undescribed_of_start hhear, hsupplied]
    rfl
  | writerTaken | writerRefused | waits | stopAccepted | stopRefused => exact ⟨rfl, hno⟩
  | write _ hwrite => exact ⟨undescribed_of_traffic hwrite.traffic.2, hno⟩
  | socketTaken _ hoffer => exact ⟨by cases hoffer; rfl, hno⟩
  | socketRefused _ hoffer => exact ⟨by cases hoffer; rfl, hno⟩
  | streams => exact ⟨rfl, by simp [IsGathering]⟩
  | @fails h₁ _ f hfault =>
    refine ⟨?_, fun hgathering => absurd hgathering.atWork (not_atWork_stopping rfl)⟩
    rw [descriptions_append, hfault.undescribed hno, List.nil_append]
    exact (wordless_of_forall (h₁.stopForHappenings_isWord f.kind)).descriptions

theorem undescribed_of_way (hway : Way Move h hs h') (hno : ¬h.IsGathering) :
    descriptions hs = [] ∧ ¬h'.IsGathering := by
  induction hway with
  | refl => exact ⟨rfl, hno⟩
  | tail _ hmove ih =>
    obtain ⟨hnone, hno'⟩ := ih
    obtain ⟨hnone', hno''⟩ := hmove.undescribed hno'
    exact ⟨by rw [descriptions_append, hnone, hnone', List.append_nil], hno''⟩

/-- With the last description the waiting comes to its end. -/
theorem Life.not_isGathering (hlife : Life table past h) (hsettled : h.Settled)
    (hall : (descriptions past).length = table.masters.length) : ¬h.IsGathering := by
  intro hgathering
  have hready : h.allReady = true := by
    rw [allReady, decide_eq_true_eq, ← (hlife.waits hgathering).descriptions, hall,
      (hlife.length_connections hgathering.atWork).1]
  rw [hsettled.gathering hgathering] at hready
  cases hready

/-- Once all masters have described the table, a handler at work has asked for the data stream. -/
theorem Life.asked_of_complete (hlife : Life table past h) (hsettled : h.Settled) (hwork : h.AtWork)
    (hall : (descriptions past).length = table.masters.length) :
    ∃ request, requests past = [request] := by
  have hasked := (gathering_or_asked hwork).resolve_left (hlife.not_isGathering hsettled hall)
  obtain ⟨request, hrequests, -⟩ := hlife.asked hasked
  exact ⟨request, hrequests⟩

/-- In the poll by which the last master has described the table, the data stream is asked for, or
the handler fails. -/
theorem Life.concludes {now : Instant} (hlife : Life table past h)
    (hbefore : (descriptions past).length < table.masters.length) :
    Work.Always (poll now) h fun hs _ h' =>
      (descriptions (past ++ hs)).length = table.masters.length →
        (∃ request, requests hs = [request]) ∧ h'.phase = .requestingStream ∨
          h'.phase = .stopping ∧ h'.failure.isSome := by
  refine (poll_moves hlife.sound).mono ?_
  rintro hs _ h' ⟨hway, hsettled, hnext⟩ hafter
  have hlife' : Life table (past ++ hs) h' := hlife.of_way (hway.mono fun _ _ _ => .move)
  by_cases hgathering : h.IsGathering
  case neg =>
    obtain ⟨hnone, -⟩ := undescribed_of_way hway hgathering
    rw [descriptions_append, hnone, List.append_nil] at hafter
    omega
  rcases hnext hgathering with hgathering' | hphase | hstopping
  · exact absurd hgathering' (hlife'.not_isGathering hsettled hafter)
  · obtain ⟨request, hrequests, -⟩ := hlife'.asked (.inl hphase)
    rw [requests_append, (hlife.waits hgathering).requests, List.nil_append] at hrequests
    exact .inl ⟨⟨request, hrequests⟩, hphase⟩
  · exact .inr hstopping

end ReplicaHandshake.Handler
