import ReplicaHandshake.Proofs.Handler.Course
import ReplicaHandshake.Proofs.Handler.Schema

/-!
# How a handler uses the local store

A handler asks the store whether its table is there, when all masters have described it.  A table
that is there is opened at once.  A table that is not there is created when the data stream starts,
from what it starts with.  All this a handler does once at most, whatever comes of it (`StoreUse`).

`Consults` says what a turn asks of the store.  What was decided at the rendezvous is known later by
the writer alone:  while a handler has created no table (`Life.uncreated`), all that it asked of the
store are the lookups of the rendezvous, and without a writer there was no table (`Vouches.absent`).
-/

namespace ReplicaHandshake

/-- Whether the local store is asked for a table, or told to open or to create one. -/
def Happening.isStoreCall : Happening → Bool
  | answered (.tableExists _) _ => true
  | answered (.openWriter _) _ => true
  | answered (.createTable _ _ _) _ => true
  | _ => false

/-- The calls of the local store, with its answers. -/
def storeCalls (hs : List Happening) : List Happening :=
  hs.filter (·.isStoreCall)

@[simp] theorem storeCalls_append (past hs : List Happening) :
    storeCalls (past ++ hs) = storeCalls past ++ storeCalls hs :=
  List.filter_append ..

theorem lookups_of_storeCalls {hs : List Happening} (h : storeCalls hs = []) : lookups hs = [] := by
  refine List.filter_eq_nil_iff.2 fun x hx hlookup => List.filter_eq_nil_iff.1 h x hx ?_
  unfold Happening.isLookup at hlookup
  split at hlookup <;> first | rfl | cases hlookup

namespace Handler

variable {h h' : Handler} {past hs back : List Happening} {table : TableSettings}

/-- All that is ever asked of the store on behalf of a table. -/
inductive StoreUse (table : TableSettings) : List Happening → Prop where
  | nothing : StoreUse table []
  | asked (answer : Except StoreError Bool) : StoreUse table
    [.answered (.tableExists table.tableName) answer]
  | opened (answer : Except StoreError TableWriter) :
      StoreUse table
        [.answered (.tableExists table.tableName) (.ok true),
          .answered (.openWriter table.tableName) answer]
  | created (metadata symbols : Bytes) (answer : Except StoreError TableWriter) :
      StoreUse table
        [.answered (.tableExists table.tableName) (.ok false),
          .answered (.createTable table.tableName metadata symbols) answer]

/-! ### What calls no store -/

theorem storeCalls_of_traffic {c : Connection} (h : ∀ x ∈ hs, Connection.Traffic c x) :
    storeCalls hs = [] :=
  List.filter_eq_nil_iff.2 fun x hx => by cases h x hx <;> exact Bool.false_ne_true

theorem storeCalls_of_request {c c' : Connection} {r : RequestReplicationStream}
    (h : Connection.Request r c hs c') :
    storeCalls hs = [] := by
  obtain ⟨-, back, rfl, htraffic⟩ := h.traffic
  have hnone : storeCalls back = [] := storeCalls_of_traffic htraffic
  exact hnone

theorem storeCalls_of_requestFault {c c' : Connection} {r : RequestReplicationStream} {f : Failure}
    (h : Connection.RequestFault r c hs f c') : storeCalls hs = [] := by
  obtain ⟨-, rfl | ⟨back, rfl, htraffic⟩⟩ := h.traffic
  · rfl
  · have hnone : storeCalls back = [] := storeCalls_of_traffic htraffic
    exact hnone

theorem storeCalls_of_hear {c c' : Connection} {event : ConnectionEvent}
    (h : Connection.Hear c hs event c') :
    storeCalls hs = [] := by
  cases h
  rfl

theorem storeCalls_of_offer {c c' : Connection} {taken : Bool}
    (h : Connection.Offer c hs taken c') :
    storeCalls hs = [] := by
  cases h <;> rfl

theorem storeCalls_of_opens {cs cs' : List Connection} {f : Option Failure}
    (h : Opens cs hs f cs') :
    storeCalls hs = [] :=
  List.filter_eq_nil_iff.2 fun x hx => by cases h.overture x hx <;> exact Bool.false_ne_true

theorem storeCalls_stop (h : Handler) : storeCalls h.stopHappenings = [] := by
  refine List.filter_eq_nil_iff.2 fun x hx => ?_
  obtain rfl | hx := mem_stopHappenings hx
  · exact Bool.false_ne_true
  · cases hx <;> exact Bool.false_ne_true

theorem storeCalls_stopFor (h : Handler) (kind : String) :
    storeCalls (h.stopForHappenings kind) = [] :=
  h.storeCalls_stop

theorem Begins.storeCalls (hbegins : Begins h hs h') : ReplicaHandshake.storeCalls hs = [] := by
  have hgreetings : ReplicaHandshake.storeCalls h.greetings = [] := rfl
  cases hbegins with
  | opens hopens => rw [storeCalls_append, hgreetings, storeCalls_of_opens hopens, List.append_nil]
  | fails hopens =>
    rw [storeCalls_append, storeCalls_append, hgreetings, storeCalls_of_opens hopens,
      storeCalls_stopFor, List.append_nil, List.append_nil]

/-! ### What a turn asks -/

theorem Resolves.storeCalls {rows : UInt64} (h : h.Resolves hs rows h') :
    ReplicaHandshake.storeCalls hs = lookups hs := by
  cases h <;> rfl

/-- What a turn asks of the store. -/
inductive Consults (h : Handler) : List Happening → Prop where
  | nothing {hs : List Happening} : storeCalls hs = [] → Consults h hs
  | asks {back : List Happening} (answer : Except StoreError Bool) :
      h.phase = .awaitingRendezvous → h.allReady → storeCalls back = [] →
      Consults h (.answered (.tableExists h.tableName) answer :: back)
  | opens {back : List Happening} (answer : Except StoreError TableWriter) :
      h.phase = .awaitingRendezvous → h.allReady → storeCalls back = [] →
      Consults h
        (.answered (.tableExists h.tableName) (.ok true) ::
          .answered (.openWriter h.tableName) answer :: back)
  | creates {first first' : Connection} {rest : List Connection} {front back : List Happening}
      {start : StartOfReplicationStream} (answer : Except StoreError TableWriter) :
      h.phase = .requestingStream → h.writer = none → h.connections = first :: rest →
      Connection.Hear first front (.streamStart start) first' → storeCalls back = [] →
      Consults h
        (front ++ .answered (.createTable h.tableName start.metadata start.symbols) answer :: back)

theorem Consults.append (h₀ : Consults h hs) (hback : storeCalls back = []) :
    Consults h (hs ++ back) := by
  have hall : ∀ {front : List Happening}, storeCalls front = [] →
      storeCalls (front ++ back) = [] := by
    intro front hfront
    rw [storeCalls_append, hfront, hback, List.append_nil]
  cases h₀ with
  | nothing hnone => exact .nothing (hall hnone)
  | asks answer hphase hready hnone => exact .asks answer hphase hready (hall hnone)
  | opens answer hphase hready hnone => exact .opens answer hphase hready (hall hnone)
  | creates answer hphase hwriter hconnections hhear hnone =>
    rw [List.append_assoc]
    exact .creates answer hphase hwriter hconnections hhear (hall hnone)

theorem Resolves.consults {rows : UInt64} (h₀ : h.Resolves hs rows h')
    (hphase : h.phase = .awaitingRendezvous) (hready : h.allReady) : Consults h hs := by
  cases h₀ with
  | absent => exact .asks _ hphase hready rfl
  | present => exact .opens _ hphase hready rfl

theorem Fault.consults {f : Failure} (hfault : Fault h hs f h') : Consults h hs := by
  cases hfault with
  | timeout => exact .nothing rfl
  | connection _ _ hfault | handoff _ hfault =>
    exact .nothing (storeCalls_of_traffic hfault.traffic.2)
  | divergence _ _ hhear => exact .nothing (storeCalls_of_hear hhear)
  | tableExists hphase hready => exact .asks _ hphase hready rfl
  | openWriter hphase hready => exact .opens _ hphase hready rfl
  | mismatch hphase hready => exact .opens _ hphase hready rfl
  | request hphase hready _ hresolves hrequest =>
    exact (hresolves.consults hphase hready).append (storeCalls_of_requestFault hrequest)
  | createTable hphase hconnections hhear hwriter =>
    exact .creates _ hphase hwriter hconnections hhear rfl

theorem Move.consults (hmove : Move h hs h') : Consults h hs := by
  cases hmove with
  | exchange _ _ hstep => exact .nothing (storeCalls_of_traffic hstep.traffic.2)
  | tableInfo _ _ hhear => exact .nothing (storeCalls_of_hear hhear)
  | allConnected | writerTaken | writerRefused | waits | streams | stopAccepted | stopRefused =>
    exact .nothing rfl
  | rendezvous hphase hready _ hresolves hrequest =>
    rw [List.append_assoc]
    refine (hresolves.consults hphase hready).append ?_
    rw [storeCalls_append, storeCalls_of_request hrequest]
    rfl
  | streamStart hphase hconnections hhear hsupplies =>
    cases hsupplies with
    | kept =>
      rw [List.append_nil]
      refine .nothing ?_
      rw [storeCalls_append, storeCalls_of_hear hhear]
      rfl
    | created hwriter =>
      rw [List.append_assoc]
      exact .creates _ hphase hwriter hconnections hhear rfl
  | write _ hwrite => exact .nothing (storeCalls_of_traffic hwrite.traffic.2)
  | socketTaken _ hoffer => exact .nothing (storeCalls_of_offer hoffer)
  | socketRefused _ hoffer =>
    refine .nothing ?_
    rw [storeCalls_append, storeCalls_of_offer hoffer]
    rfl
  | @fails h₁ _ f hfault => exact hfault.consults.append (h₁.storeCalls_stopFor f.kind)

theorem Turn.consults (hturn : Turn h hs h') : Consults h hs := by
  cases hturn with
  | move hmove => exact hmove.consults
  | stops => exact .nothing h.storeCalls_stop
  | loses => exact .nothing (storeCalls_stopFor _ _)
  | letsGo | finishes | concludes => exact .nothing rfl

/-! ### What was asked so far -/

/-- While the handler waits for its masters or for the data stream, it has created no table. -/
def Uncreated (past : List Happening) (h : Handler) : Prop :=
  h.IsGathering ∨ h.phase = .requestingStream → storeCalls past = lookups past

theorem Turn.uncreated (hturn : Turn h hs h') (ih : Uncreated past h) :
    Uncreated (past ++ hs) h' := by
  intro hwaits
  have hwork : h'.AtWork :=
    hwaits.elim IsGathering.atWork fun hphase => HasAsked.atWork (.inl hphase)
  have hall : h.IsGathering ∨ h.phase = .requestingStream → storeCalls hs = lookups hs →
      storeCalls (past ++ hs) = lookups (past ++ hs) := by
    intro hwaits heq
    rw [storeCalls_append, lookups_append, ih hwaits, heq]
  have hnone : h.IsGathering ∨ h.phase = .requestingStream → storeCalls hs = [] →
      storeCalls (past ++ hs) = lookups (past ++ hs) := fun hwaits hnone =>
    hall hwaits (hnone.trans (lookups_of_storeCalls hnone).symm)
  cases hturn.move_of_atWork hwork with
  | exchange _ _ hstep => exact hnone hwaits (storeCalls_of_traffic hstep.traffic.2)
  | tableInfo hphase _ hhear => exact hnone (.inl hphase) (storeCalls_of_hear hhear)
  | allConnected hphase => exact hnone (.inl (.inl hphase)) rfl
  | rendezvous hphase _ _ hresolves hrequest =>
    refine hall (.inl (.inr hphase)) ?_
    have hnone := storeCalls_of_request hrequest
    rw [storeCalls_append, storeCalls_append, lookups_append, lookups_append, hresolves.storeCalls,
      hnone, lookups_of_storeCalls hnone]
    rfl
  | streamStart | streams => simp [IsGathering] at hwaits
  | writerTaken hphase | writerRefused hphase | stopAccepted hphase | stopRefused hphase =>
    simp [IsGathering, hphase] at hwaits
  | write hhands | socketTaken hhands | socketRefused hhands | waits hhands =>
    simp [IsGathering, hhands.1] at hwaits
  | fails => exact absurd hwork (not_atWork_stopping rfl)

theorem Life.uncreated (hlife : Life table past h) : Uncreated past h := by
  induction hlife with
  | begins _ hbegins =>
    intro _
    rw [hbegins.storeCalls, lookups_of_storeCalls hbegins.storeCalls]
  | turns _ hturn ih => exact hturn.uncreated ih

theorem Life.storeCalls_of_gathering (hlife : Life table past h) (hphase : h.IsGathering) :
    storeCalls past = [] :=
  (hlife.uncreated (.inl hphase)).trans (hlife.waits hphase).lookups

/-- Without a writer, a handler that waits for the data stream has asked for its table, which
was not there. -/
theorem Life.storeCalls_of_absent (hlife : Life table past h) (hphase : h.phase = .requestingStream)
    (hwriter : h.writer = none) :
    storeCalls past = [.answered (.tableExists table.tableName) (.ok false)] := by
  obtain ⟨request, hvouches⟩ := hlife.vouches (.inl hphase)
  exact (hlife.uncreated (.inr hphase)).trans (hvouches.absent hphase hwriter)

theorem Consults.use (h₀ : Consults h hs) (hlife : Life table past h)
    (ih : StoreUse table (storeCalls past)) :
    StoreUse table (storeCalls (past ++ hs)) := by
  rw [storeCalls_append]
  cases h₀ with
  | nothing hnone => rwa [hnone, List.append_nil]
  | @asks back answer hphase hready hnone =>
    have hcalls : storeCalls (.answered (.tableExists h.tableName) answer :: back) =
        .answered (.tableExists h.tableName) answer :: storeCalls back := rfl
    rw [hlife.storeCalls_of_gathering (.inr hphase), hcalls, hnone, hlife.tableName]
    exact .asked answer
  | @opens back answer hphase hready hnone =>
    have hcalls : storeCalls (.answered (.tableExists h.tableName) (.ok true) ::
        .answered (.openWriter h.tableName) answer :: back) =
          .answered (.tableExists h.tableName) (.ok true) ::
            .answered (.openWriter h.tableName) answer :: storeCalls back := rfl
    rw [hlife.storeCalls_of_gathering (.inr hphase), hcalls, hnone, hlife.tableName]
    exact .opened answer
  | @creates _ _ _ _ back start answer hphase hwriter _ hhear hnone =>
    have hcalls :
        storeCalls (.answered (.createTable h.tableName start.metadata start.symbols) answer ::
          back) =
        .answered (.createTable h.tableName start.metadata start.symbols) answer ::
          storeCalls back := rfl
    rw [hlife.storeCalls_of_absent hphase hwriter, storeCalls_append, storeCalls_of_hear hhear,
      hcalls, hnone, hlife.tableName]
    exact .created _ _ answer

/-- All its life a handler asks its store for no more than the whole use of it. -/
theorem Life.storeUse (hlife : Life table past h) : StoreUse table (storeCalls past) := by
  induction hlife with
  | begins _ hbegins =>
    rw [hbegins.storeCalls]
    exact .nothing
  | turns hlife hturn ih => exact hturn.consults.use hlife ih

/-! ### When it is asked -/

/-- All masters have described the table, and the data stream was not asked for. -/
structure AtRendezvous (table : TableSettings) (past : List Happening) : Prop where
  phase : (phases past).getLast? = some Phase.awaitingRendezvous.name
  unasked : requests past = []
  assembled : ∃ masterTableId structureVersion, Assembled table past masterTableId structureVersion

/-- Of all that happened, the last is that the first socket has accepted the start of the data
stream, for the table that it has described before. -/
def HasStarted (past : List Happening) (start : StartOfReplicationStream) : Prop :=
  ∃ front socket info,
    past = front ++ [.noted (.accepted (some socket) (.startOfReplicationStream start))] ∧
    (openedSockets front).head? = some socket ∧
    .noted (.accepted (some socket) (.tableInfo info)) ∈ front ∧
    info.masterTableId = start.masterTableId

/-- When the store is called, and with what. -/
def CallsInTurn (table : TableSettings) (past : List Happening) : Happening → Prop
  | .answered (.tableExists tableName) _ =>
    tableName = table.tableName ∧ storeCalls past = [] ∧ AtRendezvous table past
  | .answered (.openWriter tableName) _ =>
    tableName = table.tableName ∧
      ∃ front, past = front ++ [.answered (.tableExists tableName) (.ok true)] ∧
      storeCalls front = [] ∧ AtRendezvous table front
  | .answered (.createTable tableName metadata symbols) _ =>
    tableName = table.tableName ∧
      storeCalls past = [.answered (.tableExists tableName) (.ok false)] ∧
      ∃ start, HasStarted past start ∧ metadata = start.metadata ∧ symbols = start.symbols
  | _ => True

theorem callsInTurn_of_isStoreCall {x : Happening} (h : x.isStoreCall = false)
    (past : List Happening) :
    CallsInTurn table past x := by
  unfold CallsInTurn
  split <;> trivial

theorem along_of_storeCalls (h : storeCalls hs = []) : Along (CallsInTurn table) past hs := by
  refine along_of_forall fun x hx past => callsInTurn_of_isStoreCall ?_ past
  simpa using List.filter_eq_nil_iff.1 h x hx

theorem Life.atRendezvous (hlife : Life table past h) (hphase : h.phase = .awaitingRendezvous)
    (hready : h.allReady) :
    AtRendezvous table past where
  phase := by rw [hlife.phase, hphase]
  unasked := (hlife.waits (.inr hphase)).requests
  assembled := ⟨_, _, hlife.assembled hphase hready⟩

theorem Life.hasStarted (hlife : Life table past h) {first first' : Connection}
    {rest : List Connection} {start : StartOfReplicationStream}
    (hphase : h.phase = .requestingStream) (hconnections : h.connections = first :: rest)
    (hhear : Connection.Hear first hs (.streamStart start) first') :
    HasStarted (past ++ hs) start := by
  obtain ⟨request, hvouches⟩ := hlife.vouches (.inl hphase)
  obtain ⟨hsome, hhead⟩ := hlife.head (HasAsked.atWork (.inl hphase)) hconnections
  obtain ⟨socket, hsocket⟩ := Option.isSome_iff_exists.1 hsome
  rw [hsocket] at hhead
  obtain ⟨info, hinfo, -, -, hid, -⟩ :=
    hvouches.agreement.described socket (List.mem_of_mem_head? (Option.mem_def.2 hhead.symm))
  have hagreed :=
    (hlife.sound.requests hphase).agreed first (by rw [hconnections]; exact List.mem_cons_self)
  cases hhear with
  | accept _ _ haccept =>
    cases haccept with
    | @streamStart told _ _ htold hsame =>
      refine ⟨past ++ [.reported (.frameReceived FrameKind.startOfReplicationStream.name)], socket,
        info, ?_, ?_, List.mem_append_left _ hinfo, ?_⟩
      · rw [hsocket, List.append_assoc]
        rfl
      · rw [openedSockets_append, List.head?_append, ← hhead]
        rfl
      · rw [hid, hvouches.masterTableId, ← (hagreed told htold).1, hsame]

theorem Consults.along (h₀ : Consults h hs) (hlife : Life table past h) :
    Along (CallsInTurn table) past hs := by
  cases h₀ with
  | nothing hnone => exact along_of_storeCalls hnone
  | asks answer hphase hready hnone =>
    exact ⟨⟨hlife.tableName, hlife.storeCalls_of_gathering (.inr hphase),
      hlife.atRendezvous hphase hready⟩, along_of_storeCalls hnone⟩
  | opens answer hphase hready hnone =>
    have hnothing := hlife.storeCalls_of_gathering (.inr hphase)
    have hmeeting := hlife.atRendezvous hphase hready
    exact ⟨⟨hlife.tableName, hnothing, hmeeting⟩, ⟨hlife.tableName, past, rfl, hnothing, hmeeting⟩,
      along_of_storeCalls hnone⟩
  | creates answer hphase hwriter hconnections hhear hnone =>
    have hunasked := storeCalls_of_hear hhear
    refine along_append.2 ⟨along_of_storeCalls hunasked, ⟨hlife.tableName, ?_, _,
      hlife.hasStarted hphase hconnections hhear, rfl, rfl⟩, along_of_storeCalls hnone⟩
    rw [storeCalls_append, hlife.storeCalls_of_absent hphase hwriter, hunasked, hlife.tableName]
    rfl

theorem Life.calls (hlife : Life table past h) : Along (CallsInTurn table) [] past := by
  induction hlife with
  | begins _ hbegins => exact along_of_storeCalls hbegins.storeCalls
  | turns hlife hturn ih => exact along_append.2 ⟨ih, hturn.consults.along hlife⟩

/-! ### Another version -/

theorem Assembled.version_eq {masterTableId : UInt32} {structureVersion : UInt64}
    {request : RequestReplicationStream}
    (hassembled : Assembled table past masterTableId structureVersion)
    (hagreement : Agreement table (past ++ hs) request) {socket : SocketId}
    (hsocket : socket ∈ openedSockets (past ++ hs)) :
    request.structureVersion = structureVersion := by
  have hlength := hagreement.complete
  rw [descriptions_append, List.length_append, hassembled.complete] at hlength
  have hnone : descriptions hs = [] := List.eq_nil_of_length_eq_zero (by omega)
  obtain ⟨info, hinfo, -, -, -, hversion⟩ := hagreement.described socket hsocket
  have hmem := mem_descriptions hinfo
  rw [descriptions_append, hnone, List.append_nil] at hmem
  rw [← hversion, (hassembled.alike info hmem).2]

/-- Once a writer was opened, the data stream is asked for only if all masters have
reported its version. -/
theorem Life.version_of_opened (hlife : Life table past h) {before mid after : List Happening}
    {tableName : String} {writer : TableWriter} {socket : Option SocketId}
    {request : RequestReplicationStream}
    (hpast : past = before ++ .answered (.openWriter tableName) (.ok writer) ::
      (mid ++ .noted (.queued socket (.requestReplicationStream request)) :: after)) :
    ∀ info ∈ descriptions before, info.structureVersion = writer.structureVersion := by
  have hcalls := hlife.calls
  have hasks := hlife.asks
  rw [hpast] at hcalls hasks
  rw [← List.cons_append, ← List.append_assoc] at hasks
  have hasked : AsksAgreed table _ _ := hasks.split
  obtain ⟨-, hsome, hsocket, hagreement⟩ := hasked socket request rfl
  have hcalled : CallsInTurn table _ _ := hcalls.split
  obtain ⟨rfl, front, rfl, hnone, -, -, masterTableId, structureVersion, hassembled⟩ := hcalled
  have hlookups : lookups (front ++ [.answered (.tableExists table.tableName) (.ok true)] ++
      .answered (.openWriter table.tableName) (.ok writer) :: mid) =
        .answered (.tableExists table.tableName) (.ok true) ::
          .answered (.openWriter table.tableName) (.ok writer) :: lookups mid := by
    rw [lookups_append, lookups_append, lookups_of_storeCalls hnone]
    rfl
  have hlookedUp := hagreement.lookedUp
  rw [hlookups] at hlookedUp
  obtain ⟨first, hfirst⟩ := Option.isSome_iff_exists.1 hsome
  have hmem := List.mem_of_mem_head? (Option.mem_def.2 (hsocket.symm.trans hfirst))
  rw [List.append_assoc] at hagreement hmem
  have hsame := hassembled.version_eq hagreement hmem
  generalize lookups mid = more at hlookedUp
  cases hlookedUp with
  | present hversion =>
    intro info hinfo
    rw [descriptions_append] at hinfo
    obtain hinfo | hinfo := List.mem_append.1 hinfo
    · rw [(hassembled.alike info hinfo).2, hversion, hsame]
    · cases hinfo

/-- If a master has reported another version than that of the writer that was opened, then the data
stream is never asked for. -/
theorem Life.unasked_of_mismatch (hlife : Life table past h) {before after : List Happening}
    {tableName : String} {writer : TableWriter} {info : TableInfo}
    (hpast : past = before ++ .answered (.openWriter tableName) (.ok writer) :: after)
    (hinfo : info ∈ descriptions before)
    (hother : info.structureVersion ≠ writer.structureVersion) :
    requests past = [] := by
  have hcalls := hlife.calls
  rw [hpast] at hcalls
  have hcalled : CallsInTurn table _ _ := hcalls.split
  obtain ⟨-, front, rfl, -, hmeeting⟩ := hcalled
  have hafter : requests after = [] := by
    refine List.filterMap_eq_nil_iff.2 fun x hx => Option.eq_none_iff_forall_ne_some.2
      fun request hrequest => ?_
    obtain ⟨socket, rfl⟩ := eq_queued_of_requested? hrequest
    obtain ⟨mid, rest, rfl⟩ := List.append_of_mem hx
    exact hother (hlife.version_of_opened hpast info hinfo)
  rw [hpast, requests_append, requests_append, hmeeting.unasked]
  exact hafter

end Handler

end ReplicaHandshake
