import ReplicaHandshake.Proofs.Handler.Handoff

/-!
# The schema of what is handed over

There are two ways to come by a writer (`Procured`).  That of a table that is there is opened at the
rendezvous, and kept only if its structure version is the one that all masters have reported.  That
of any other table is created from what the data stream starts with, and goes to the multiplexer as
the store has made it.

All its life a handler offers only a writer that it has come by in one of these ways, for a table on
which its masters have agreed (`Life.vouches`).
-/

namespace ReplicaHandshake.Handler

variable {h h' : Handler} {past hs : List Happening} {table : TableSettings}

/-! ### Where a writer comes from -/

/-- How the writer of a table was come by, if the masters have reported this structure version. -/
inductive Procured (table : TableSettings) (past : List Happening) (version : UInt64)
    (writer : TableWriter) : Prop where
  /-- The table was there, and has the version. -/
  | opened :
      lookups past =
        [.answered (.tableExists table.tableName) (.ok true),
          .answered (.openWriter table.tableName) (.ok writer)] →
      writer.structureVersion = version → Procured table past version writer
  /-- The table was not there, and the store has made it from what the first master has sent. -/
  | created (start : StartOfReplicationStream) :
      lookups past = [.answered (.tableExists table.tableName) (.ok false)] →
      .noted (.accepted (openedSockets past).head? (.startOfReplicationStream start)) ∈ past →
      .answered (.createTable table.tableName start.metadata start.symbols) (.ok writer) ∈ past →
      Procured table past version writer

/-- Nothing is heard of masters, and nothing of tables that are there. -/
structure NoNews (hs : List Happening) : Prop where
  openings : openings hs = []
  descriptions : descriptions hs = []
  lookups : lookups hs = []

theorem NoNews.openedSockets_eq (h : NoNews hs) (past : List Happening) :
    openedSockets (past ++ hs) = openedSockets past := by
  rw [openedSockets, openings_append, h.openings, List.append_nil, openedSockets]

theorem lookups_of_noNews (h : NoNews hs) (past : List Happening) :
    lookups (past ++ hs) = lookups past := by
  rw [lookups_append, h.lookups, List.append_nil]

theorem Procured.mono {version : UInt64} {writer : TableWriter}
    (h : Procured table past version writer) (hnews : NoNews hs) :
    Procured table (past ++ hs) version writer := by
  cases h with
  | opened hlookups hversion =>
    exact .opened ((lookups_of_noNews hnews past).trans hlookups) hversion
  | created start hlookups hstart hmade =>
    refine .created start ((lookups_of_noNews hnews past).trans hlookups) ?_
      (List.mem_append_left _ hmade)
    rw [hnews.openedSockets_eq]
    exact List.mem_append_left _ hstart

theorem Agreement.mono {request : RequestReplicationStream} (h : Agreement table past request)
    (hnews : NoNews hs) : Agreement table (past ++ hs) request := by
  obtain ⟨hmasters, hcomplete, hdescribed, hlookedUp⟩ := h
  refine ⟨?_, ?_, fun socket hsocket => ?_, ?_⟩
  · rw [openings_append, hnews.openings, List.append_nil, hmasters]
  · rw [descriptions_append, hnews.descriptions, List.append_nil, hcomplete]
  · rw [hnews.openedSockets_eq] at hsocket
    obtain ⟨info, hinfo, hsays⟩ := hdescribed socket hsocket
    exact ⟨info, List.mem_append_left _ hinfo, hsays⟩
  · rwa [lookups_of_noNews hnews]

/-! ### After the rendezvous -/

theorem HasAsked.not_isGathering (hasked : h.HasAsked) : ¬h.IsGathering := by
  rcases hasked with hphase | hphase | hphase <;> simp [IsGathering, hphase]

theorem Turn.noNews (hturn : Turn h hs h') (hsound : h.Sound) (hasked : h.HasAsked)
    (hwork : h'.AtWork) :
    NoNews hs := by
  have hmove := hturn.move_of_atWork hwork
  have hno := hasked.not_isGathering
  refine ⟨(hturn.sockets hsound).1, (hmove.undescribed hno).1, ?_⟩
  cases hmove with
  | exchange _ _ hstep => exact (Connection.wordless_of_traffic hstep.traffic.2).lookups
  | tableInfo hphase => exact absurd hphase hno
  | allConnected hphase => exact absurd (.inl hphase) hno
  | rendezvous hphase => exact absurd (.inr hphase) hno
  | @streamStart _ _ _ front back _ _ _ _ hhear hsupplies =>
    have hheard : lookups front = [] := by
      cases hhear with
      | accept _ _ haccept => cases haccept; rfl
    have hsupplied : lookups back = [] := by cases hsupplies <;> rfl
    rw [lookups_append, lookups_append, hheard, hsupplied]
    rfl
  | write _ hwrite => exact (Connection.wordless_of_traffic hwrite.traffic.2).lookups
  | socketTaken _ hoffer => cases hoffer; rfl
  | socketRefused _ hoffer => cases hoffer; rfl
  | writerTaken | writerRefused | waits | streams | stopAccepted | stopRefused => rfl
  | fails => exact absurd hwork (not_atWork_stopping rfl)

/-- The masters of a handler have agreed on the table, and its writer was come by for what
they have said. -/
structure Vouches (table : TableSettings) (past : List Happening) (h : Handler)
    (request : RequestReplicationStream) : Prop where
  agreement : Agreement table past request
  masterTableId : request.masterTableId = h.masterTableId
  /-- Without a writer the handler waits for the stream of a table that is not there. -/
  absent : h.phase = .requestingStream → h.writer = none →
    lookups past = [.answered (.tableExists table.tableName) (.ok false)]
  writer : ∀ writer, h.writer = some writer → Procured table past request.structureVersion writer

/-- Where the handler comes by no writer, all stays as it was. -/
theorem Vouches.mono {request : RequestReplicationStream} (h₀ : Vouches table past h request)
    (hnews : NoNews hs) (hid : h'.masterTableId = h.masterTableId)
    (hphase : h'.phase = .requestingStream → h.phase = .requestingStream ∧ h'.writer = h.writer)
    (hwriter : h'.writer = none ∨ h'.writer = h.writer) :
    Vouches table (past ++ hs) h' request := by
  refine ⟨h₀.agreement.mono hnews, h₀.masterTableId.trans hid.symm, fun hphase' hnone => ?_,
    fun w hw => ?_⟩
  · obtain ⟨hphase, heq⟩ := hphase hphase'
    rw [lookups_of_noNews hnews]
    exact h₀.absent hphase (heq ▸ hnone)
  · rcases hwriter with hnone | heq
    · simp [hnone] at hw
    · exact (h₀.writer w (heq ▸ hw)).mono hnews

theorem Resolves.vouches {h₁ : Handler} {rows : UInt64} (hresolves : h.Resolves hs rows h₁)
    (hname : h.tableName = table.tableName) (hwriter : h.writer = none)
    (hpast : lookups past = []) :
    (h₁.writer = none →
      lookups (past ++ hs) = [.answered (.tableExists table.tableName) (.ok false)]) ∧
      ∀ writer, h₁.writer = some writer →
        Procured table (past ++ hs) h.structureVersion writer := by
  rw [lookups_append, hpast, List.nil_append]
  cases hresolves with
  | absent =>
    rw [hname]
    exact ⟨fun _ => rfl, by simp [hwriter]⟩
  | present hversion =>
    refine ⟨by simp, ?_⟩
    rintro writer ⟨⟩
    refine .opened ?_ hversion
    rw [lookups_append, hpast, List.nil_append, hname]
    rfl

/-- The rendezvous: the masters have agreed, and the table was looked up. -/
theorem Life.vouches_rendezvous (hlife : Life table past h) {h₁ : Handler}
    {first first' : Connection} {rest : List Connection} {hs' : List Happening} {rows : UInt64}
    (hphase : h.phase = .awaitingRendezvous) (hready : h.allReady)
    (hconnections : h.connections = first :: rest) (hresolves : h.Resolves hs rows h₁)
    (hrequest : Connection.Request (h.agreedRequest rows) first hs' first') :
    Vouches table (past ++ (hs ++ hs' ++ [.reported (.phaseEntered Phase.requestingStream.name)]))
      { h₁.put [] first' rest with phase := .requestingStream } (h.agreedRequest rows) := by
  have hopenings := ((Turn.move (.rendezvous hphase hready hconnections hresolves hrequest)).sockets
    hlife.sound).1
  obtain ⟨-, back, rfl, htraffic⟩ := hrequest.traffic
  have hwordless := Connection.wordless_of_traffic htraffic
  have hnews : NoNews
      (.noted (.queued first.socketId (.requestReplicationStream (h.agreedRequest rows))) ::
      back ++ [.reported (.phaseEntered Phase.requestingStream.name)]) := by
    refine ⟨?_, ?_, ?_⟩
    · rw [List.append_assoc, openings_append, List.append_eq_nil_iff] at hopenings
      exact hopenings.2
    · rw [descriptions_append]
      exact List.append_eq_nil_iff.2 ⟨hwordless.descriptions, rfl⟩
    · rw [lookups_append]
      exact List.append_eq_nil_iff.2 ⟨hwordless.lookups, rfl⟩
  obtain ⟨habsent, hprocured⟩ := hresolves.vouches hlife.tableName
    (hlife.sound.gathers (.inr hphase)).writer (hlife.waits (.inr hphase)).lookups
  rw [List.append_assoc, ← List.append_assoc past]
  refine ⟨(hlife.agreement hphase hready hresolves).mono hnews, ?_, fun _ hnone => ?_,
    fun w hw => ?_⟩
  · cases hresolves <;> rfl
  · rw [lookups_of_noNews hnews]
    exact habsent hnone
  · exact (hprocured w hw).mono hnews

/-- The start of the data stream: a handler without a writer has the table created. -/
theorem Life.vouches_start (hlife : Life table past h) {first first' : Connection}
    {rest : List Connection} {hs' : List Happening} {start : StartOfReplicationStream}
    {writer : TableWriter} {request : RequestReplicationStream} (h₀ : Vouches table past h request)
    (hphase : h.phase = .requestingStream) (hconnections : h.connections = first :: rest)
    (hhear : Connection.Hear first hs (.streamStart start) first')
    (hsupplies : Supplies h.tableName h.writer start hs' writer) :
    Vouches table (past ++ (hs ++ hs' ++ [.reported (.phaseEntered Phase.handingOff.name)]))
      { h.put [] first' rest with writer := some writer, phase := .handingOff } request := by
  have hnews := (Turn.move (.streamStart hphase hconnections hhear hsupplies)).noNews hlife.sound
    (.inl hphase) (HasAsked.atWork (.inr (.inl rfl)))
  refine ⟨h₀.agreement.mono hnews, h₀.masterTableId, by simp, ?_⟩
  rintro w ⟨⟩
  cases hsupplies with
  | kept howned => exact (h₀.writer writer howned).mono hnews
  | created hnone =>
    refine .created start ?_ ?_ ?_
    · rw [lookups_of_noNews hnews, h₀.absent hphase hnone]
    · have hheard : .noted (.accepted first.socketId (.startOfReplicationStream start)) ∈ hs := by
        cases hhear with
        | accept _ _ haccept => cases haccept; simp
      rw [hnews.openedSockets_eq, ← (hlife.head (atWork_of_phase hphase (by decide) rfl)
        hconnections).2]
      simp [hheard]
    · simp [hlife.tableName]

theorem Turn.vouches (hturn : Turn h hs h') (hlife : Life table past h)
    (ih : h.HasAsked → ∃ request, Vouches table past h request) (hasked : h'.HasAsked) :
    ∃ request, Vouches table (past ++ hs) h' request := by
  have hnews := fun hasked₀ => hturn.noNews hlife.sound hasked₀ hasked.atWork
  cases hturn.move_of_atWork hasked.atWork with
  | exchange =>
    obtain ⟨request, h₀⟩ := ih hasked
    exact ⟨request, h₀.mono (hnews hasked) rfl (fun hphase => ⟨hphase, rfl⟩) (.inr rfl)⟩
  | tableInfo hphase => rcases hphase with hphase | hphase <;> simp [HasAsked, hphase] at hasked
  | allConnected => simp [HasAsked] at hasked
  | rendezvous hphase hready hconnections hresolves hrequest =>
    exact ⟨_, hlife.vouches_rendezvous hphase hready hconnections hresolves hrequest⟩
  | streamStart hphase hconnections hhear hsupplies =>
    obtain ⟨request, h₀⟩ := ih (.inl hphase)
    exact ⟨request, hlife.vouches_start h₀ hphase hconnections hhear hsupplies⟩
  | writerTaken hphase =>
    obtain ⟨request, h₀⟩ := ih (.inr (.inl hphase))
    exact ⟨request, h₀.mono (hnews (.inr (.inl hphase))) rfl (by simp [hphase]) (.inl rfl)⟩
  | writerRefused hphase =>
    obtain ⟨request, h₀⟩ := ih hasked
    exact ⟨request, h₀.mono (hnews hasked) rfl (by simp [hphase]) (.inr rfl)⟩
  | write hhands | socketTaken hhands | socketRefused hhands | waits hhands =>
    obtain ⟨request, h₀⟩ := ih (.inr (.inl hhands.1))
    exact ⟨request, h₀.mono (hnews (.inr (.inl hhands.1))) rfl (by simp [hhands.1]) (.inr rfl)⟩
  | streams _ hphase =>
    obtain ⟨request, h₀⟩ := ih (.inr (.inl hphase))
    exact ⟨request, h₀.mono (hnews (.inr (.inl hphase))) rfl (by simp) (.inr rfl)⟩
  | fails => exact absurd hasked.atWork (not_atWork_stopping rfl)
  | stopAccepted hphase | stopRefused hphase => simp [HasAsked, hphase] at hasked

theorem Life.vouches (hlife : Life table past h) :
    h.HasAsked → ∃ request, Vouches table past h request := by
  refine hlife.invariant ?_ ?_ ?_
  · intro hs h hopened hasked
    simp [HasAsked, hopened.phase] at hasked
  · intro hs h hrefused hasked
    simp [HasAsked, hrefused.phase] at hasked
  · intro past h hs h' hlife ih hturn hasked
    exact hturn.vouches hlife ih hasked

/-! ### The offer -/

/-- A writer is offered only if it was come by for a table on which the masters have agreed. -/
def OffersProcured (table : TableSettings) (past : List Happening) (x : Happening) : Prop :=
  ∀ peer id writer taken, x = .answered (.offerWriter peer id writer) taken →
    ∃ request, Agreement table past request ∧ id = request.masterTableId ∧
      Procured table past request.structureVersion writer

theorem along_procured (h : ∀ x ∈ hs, x.isOffer = false) :
    Along (OffersProcured table) past hs := by
  refine along_of_forall fun x hx past => ?_
  rintro peer id writer taken rfl
  cases h _ hx

/-- All its life a handler offers only a writer that was come by for its table. -/
theorem Life.offers_procured (hlife : Life table past h) :
    Along (OffersProcured table) [] past := by
  refine hlife.invariant ?_ ?_ ?_
  · intro hs h hopened
    exact along_procured (unoffered_of_overture hopened.overture)
  · intro hs h hrefused
    obtain ⟨front, back, rfl, hfront, -, hback, -⟩ := hrefused.happenings
    exact along_procured ((unoffered_of_overture hfront).append
      (unoffered_of_isWord fun x hx => (hback x hx).2))
  · intro past h hs h' hlife ih hturn
    refine along_append.2 ⟨ih, ?_⟩
    rw [List.nil_append]
    obtain hnone | ⟨-, ⟨writer, taken, back, hphase, -, hwriter, rfl, hback⟩ |
      ⟨_, _, _, _, _, back, -, -, -, -, rfl, hback, -⟩⟩ := hturn.offers hlife.sound
    · exact along_procured hnone
    · refine ⟨?_, along_procured hback⟩
      rintro peer id writer' taken' ⟨⟩
      obtain ⟨request, hvouches⟩ := hlife.vouches (.inr (.inl hphase))
      exact ⟨request, hvouches.agreement, hvouches.masterTableId.symm,
        hvouches.writer writer hwriter⟩
    · exact ⟨by simp [OffersProcured], along_procured hback⟩

end ReplicaHandshake.Handler
