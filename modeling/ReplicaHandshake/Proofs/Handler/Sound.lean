import ReplicaHandshake.Proofs.Handler.Moves

/-!
# Sound handlers

A handler that has been started is *sound*: all its connections are, and its phase says in which
states they are, whether the masters agree, and where the writer is.

* `Gathers`: every master is on its way to its answer, and `ready` counts those that have answered.
* `Requests`: all have answered alike, and the first one was asked for the stream.
* `HandsOver`: the multiplexer is given the writer, and then the sockets in their order.
* `Streams`: the multiplexer has everything.  `IsOver`: the handler owns nothing any more.

Every turn keeps a handler sound (`Turn.sound`).
-/

namespace ReplicaHandshake.Handler

/-- The masters that have answered have said the same. -/
def Agreed (h : Handler) : Prop :=
  ∀ c ∈ h.connections, ∀ info, c.tableInfo = some info →
    info.masterTableId = h.masterTableId ∧ info.structureVersion = h.structureVersion

/-- The handler waits for its masters. -/
structure Gathers (h : Handler) : Prop where
  states : ∀ c ∈ h.connections,
    c.state = .connecting ∨ c.state = .awaitingTableInfo ∨ c.state = .ready
  holds : ∀ c ∈ h.connections, c.Holds
  ready : h.ready = h.connections.countP (·.tableInfo.isSome)
  agreed : h.Agreed
  writer : h.writer = none
  writerTransferred : h.writerTransferred = false

/-- The handler has asked the first master for the stream. -/
structure Requests (h : Handler) : Prop where
  states : ∃ first rest, h.connections = first :: rest ∧ first.state = .awaitingStreamStart ∧
    ∀ c ∈ rest, c.state = .ready
  holds : ∀ c ∈ h.connections, c.Holds
  ready : h.ready = h.connections.length
  agreed : h.Agreed
  writerTransferred : h.writerTransferred = false

/-- The handler hands the writer and the sockets to the multiplexer. -/
structure HandsOver (h : Handler) : Prop where
  states : ∃ first rest, h.connections = first :: rest ∧
    (first.state = .streamStarted ∨ first.state = .transferred) ∧
    ∀ c ∈ rest, c.state = .ready ∨ c.state = .transferred
  /-- Behind a connection that has not been taken, none has been offered. -/
  order : h.connections.Pairwise fun c later =>
    c.isTransferred = false → later.isTransferred = false ∧ later.Holds
  writer : h.writerTransferred = true ∨
    h.writer.isSome ∧ ∀ c ∈ h.connections, c.isTransferred = false ∧ c.Holds
  agreed : h.Agreed

/-- The multiplexer has everything. -/
structure Streams (h : Handler) : Prop where
  connections : ∀ c ∈ h.connections, c.isTransferred
  writerTransferred : h.writerTransferred = true

/-- Nothing of the handler is left but what the multiplexer has. -/
structure IsOver (h : Handler) : Prop where
  connections : ∀ c ∈ h.connections, c.isTransferred
  writer : h.writer = none

/-- What a phase says. -/
def InPhase (h : Handler) : Prop :=
  match h.phase with
  | .initializing | .awaitingRendezvous => h.Gathers
  | .requestingStream => h.Requests
  | .handingOff => h.HandsOver
  | .streaming => h.Streams
  | .stopping | .stopped | .distressed => h.IsOver

/-- Every part of the handler is sound by itself, whatever its phase says. -/
structure Whole (h : Handler) : Prop where
  connections : ∀ c ∈ h.connections, c.Sound
  same : ∀ c ∈ h.connections, c.peer = h.peer ∧ c.tableName = h.tableName
  writer : h.writerTransferred = true → h.writer = none

/-- The handler and its connections are as its phase says. -/
structure Sound (h : Handler) : Prop extends h.Whole where
  nonempty : h.phase.isHandshaking → h.connections ≠ []
  phase : h.InPhase

namespace Sound

variable {h : Handler}

theorem gathers (hsound : h.Sound) (hphase : h.IsGathering) : h.Gathers := by
  have hin := hsound.phase
  rcases hphase with hphase | hphase <;> simpa only [InPhase, hphase] using hin

theorem requests (hsound : h.Sound) (hphase : h.phase = .requestingStream) : h.Requests := by
  have hin := hsound.phase
  simpa only [InPhase, hphase] using hin

theorem handsOver (hsound : h.Sound) (hphase : h.phase = .handingOff) : h.HandsOver := by
  have hin := hsound.phase
  simpa only [InPhase, hphase] using hin

theorem streams (hsound : h.Sound) (hphase : h.phase = .streaming) : h.Streams := by
  have hin := hsound.phase
  simpa only [InPhase, hphase] using hin

/-- A handler that stops has come to nothing else since. -/
theorem isOver (hsound : h.Sound) (hphase : h.phase = .stopping ∨ h.phase.isTerminal) :
    h.IsOver := by
  have hin := hsound.phase
  unfold InPhase at hin
  split at hin
  all_goals first
    | exact hin
    | simp_all [Phase.isTerminal]

end Sound

/-! ### Stopping -/

theorem Whole.stopped {h : Handler} (hwhole : h.Whole) : h.stopped.Sound where
  connections c hc := hwhole.connections c (List.mem_filter.1 hc).1
  same c hc := hwhole.same c (List.mem_filter.1 hc).1
  writer htransferred := by
    unfold Handler.stopped at htransferred ⊢
    rw [if_pos htransferred, hwhole.writer htransferred]
  nonempty hphase := by cases hphase
  phase := by
    refine ⟨fun c hc => (List.mem_filter.1 hc).2, ?_⟩
    unfold Handler.stopped
    split
    next htransferred => exact hwhole.writer htransferred
    · rfl

theorem Whole.stoppedFor {h : Handler} (hwhole : h.Whole) (reason : StopReason) :
    (h.stoppedFor reason).Sound :=
  Whole.stopped ⟨hwhole.connections, hwhole.same, hwhole.writer⟩

/-! ### Other connections in place -/

theorem Whole.erase {h : Handler} (hwhole : h.Whole) (test : Connection → Bool) :
    Whole { h with connections := h.connections.eraseP test } where
  connections c hc := hwhole.connections c (List.mem_of_mem_eraseP hc)
  same c hc := hwhole.same c (List.mem_of_mem_eraseP hc)
  writer := hwhole.writer

section Put

variable {h : Handler} {before after : List Connection} {c c' : Connection}

theorem mem_of_split (hconnections : h.connections = before ++ c :: after) : c ∈ h.connections := by
  rw [hconnections]
  exact List.mem_append_right before List.mem_cons_self

/-- Whoever is there after a change was there before, or is the one that was changed. -/
theorem mem_put {x : Connection} (hconnections : h.connections = before ++ c :: after)
    (hx : x ∈ (h.put before c' after).connections) : x ∈ h.connections ∨ x = c' := by
  simp only [put, List.mem_append, List.mem_cons] at hx
  rw [hconnections, List.mem_append, List.mem_cons]
  rcases hx with hx | rfl | hx
  · exact .inl (.inl hx)
  · exact .inr rfl
  · exact .inl (.inr (.inr hx))

theorem Whole.put (hwhole : h.Whole) (hconnections : h.connections = before ++ c :: after)
    (hsound : c.Sound → c'.Sound) (hsame : Connection.Same c c') :
    (h.put before c' after).Whole where
  connections x hx := by
    rcases mem_put hconnections hx with hx | rfl
    · exact hwhole.connections x hx
    · exact hsound (hwhole.connections c (mem_of_split hconnections))
  same x hx := by
    rcases mem_put hconnections hx with hx | rfl
    · exact hwhole.same x hx
    · obtain ⟨hpeer, htable⟩ := hwhole.same c (mem_of_split hconnections)
      exact ⟨hsame.2.2.1.trans hpeer, hsame.2.2.2.1.trans htable⟩
  writer := hwhole.writer

end Put

/-! ### Faults -/

theorem Resolves.whole {h h₁ : Handler} {hs : List Happening} {rows : UInt64}
    (hresolves : h.Resolves hs rows h₁) (hwhole : h.Whole) (hwriter : h.writerTransferred = false) :
    h₁.Whole ∧ h₁.connections = h.connections ∧ h₁.writerTransferred = false := by
  cases hresolves with
  | absent => exact ⟨hwhole, rfl, hwriter⟩
  | present =>
    refine ⟨⟨hwhole.connections, hwhole.same, ?_⟩, rfl, hwriter⟩
    intro htransferred
    rw [hwriter] at htransferred
    cases htransferred

theorem Gathers.ready_of_allReady {h : Handler} (hgathers : h.Gathers) (hsound : h.Sound)
    (hready : h.allReady) : ∀ c ∈ h.connections, c.state = .ready := by
  have hcount : h.connections.countP (·.tableInfo.isSome) = h.connections.length := by
    rw [← hgathers.ready]
    simpa [allReady] using hready
  intro c hc
  have hsome := List.countP_eq_length.1 hcount c hc
  have hc' := hsound.connections c hc
  rcases hgathers.states c hc with h | h | h
  · simp only [Connection.Sound, h] at hc'
    simp [hc'.2] at hsome
  · simp only [Connection.Sound, h] at hc'
    simp [hc'.2] at hsome
  · exact h

theorem Fault.whole {h h' : Handler} {hs : List Happening} {f : Failure}
    (hfault : Fault h hs f h') (hsound : h.Sound) : h'.Whole := by
  have hwhole := hsound.toWhole
  cases hfault with
  | timeout | tableExists | openWriter | mismatch => exact hwhole
  | connection _ hconnections hfault => exact hwhole.put hconnections hfault.sound hfault.same
  | divergence _ hconnections hhear => exact hwhole.put hconnections hhear.sound hhear.same
  | @request h₁ first first' rest _ _ _ _ hphase hready hconnections hresolves hrequest =>
    have hgathers := hsound.gathers (.inr hphase)
    obtain ⟨hwhole₁, hsame, -⟩ := hresolves.whole hwhole hgathers.writerTransferred
    have hholds := hgathers.holds first (by simp [hconnections])
    exact hwhole₁.put (hsame.trans hconnections) (hrequest.sound hholds) hrequest.same
  | createTable _ hconnections hhear =>
    exact hwhole.put hconnections hhear.sound hhear.same
  | handoff hhands hfault => exact hwhole.put hhands.2.2.1 hfault.sound hfault.same

/-! ### Moves -/

section Put

variable {h : Handler} {before after : List Connection} {c c' : Connection}

theorem Agreed.put (hagreed : h.Agreed) (hconnections : h.connections = before ++ c :: after)
    (htable : c'.tableInfo = c.tableInfo) : (h.put before c' after).Agreed := by
  intro x hx info hinfo
  rcases mem_put hconnections hx with hx | rfl
  · exact hagreed x hx info hinfo
  · exact hagreed c (mem_of_split hconnections) info (htable ▸ hinfo)

theorem Gathers.put (hgathers : h.Gathers) (hconnections : h.connections = before ++ c :: after)
    {hs : List Happening} (hstep : Connection.Step c hs c') : (h.put before c' after).Gathers := by
  obtain ⟨hstate, htable, hholds⟩ := hstep.keeps
  have hc := mem_of_split hconnections
  refine ⟨?_, ?_, ?_, hgathers.agreed.put hconnections htable, hgathers.writer,
    hgathers.writerTransferred⟩
  · intro x hx
    rcases mem_put hconnections hx with hx | rfl
    · exact hgathers.states x hx
    · rcases hstate with hstate | ⟨-, hstate⟩
      · rw [hstate]
        exact hgathers.states c hc
      · exact .inr (.inl hstate)
  · intro x hx
    rcases mem_put hconnections hx with hx | rfl
    · exact hgathers.holds x hx
    · exact hholds (hgathers.holds c hc)
  · have hready := hgathers.ready
    rw [hconnections] at hready
    simpa [Handler.put, List.countP_append, List.countP_cons, htable] using hready

theorem Gathers.hear (hgathers : h.Gathers) (hconnections : h.connections = before ++ c :: after)
    {hs : List Happening} {info : TableInfo} (hhear : Connection.Hear c hs (.tableInfo info) c')
    (hagrees : h.Agrees info) :
    Gathers { h.put before c' after with
      masterTableId := info.masterTableId
      structureVersion := info.structureVersion
      ready := h.ready + 1 } := by
  obtain ⟨-, hnone, hstate, hsome, hholds, -, -⟩ := hhear.tableInfo_spec
  have hready := hgathers.ready
  refine ⟨?_, ?_, ?_, ?_, hgathers.writer, hgathers.writerTransferred⟩
  · intro x hx
    rcases mem_put hconnections hx with hx | rfl
    · exact hgathers.states x hx
    · exact .inr (.inr hstate)
  · intro x hx
    rcases mem_put hconnections hx with hx | rfl
    · exact hgathers.holds x hx
    · exact hholds (hgathers.holds c (mem_of_split hconnections))
  · rw [hconnections] at hready
    simp only [Handler.put, List.countP_append, List.countP_cons, hnone, hsome] at hready ⊢
    simp only [Option.isSome_none, Option.isSome_some, Bool.false_eq_true, if_false, if_true]
      at hready ⊢
    omega
  · intro x hx other hother
    rcases mem_put hconnections hx with hx | rfl
    · rcases hagrees with hzero | ⟨hid, hversion⟩
      · rw [hzero] at hready
        have hnobody := List.countP_eq_zero.1 hready.symm x hx
        simp [hother] at hnobody
      · show other.masterTableId = info.masterTableId ∧ _
        rw [hid, hversion]
        exact hgathers.agreed x hx other hother
    · rw [hsome] at hother
      cases hother
      exact ⟨rfl, rfl⟩

theorem Requests.put {first first' : Connection} {rest : List Connection} (hrequests : h.Requests)
    (hconnections : h.connections = first :: rest) {hs : List Happening}
    (hstep : Connection.Step first hs first') : (h.put [] first' rest).Requests := by
  obtain ⟨hstate, htable, hholds⟩ := hstep.keeps
  obtain ⟨_, _, hsplit, hfirst, hrest⟩ := hrequests.states
  rw [hconnections] at hsplit
  cases hsplit
  refine ⟨⟨first', rest, rfl, ?_, hrest⟩, ?_, ?_, hrequests.agreed.put hconnections htable,
    hrequests.writerTransferred⟩
  · rcases hstate with hstate | ⟨hstate, -⟩
    · rw [hstate, hfirst]
    · simp [hfirst] at hstate
  · intro x hx
    rcases mem_put (show h.connections = [] ++ first :: rest from hconnections) hx with hx | rfl
    · exact hrequests.holds x hx
    · exact hholds (hrequests.holds first (by simp [hconnections]))
  · simpa [hconnections, Handler.put] using hrequests.ready

theorem Gathers.request {first first' : Connection} {rest : List Connection}
    (hgathers : h.Gathers) (hsound : h.Sound) (hready : h.allReady)
    (hconnections : h.connections = first :: rest) {r : RequestReplicationStream}
    {hs : List Happening} (hrequest : Connection.Request r first hs first') :
    (h.put [] first' rest).Requests := by
  obtain ⟨hstate, htable, hholds⟩ := hrequest.keeps
  refine ⟨⟨first', rest, rfl, hstate, ?_⟩, ?_, ?_, hgathers.agreed.put hconnections htable,
    hgathers.writerTransferred⟩
  · intro x hx
    exact hgathers.ready_of_allReady hsound hready x (by simp [hconnections, hx])
  · intro x hx
    rcases mem_put (show h.connections = [] ++ first :: rest from hconnections) hx with hx | rfl
    · exact hgathers.holds x hx
    · exact hholds (hgathers.holds first (by simp [hconnections]))
  · simpa [allReady, hconnections, Handler.put] using hready

theorem Requests.start {first first' : Connection} {rest : List Connection}
    (hrequests : h.Requests) (hconnections : h.connections = first :: rest) {hs : List Happening}
    {start : StartOfReplicationStream}
    (hhear : Connection.Hear first hs (.streamStart start) first') (writer : TableWriter) :
    HandsOver { h.put [] first' rest with writer := some writer } := by
  obtain ⟨-, hstate, htable, hholds⟩ := hhear.streamStart_spec
  obtain ⟨_, _, hsplit, -, hrest⟩ := hrequests.states
  rw [hconnections] at hsplit
  cases hsplit
  have hfree : ∀ x ∈ (h.put [] first' rest).connections, x.isTransferred = false ∧ x.Holds := by
    intro x hx
    simp only [Handler.put, List.nil_append, List.mem_cons] at hx
    rcases hx with rfl | hx
    · exact ⟨by simp [Connection.isTransferred, hstate],
        hholds (hrequests.holds first (by simp [hconnections]))⟩
    · exact ⟨by simp [Connection.isTransferred, hrest x hx],
        hrequests.holds x (by simp [hconnections, hx])⟩
  refine ⟨⟨first', rest, rfl, .inl hstate, fun x hx => .inl (hrest x hx)⟩, ?_, .inr ⟨rfl, hfree⟩,
    hrequests.agreed.put hconnections htable⟩
  refine List.Pairwise.imp_of_mem ?_ (List.pairwise_of_forall fun _ _ => trivial)
  intro _ later _ hlater _ _
  exact hfree later hlater

theorem HandsOver.put {given left : List Connection} (hover : h.HandsOver)
    (hhands : h.Hands given c left) (hstate : c'.state = c.state ∨ c'.state = .transferred)
    (htable : c'.tableInfo = c.tableInfo) : (h.put given c' left).HandsOver := by
  obtain ⟨-, hwriter, hconnections, hgiven, hfree⟩ := hhands
  refine ⟨?_, ?_, .inl hwriter, hover.agreed.put hconnections htable⟩
  · obtain ⟨first, rest, hsplit, hfirst, hrest⟩ := hover.states
    rw [hconnections] at hsplit
    cases given with
    | nil =>
      cases hsplit
      refine ⟨c', left, rfl, ?_, hrest⟩
      rcases hstate with hstate | hstate
      · rwa [hstate]
      · exact .inr hstate
    | cons g given =>
      cases hsplit
      refine ⟨_, given ++ c' :: left, rfl, hfirst, ?_⟩
      intro x hx
      rw [List.mem_append, List.mem_cons] at hx
      rcases hx with hx | rfl | hx
      · exact hrest x (by simp [hx])
      · rcases hstate with hstate | hstate
        · rw [hstate]
          exact hrest c (by simp)
        · exact .inr hstate
      · exact hrest x (by simp [hx])
  · have horder := hover.order
    rw [hconnections] at horder
    simp only [Handler.put, List.pairwise_append, List.pairwise_cons] at horder ⊢
    obtain ⟨hbefore, ⟨hbehind, hafter⟩, -⟩ := horder
    refine ⟨hbefore, ⟨fun x hx _ => hbehind x hx hfree, hafter⟩, ?_⟩
    intro g hg x _ hfresh
    rw [hgiven g hg] at hfresh
    cases hfresh

theorem Sound.hand {given left : List Connection} (hsound : h.Sound)
    (hhands : h.Hands given c left) (hsound' : c.Sound → c'.Sound)
    (hstate : c'.state = c.state ∨ c'.state = .transferred) (htable : c'.tableInfo = c.tableInfo)
    (hsame : Connection.Same c c') : (h.put given c' left).Sound := by
  refine ⟨hsound.toWhole.put hhands.2.2.1 hsound' hsame, fun _ => by simp [Handler.put], ?_⟩
  have hover := (hsound.handsOver hhands.1).put hhands hstate htable
  simpa only [InPhase, Handler.put, hhands.1] using hover

theorem Sound.state_of_hands {given left : List Connection} (hsound : h.Sound)
    (hhands : h.Hands given c left) : c.state = .ready ∨ c.state = .streamStarted := by
  obtain ⟨first, rest, hsplit, hfirst, hrest⟩ := (hsound.handsOver hhands.1).states
  obtain ⟨-, -, hconnections, -, hfree⟩ := hhands
  have hstate : c.state ≠ .transferred := by simpa [Connection.isTransferred] using hfree
  have hc := mem_of_split hconnections
  rw [hsplit, List.mem_cons] at hc
  rcases hc with rfl | hc
  · exact .inr (hfirst.resolve_right hstate)
  · exact .inl ((hrest c hc).resolve_right hstate)

theorem Sound.kept_of_hands {given left : List Connection} (hsound : h.Sound)
    (hhands : h.Hands given c left) : c.Holds ∨ c.Refused :=
  ((hsound.connections c (mem_of_split hhands.2.2.1)).kept (hsound.state_of_hands hhands)).1

end Put

/-- What every move keeps. -/
theorem Move.sound {h h' : Handler} {hs : List Happening} (hmove : Move h hs h')
    (hsound : h.Sound) : h'.Sound := by
  have hwhole := hsound.toWhole
  cases hmove with
  | exchange hpolls hconnections hstep =>
    have hput := hwhole.put hconnections hstep.sound hstep.same
    refine ⟨hput, fun _ => by simp [put], ?_⟩
    rcases hpolls with hphase | ⟨hphase, rfl⟩
    · have hgathers := (hsound.gathers hphase).put hconnections hstep
      rcases hphase with hphase | hphase <;> simpa only [InPhase, put, hphase] using hgathers
    · have hrequests := (hsound.requests hphase).put hconnections hstep
      simpa only [InPhase, put, hphase] using hrequests
  | tableInfo hphase hconnections hhear hagrees =>
    have hput := hwhole.put hconnections hhear.sound hhear.same
    have hgathers := (hsound.gathers hphase).hear hconnections hhear hagrees
    refine ⟨⟨hput.connections, hput.same, hput.writer⟩, fun _ => by simp [put], ?_⟩
    rcases hphase with hphase | hphase <;> simpa only [InPhase, put, hphase] using hgathers
  | allConnected hphase hall =>
    have hgathers := hsound.gathers (.inl hphase)
    refine ⟨⟨hwhole.connections, hwhole.same, hwhole.writer⟩, ?_, ?_⟩
    · intro _
      exact hsound.nonempty (by simp [hphase, Phase.isHandshaking])
    · exact ⟨hgathers.states, hgathers.holds, hgathers.ready, hgathers.agreed, hgathers.writer,
        hgathers.writerTransferred⟩
  | @rendezvous h₁ first first' rest _ _ _ hphase hready hconnections hresolves hrequest =>
    have hgathers := hsound.gathers (.inr hphase)
    obtain ⟨hwhole₁, hsame, hwriter⟩ := hresolves.whole hwhole hgathers.writerTransferred
    have hholds := hgathers.holds first (by simp [hconnections])
    have hput : (h₁.put [] first' rest).Whole :=
      hwhole₁.put (hsame.trans hconnections) (hrequest.sound hholds) hrequest.same
    have hrequests := hgathers.request hsound hready hconnections hrequest
    refine ⟨⟨hput.connections, hput.same, hput.writer⟩, fun _ => by simp [put], ?_⟩
    cases hresolves <;>
      exact ⟨hrequests.states, hrequests.holds, hrequests.ready, hrequests.agreed,
        hrequests.writerTransferred⟩
  | @streamStart first first' rest _ _ _ writer hphase hconnections hhear hsupplies =>
    have hrequests := hsound.requests hphase
    have hput : (h.put [] first' rest).Whole := hwhole.put hconnections hhear.sound hhear.same
    have hover := hrequests.start hconnections hhear writer
    refine ⟨⟨hput.connections, hput.same, ?_⟩, fun _ => by simp [put], ?_⟩
    · intro htransferred
      simp [put, hrequests.writerTransferred] at htransferred
    · exact ⟨hover.states, hover.order, hover.writer, hover.agreed⟩
  | writerTaken hphase hfree hwriter =>
    have hover := hsound.handsOver hphase
    refine ⟨⟨hwhole.connections, hwhole.same, fun _ => rfl⟩, hsound.nonempty, ?_⟩
    simp only [InPhase, hphase]
    exact ⟨hover.states, hover.order, .inl rfl, hover.agreed⟩
  | writerRefused | waits | stopRefused => exact hsound
  | write hhands hwrite =>
    obtain ⟨hstate, htable, -⟩ := Connection.keeps_of_writes (.single hwrite)
    exact hsound.hand hhands hwrite.sound (.inl hstate) htable hwrite.same
  | socketTaken hhands hoffer =>
    obtain ⟨hsound', hstate, htable, hsame⟩ := hoffer.sound (hsound.state_of_hands hhands)
      (hsound.connections _ (mem_of_split hhands.2.2.1))
    exact hsound.hand hhands (fun _ => hsound') hstate htable hsame
  | socketRefused hhands hoffer =>
    obtain ⟨hsound', hstate, htable, hsame⟩ := hoffer.sound (hsound.state_of_hands hhands)
      (hsound.connections _ (mem_of_split hhands.2.2.1))
    exact hsound.hand hhands (fun _ => hsound') hstate htable hsame
  | streams now hphase hwriter hall =>
    refine ⟨⟨hwhole.connections, hwhole.same, hwhole.writer⟩, fun hphase => ?_, ⟨hall, hwriter⟩⟩
    simp [Phase.isHandshaking] at hphase
  | fails hfault => exact (hfault.whole hsound).stoppedFor _
  | stopAccepted hphase =>
    have hover := hsound.isOver (.inl hphase)
    refine ⟨⟨hwhole.connections, hwhole.same, hwhole.writer⟩, hsound.nonempty, ?_⟩
    simp only [InPhase, hphase]
    exact ⟨hover.connections, hover.writer⟩

theorem Sound.of_way {h h' : Handler} {hs : List Happening} (hsound : h.Sound)
    (hway : Way Move h hs h') : h'.Sound := by
  induction hway with
  | refl => exact hsound
  | tail _ hmove ih => exact hmove.sound ih

/-- What every turn keeps. -/
theorem Turn.sound {h h' : Handler} {hs : List Happening} (hturn : Turn h hs h')
    (hsound : h.Sound) : h'.Sound := by
  have hwhole := hsound.toWhole
  cases hturn with
  | move hmove => exact hmove.sound hsound
  | stops => exact hwhole.stopped
  | loses hlive hphase hfind heq =>
    subst heq
    exact (hwhole.erase _).stoppedFor _
  | letsGo socket hphase =>
    have hover := hsound.isOver (.inl hphase)
    refine ⟨hwhole.erase _, ?_, ?_⟩
    · simp [hphase, Phase.isHandshaking]
    · simp only [InPhase, hphase]
      exact ⟨fun c hc => hover.connections c (List.mem_of_mem_eraseP hc), hover.writer⟩
  | @finishes last hphase hdrained hlast =>
    have hover := hsound.isOver (.inl hphase)
    refine ⟨⟨hwhole.connections, hwhole.same, hwhole.writer⟩, ?_, ?_⟩
    · cases last <;> simp_all [Phase.isTerminal, Phase.isHandshaking]
    · cases last <;> simp [Phase.isTerminal] at hlast
      all_goals exact ⟨hover.connections, hover.writer⟩
  | concludes => exact hsound

end ReplicaHandshake.Handler
