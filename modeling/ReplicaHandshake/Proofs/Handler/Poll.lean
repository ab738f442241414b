import ReplicaHandshake.Proofs.Handler.Stop

/-!
# The work of a handler

A poll of a sound handler is made of moves (`poll_moves`): those of its connections while they take
part in the handshake (`pollConnections_always`), the step to the next phase (`advance_always`) and
the handoff (`pollHandoff_always`).
-/

namespace ReplicaHandshake.Handler

variable {h : Handler}

/-! ### Connections -/

theorem onConnection_always {α : Type} {i : Nat} {c : Connection} {task : Task Connection α}
    {ok : List Happening → α → Handler → Prop} {error : List Happening → Failure → Handler → Prop} :
    Task.Always (onConnection i c task) h ok error ↔
      Task.Always task c
        (fun hs a c' => ok hs a { h with connections := h.connections.set i c' })
        (fun hs f c' => error hs f { h with connections := h.connections.set i c' }) := by
  simp [onConnection, Work.always_run, Task.always_perform, Task.ofExcept]

theorem split_at {i : Nat} {c : Connection} (hc : h.connections[i]? = some c) :
    ∃ before after, h.connections = before ++ c :: after ∧ before.length = i ∧
      ∀ c', { h with connections := h.connections.set i c' } = h.put before c' after := by
  obtain ⟨hi, rfl⟩ := List.getElem?_eq_some_iff.1 hc
  refine ⟨h.connections.take i, h.connections.drop (i + 1), ?_, ?_, ?_⟩
  · rw [List.getElem_cons_drop, List.take_append_drop]
  · exact List.length_take_of_le (Nat.le_of_lt hi)
  · intro c'
    rw [put, List.set_eq_take_append_cons_drop, if_pos hi]

theorem put_self {before after : List Connection} {c : Connection}
    (hconnections : h.connections = before ++ c :: after) : h.put before c after = h := by
  rw [put, ← hconnections]

theorem exchanges {before after : List Connection} {c c' : Connection} {hs : List Happening}
    (hpolls : h.Polls before) (hconnections : h.connections = before ++ c :: after)
    (hway : Way Connection.Step c hs c') : Way Move h hs (h.put before c' after) := by
  induction hway with
  | refl =>
    rw [put_self hconnections]
    exact .refl h
  | @tail c₁ c₂ _ _ _ hstep ih =>
    have hmove : Move (h.put before c₁ after) _ ((h.put before c₁ after).put before c₂ after) :=
      .exchange hpolls rfl hstep
    exact ih.tail hmove

/-! ### Hearing -/

theorem onTableInfo_always {label : String} {info : TableInfo} :
    Task.Always (onTableInfo label info) h
      (fun hs _ h' => h.Agrees info ∧ hs = [] ∧
        h' = { h with
          masterTableId := info.masterTableId
          structureVersion := info.structureVersion
          ready := h.ready + 1 })
      (fun hs f h' => ¬h.Agrees info ∧ hs = [] ∧ h' = h ∧
        f = .masterDivergence h.tableName
          (s!"{label} reports table id {info.masterTableId} version {info.structureVersion}, " ++
            s!"others report table id {h.masterTableId} version {h.structureVersion}")) := by
  by_cases hzero : h.ready = 0
  · simp [onTableInfo, hzero, Agrees]
  by_cases hsame : info.masterTableId = h.masterTableId ∧ info.structureVersion = h.structureVersion
  · simp [onTableInfo, hzero, hsame, Agrees]
  · have hother : info.masterTableId ≠ h.masterTableId ∨
        info.structureVersion ≠ h.structureVersion := Classical.not_and_iff_not_or_not.1 hsame
    simp only [onTableInfo, hzero, hother, Agrees, hsame, Task.always_bind, Task.always_get,
      if_false, if_true, Task.always_throw]
    simp

theorem onStreamStart_always (start : StartOfReplicationStream)
    (hphase : h.phase = .requestingStream) :
    Task.Always (onStreamStart start) h
      (fun hs _ h' => ∃ hs' writer, Supplies h.tableName h.writer start hs' writer ∧
        hs = hs' ++ [.reported (.phaseEntered Phase.handingOff.name)] ∧
        h' = { h with writer := some writer, phase := .handingOff })
      (fun hs f h' => ∃ e, h.writer = none ∧
        hs = [.answered (.createTable h.tableName start.metadata start.symbols) (.error e)] ∧
        f = h.storeFailure .createTable e ∧ h' = h) := by
  have hmove : h.phase.canMoveTo .handingOff := by rw [hphase]; rfl
  cases hwriter : h.writer with
  | some writer =>
    simp only [onStreamStart, hwriter, Task.always_bind, Task.always_get, Option.isNone_some,
      Bool.false_eq_true, if_false, List.nil_append]
    refine (enter_always hmove).mono ?_ (fun _ _ _ => False.elim)
    rintro _ _ _ ⟨rfl, rfl⟩
    exact ⟨[], writer, .kept rfl, rfl, by rw [← hwriter]⟩
  | none =>
    simp only [onStreamStart, hwriter, Task.always_bind, Task.always_get, Option.isNone_none,
      if_true, Dialogue.createTable, Dialogue.call, Task.always_lift, Dialogue.always_ask,
      Dialogue.always_done, List.nil_append]
    intro answer
    cases answer with
    | error e => exact Task.always_throw.2 ⟨e, trivial, rfl, rfl, rfl⟩
    | ok writer =>
      have henter := enter_always (h := { h with writer := some writer }) hmove
      simp only [report, List.cons_append, List.nil_append, List.cons.injEq,
        Happening.answered.injEq, reduceCtorEq, and_false, false_and, exists_false,
        Task.always_bind,
        Task.always_set, Task.always_lift, Dialogue.always_metric]
      refine henter.mono ?_ (fun _ _ _ => False.elim)
      rintro _ _ _ ⟨rfl, rfl⟩
      exact ⟨_, writer, .created rfl, rfl, rfl⟩

/-! ### Polling connections -/

theorem Gathers.no_streamStart (hgathers : h.Gathers) {c c' : Connection} (hc : c ∈ h.connections)
    {hs : List Happening} {start : StartOfReplicationStream} :
    ¬Connection.Hear c hs (.streamStart start) c' := by
  intro hhear
  have hstate := hhear.streamStart_spec.1
  rcases hgathers.states c hc with h | h | h <;> simp [h] at hstate

/-- The handler has moved within its phase, and what is new of its connections is the one at this
position, which was heard. -/
structure MovesAt (i : Nat) (h : Handler) (hs : List Happening) (h' : Handler) : Prop where
  way : Way Move h hs h'
  phase : h'.phase = h.phase
  length : h'.connections.length = h.connections.length
  others : ∀ j, j ≠ i → h'.connections[j]? = h.connections[j]?
  heard : ∀ c, h'.connections[i]? = some c → c.IsHeard

/-- The handler breaks before it leaves its phase. -/
def BreaksWithin (h : Handler) (hs : List Happening) (f : Failure) (h' : Handler) : Prop :=
  Breaks h hs f h' ∧ h'.phase = h.phase

/-- What it comes to that a connection is polled while the handler waits for its masters: what the
connection has heard is still to be heard by the handler. -/
theorem pollConnection_gathering {i : Nat} {c : Connection} (hsound : h.Sound)
    (hphase : h.IsGathering) (hc : h.connections[i]? = some c) :
    Task.Always (onConnection i c Connection.poll) h
      (fun hs polled h₁ =>
        match polled.event with
        | none => MovesAt i h hs h₁
        | some event =>
          Task.Always (onEvent c.label event) h₁ (fun hs' _ h' => MovesAt i h (hs ++ hs') h')
            (fun hs' => BreaksWithin h (hs ++ hs')))
      (BreaksWithin h) := by
  obtain ⟨before, after, hconnections, hlength, hset⟩ := split_at hc
  have hpolls : h.Polls before := .inl hphase
  have hothers : ∀ c', ∀ j, j ≠ i →
      (h.put before c' after).connections[j]? = h.connections[j]? := by
    intro c' j hj
    rw [← hset c']
    exact List.getElem?_set_ne (Ne.symm hj)
  have hsame : ∀ c', (h.put before c' after).connections.length = h.connections.length := by
    intro c'
    simp [hconnections]
  have hthere : ∀ c', c'.IsHeard → ∀ d, (h.put before c' after).connections[i]? = some d →
      d.IsHeard := by
    intro c' hc' d hd
    rw [← hlength, connections_put, List.getElem?_append_right (Nat.le_refl _), Nat.sub_self] at hd
    exact Option.some.inj hd ▸ hc'
  simp only [onConnection_always, hset]
  refine ((Connection.poll_always c).and (Connection.poll_isHeard c)).mono ?_ ?_
  · rintro _ r c' ⟨⟨c₁, hs₁, hs₂, rfl, hsteps, hheard⟩, hdone⟩
    have hway := exchanges hpolls hconnections hsteps
    have hsound₁ := hsound.of_way hway
    cases hevent : r.event with
    | none =>
      rw [hevent] at hheard
      obtain ⟨rfl, rfl⟩ := hheard
      exact ⟨by simpa using hway, rfl, hsame _, hothers _, hthere _ hdone⟩
    | some event =>
      rw [hevent] at hheard
      cases event with
      | streamStart start =>
        exact absurd hheard ((hsound₁.gathers hphase).no_streamStart (mem_of_split rfl))
      | tableInfo info =>
        refine onTableInfo_always.mono ?_ ?_
        · rintro _ _ _ ⟨hagrees, rfl, rfl⟩
          have hmove : Move (h.put before c₁ after) hs₂ _ := .tableInfo hphase rfl hheard hagrees
          exact ⟨by simpa using hway.tail hmove, rfl, hsame _, hothers _, hthere _ hdone⟩
        · rintro _ f _ ⟨hagrees, rfl, rfl, rfl⟩
          have hfault := Fault.divergence (h := h.put before c₁ after) hphase rfl hheard hagrees
          rw [(Connection.same_of_steps hsteps).label_eq] at hfault
          exact ⟨⟨_, hs₁, hs₂, by simp, hway, hfault⟩, rfl⟩
  · rintro _ f c' ⟨⟨c₁, hs₁, hs₂, rfl, hsteps, hfault⟩, -⟩
    have hway := exchanges hpolls hconnections hsteps
    exact ⟨⟨_, hs₁, hs₂, rfl, hway, .connection (h := h.put before c₁ after) hpolls rfl hfault⟩,
      rfl⟩

/-- To poll connections is to poll the first of them, to hear what it has heard, and to
poll the others. -/
theorem pollConnections_cons {i : Nat} {positions : List Nat} {c : Connection}
    {ok : List Happening → Handler → Prop} {error : List Happening → Failure → Handler → Prop}
    (hsound : h.Sound) (hphase : h.IsGathering) (hc : h.connections[i]? = some c)
    (hfirst : ∀ hs f h', BreaksWithin h hs f h' → error hs f h')
    (hrest : ∀ hs h₁, MovesAt i h hs h₁ →
      Task.Always (pollConnections positions) h₁ (fun hs' _ h' => ok (hs ++ hs') h')
        (fun hs' => error (hs ++ hs'))) :
    Task.Always (pollConnections (i :: positions)) h (fun hs _ h' => ok hs h') error := by
  simp only [pollConnections, Task.always_bind, Task.always_get, List.nil_append, hc]
  refine (pollConnection_gathering hsound hphase hc).mono ?_ hfirst
  intro hs polled h₁ hpolled
  cases hevent : polled.event with
  | none =>
    rw [hevent] at hpolled
    simpa using hrest hs h₁ hpolled
  | some event =>
    rw [hevent] at hpolled
    simp only [Task.always_bind]
    refine hpolled.mono ?_ fun _ _ _ => hfirst _ _ _
    intro hs' _ h₂ hmoves
    simpa using hrest _ h₂ hmoves

theorem pollConnections_gathering {positions : List Nat} (hsound : h.Sound)
    (hphase : h.IsGathering) (hinside : ∀ i ∈ positions, i < h.connections.length) :
    Task.Always (pollConnections positions) h
      (fun hs _ h' => Way Move h hs h' ∧ h'.phase = h.phase) (BreaksWithin h) := by
  induction positions generalizing h with
  | nil => exact Task.always_pure.2 ⟨.refl h, rfl⟩
  | cons i positions ih =>
    obtain ⟨hi, hlater⟩ := List.forall_mem_cons.1 hinside
    refine pollConnections_cons hsound hphase (List.getElem?_eq_getElem hi) (fun _ _ _ h => h) ?_
    rintro hs h₁ ⟨hway, hsame, hlength, -, -⟩
    have hphase₁ : h₁.IsGathering := by rwa [IsGathering, hsame]
    refine (ih (hsound.of_way hway) hphase₁ fun i hi => by simpa [hlength] using hlater i hi).mono
      ?_ ?_
    · rintro hs' _ h' ⟨hway', hsame'⟩
      exact ⟨hway.trans hway', hsame'.trans hsame⟩
    · rintro hs' f h' ⟨hbreaks, hsame'⟩
      exact ⟨hbreaks.prepend hway, hsame'.trans hsame⟩

theorem pollConnections_heard {positions : List Nat} (hsound : h.Sound) (hphase : h.IsGathering)
    (hinside : ∀ i ∈ positions, i < h.connections.length) :
    Task.Always (pollConnections positions) h
      (fun _ _ h' => ∀ i, (i ∈ positions ∨ ∀ c, h.connections[i]? = some c → c.IsHeard) →
        ∀ c, h'.connections[i]? = some c → c.IsHeard)
      (fun _ _ _ => True) := by
  induction positions generalizing h with
  | nil => exact Task.always_pure.2 fun i hi => hi.resolve_left List.not_mem_nil
  | cons j positions ih =>
    obtain ⟨hj, hlater⟩ := List.forall_mem_cons.1 hinside
    refine pollConnections_cons hsound hphase (List.getElem?_eq_getElem hj)
      (fun _ _ _ _ => trivial) ?_
    rintro hs h₁ ⟨hway, hsame, hlength, hothers, hheard⟩
    have hphase₁ : h₁.IsGathering := by rwa [IsGathering, hsame]
    refine (ih (hsound.of_way hway) hphase₁ fun i hi => by simpa [hlength] using hlater i hi).mono
      ?_
      fun _ _ _ _ => trivial
    intro _ _ h' hdone i hi
    refine hdone i ?_
    by_cases heq : i = j
    · exact .inr (heq ▸ hheard)
    · rw [hothers i heq]
      exact hi.imp_left fun hmem => (List.mem_cons.1 hmem).resolve_left heq

theorem pollConnections_requesting (hsound : h.Sound) (hphase : h.phase = .requestingStream) :
    Task.Always (pollConnections [0]) h
      (fun hs _ h' => Way Move h hs h' ∧ h'.phase ≠ .stopping ∧ ¬h'.IsGathering) (Breaks h) := by
  obtain ⟨first, rest, hconnections, -⟩ := (hsound.requests hphase).states
  have hzero : h.connections[0]? = some first := by rw [hconnections]; rfl
  have hset : ∀ c', { h with connections := h.connections.set 0 c' } = h.put [] c' rest := by
    intro c'
    rw [put, hconnections]
    rfl
  have hpolls : h.Polls [] := .inr ⟨hphase, rfl⟩
  simp only [pollConnections, Task.always_bind, Task.always_get, List.nil_append, hzero,
    onConnection_always, hset]
  refine (Connection.poll_always first).mono ?_ ?_
  · rintro _ r first' ⟨first₁, hs₁, hs₂, rfl, hsteps, hheard⟩
    have hway := exchanges hpolls hconnections hsteps
    have hrequests := (hsound.of_way hway).requests hphase
    cases hevent : r.event with
    | none =>
      rw [hevent] at hheard
      obtain ⟨rfl, rfl⟩ := hheard
      simpa [IsGathering, hphase] using hway
    | some event =>
      rw [hevent] at hheard
      cases event with
      | tableInfo info =>
        obtain ⟨_, _, hsplit, hfirst, -⟩ := hrequests.states
        cases hsplit
        have hstate := (Connection.Hear.tableInfo_spec hheard).1
        simp [hfirst] at hstate
      | streamStart start =>
        have hstart := onStreamStart_always (h := h.put [] first' rest) start hphase
        simp only [onEvent, Task.always_bind]
        refine hstart.mono ?_ ?_
        · rintro _ _ _ ⟨hs', writer, hsupplies, rfl, rfl⟩
          have hmove := Move.streamStart (h := h.put [] first₁ rest) hphase rfl hheard hsupplies
          simpa [IsGathering] using hway.tail hmove
        · rintro _ f _ ⟨e, hnone, rfl, rfl, rfl⟩
          have hfault :=
            Fault.createTable (h := h.put [] first₁ rest) (e := e) hphase rfl hheard hnone
          exact ⟨_, hs₁, _, by simp, hway, hfault⟩
  · rintro _ f c' ⟨c₁, hs₁, hs₂, rfl, hsteps, hfault⟩
    have hway := exchanges hpolls hconnections hsteps
    exact ⟨_, hs₁, hs₂, rfl, hway, .connection (h := h.put [] c₁ rest) hpolls rfl hfault⟩

/-! ### The rendezvous -/

theorem resolveTable_always (hphase : h.phase = .awaitingRendezvous) (hready : h.allReady) :
    Task.Always resolveTable h (fun hs rows h' => h.Resolves hs rows h') (Fault h) := by
  simp only [resolveTable, Task.always_bind, Task.always_get, Dialogue.tableExists,
    Dialogue.openWriter, Dialogue.releaseWriter, Dialogue.call, Task.always_lift,
    Dialogue.always_ask, Dialogue.always_done, List.nil_append]
  intro answer
  rcases answer with e | _ | _
  · exact Task.always_throw.2 (.tableExists hphase hready)
  · exact Task.always_pure.2 .absent
  · simp only [ne_eq, bind_pure_comp, ExceptT.bind_throw, ite_not, List.cons_append,
      List.nil_append, Task.always_bind, Task.always_lift, Dialogue.always_ask,
      Dialogue.always_done]
    intro answer
    cases answer with
    | error e => exact Task.always_throw.2 (.openWriter hphase hready)
    | ok writer =>
      by_cases hversion : writer.structureVersion = h.structureVersion
      · simpa [hversion] using Resolves.present hversion
      · have hfault := Fault.mismatch hphase hready hversion
        simpa [hversion] using fun _ => hfault

/-- Looking up the table changes nothing but the writer. -/
theorem Resolves.keeps {h₁ : Handler} {hs : List Happening} {rows : UInt64}
    (hresolves : h.Resolves hs rows h₁) :
    h₁.connections = h.connections ∧ h₁.phase = h.phase ∧
      h₁.agreedRequest rows = h.agreedRequest rows := by
  cases hresolves <;> exact ⟨rfl, rfl, rfl⟩

theorem onRendezvous_always (hsound : h.Sound) (hphase : h.phase = .awaitingRendezvous)
    (hready : h.allReady) :
    Task.Always onRendezvous h (fun hs _ h' => Move h hs h' ∧ h'.phase = .requestingStream)
      (Fault h) := by
  have hnonempty := hsound.nonempty (by simp [hphase, Phase.isHandshaking])
  obtain ⟨first, rest, hconnections⟩ := List.exists_cons_of_ne_nil hnonempty
  have hstate := (hsound.gathers (.inr hphase)).ready_of_allReady hsound hready first
    (by simp [hconnections])
  simp only [onRendezvous, Task.always_bind]
  refine (resolveTable_always hphase hready).mono ?_ fun _ _ _ h => h
  intro hs rows h₁ hresolves
  obtain ⟨hsame, hphase₁, hrequest⟩ := hresolves.keeps
  have hset : ∀ c', { h₁ with connections := h₁.connections.set 0 c' } = h₁.put [] c' rest := by
    intro c'
    rw [put, hsame, hconnections]
    rfl
  have hrequests := Connection.requestStream_always (r := h₁.agreedRequest rows) hstate
  simp only [Task.always_get, hsame, hconnections]
  simp only [Task.always_bind, onConnection_always, hset, List.nil_append]
  refine hrequests.mono ?_ ?_
  · rw [hrequest]
    intro hs' _ first' hasked
    have henter : (h₁.put [] first' rest).phase.canMoveTo .requestingStream := by
      rw [phase_put, hphase₁, hphase]
      rfl
    refine (enter_always henter).mono ?_ (fun _ _ _ => False.elim)
    rintro _ _ _ ⟨rfl, rfl⟩
    rw [← List.append_assoc]
    exact ⟨.rendezvous hphase hready hconnections hresolves hasked, rfl⟩
  · rw [hrequest]
    intro hs' f first' hfault
    exact .request hphase hready hconnections hresolves hfault

/-! ### The handoff -/

theorem handWriter_always (hsound : h.Sound) (hphase : h.phase = .handingOff) :
    Task.Always handWriter h
      (fun hs given h' => Way Move h hs h' ∧ h'.phase = .handingOff ∧
        h'.writerTransferred = given)
      (fun _ _ _ => False) := by
  cases htransferred : h.writerTransferred with
  | true => simp [handWriter, htransferred, Way.refl, hphase]
  | false =>
    have hover := (hsound.handsOver hphase).writer
    rw [htransferred] at hover
    obtain ⟨writer, hwriter⟩ := Option.isSome_iff_exists.1 (hover.resolve_left (by simp)).1
    have hrefused := Way.single (Move.writerRefused hphase htransferred hwriter)
    have htaken := Way.single (Move.writerTaken hphase htransferred hwriter)
    simp only [handWriter, htransferred, hwriter, Task.always_bind, Task.always_get,
      Bool.false_eq_true, if_false, Dialogue.offerWriter, Dialogue.call, Task.always_lift,
      Dialogue.always_ask, Dialogue.always_done, List.nil_append]
    intro answer
    cases answer with
    | true =>
      simp only [if_true, bind_pure_comp, List.cons_append, List.nil_append,
        Task.always_map, Task.always_set, and_true]
      exact ⟨htaken, hphase⟩
    | false =>
      simp only [Bool.false_eq_true, if_false, report, bind_pure_comp, List.cons_append,
        List.nil_append, Task.always_map, Task.always_lift, Dialogue.always_metric]
      exact ⟨hrefused, hphase, htransferred⟩

theorem hand_writes {given left : List Connection} {c c' : Connection} {hs : List Happening}
    (hhands : h.Hands given c left) (hwrites : Way Connection.Write c hs c') :
    Way Move h hs (h.put given c' left) ∧ (h.put given c' left).Hands given c' left := by
  induction hwrites with
  | refl =>
    rw [put_self hhands.2.2.1]
    exact ⟨.refl h, hhands⟩
  | tail _ hwrite ih =>
    obtain ⟨hway, hhands₁⟩ := ih
    have hstate := (Connection.keeps_of_writes (.single hwrite)).1
    refine ⟨hway.tail (.write hhands₁ hwrite), hhands₁.1, hhands₁.2.1, rfl, hhands₁.2.2.2.1, ?_⟩
    rw [Connection.isTransferred, hstate]
    exact hhands₁.2.2.2.2

/-- An attempt to hand over the connection that is next: it is taken, or it stays next. -/
theorem tryTransfer_moves {given left : List Connection} {c : Connection} (hsound : h.Sound)
    (hhands : h.Hands given c left) :
    Task.Always Connection.tryTransfer c
      (fun hs taken c' => c'.isTransferred = taken ∧
        Way Move h (hs ++ if taken then [] else [.reported (.handoffRetry "connection")])
          (h.put given c' left))
      (fun hs f c' => Breaks h hs f (h.put given c' left)) := by
  refine (Connection.tryTransfer_always (hsound.state_of_hands hhands)).mono ?_ ?_
  · intro _ taken c' htransfer
    cases htransfer with
    | offer hwrites hoffer =>
      obtain ⟨hway, hhands₁⟩ := hand_writes hhands hwrites
      have hkept := (hsound.of_way hway).kept_of_hands hhands₁
      cases taken with
      | true =>
        obtain ⟨_, -, -, -, -, -, htaken, -⟩ := hoffer.spec hkept
        have hway₂ := hway.tail (.socketTaken hhands₁ hoffer)
        exact ⟨by simp [Connection.isTransferred, htaken], by simpa using hway₂⟩
      | false =>
        obtain ⟨_, -, -, -, -, -, hrefused, -⟩ := hoffer.spec hkept
        have hway₂ := hway.tail (.socketRefused hhands₁ hoffer)
        refine ⟨?_, by simpa using hway₂⟩
        rw [Connection.isTransferred, hrefused]
        exact hhands₁.2.2.2.2
    | blocked hwrites hpending =>
      obtain ⟨hway, hhands₁⟩ := hand_writes hhands hwrites
      exact ⟨hhands₁.2.2.2.2, hway.tail (.waits hhands₁ hpending)⟩
    | bare hwrites hnone =>
      obtain ⟨hway, hhands₁⟩ := hand_writes hhands hwrites
      have hkept := (hsound.of_way hway).kept_of_hands hhands₁
      obtain ⟨_, _, -, htake, -⟩ := Connection.takeHandoff_eq hkept
      simp [htake] at hnone
  · rintro _ f c' ⟨c₁, hs₁, hs₂, rfl, hwrites, hfault, hio⟩
    obtain ⟨hway, hhands₁⟩ := hand_writes hhands hwrites
    exact ⟨_, hs₁, hs₂, rfl, hway, .handoff hhands₁ hfault ⟨_, hio⟩⟩

/-- What has come of offering connections. -/
def Handed (h : Handler) (hs : List Happening) (complete : Bool) (h' : Handler) : Prop :=
  Way Move h hs h' ∧ h'.phase = .handingOff ∧ h'.writerTransferred = true ∧
    (complete = true ↔ ∀ c ∈ h'.connections, c.isTransferred)

theorem Handed.prepend {h₁ h' : Handler} {hs hs' : List Happening} {complete : Bool}
    (hway : Way Move h hs h₁) (hhanded : Handed h₁ hs' complete h') :
    Handed h (hs ++ hs') complete h' :=
  ⟨hway.trans hhanded.1, hhanded.2⟩

theorem handConnections_always (given : List Connection) {left : List Connection}
    (hsound : h.Sound) (hphase : h.phase = .handingOff) (hwriter : h.writerTransferred = true)
    (hconnections : h.connections = given ++ left) (hgiven : ∀ c ∈ given, c.isTransferred) :
    Task.Always (handConnections (List.range' given.length left.length)) h
      (fun hs handing => Handed h hs handing.complete) (Breaks h) := by
  induction left generalizing given h with
  | nil =>
    rw [List.append_nil] at hconnections
    rw [← hconnections] at hgiven
    exact Task.always_pure.2 ⟨.refl h, hphase, hwriter, fun _ => hgiven, fun _ => rfl⟩
  | cons c left ih =>
    have hc : h.connections[given.length]? = some c := by simp [hconnections]
    have hset : ∀ c', { h with connections := h.connections.set given.length c' } =
        h.put given c' left := by
      simp [put, hconnections]
    have hrest : ∀ (hs : List Happening) (c' : Connection), Way Move h hs (h.put given c' left) →
        c'.isTransferred →
        Task.Always (handConnections (List.range' (given.length + 1) left.length))
          (h.put given c' left) (fun hs' handing => Handed h (hs ++ hs') handing.complete)
          (fun hs' => Breaks h (hs ++ hs')) := by
      intro hs c' hway htransferred
      have hgiven' : ∀ x ∈ given ++ [c'], x.isTransferred := by
        intro x hx
        rw [List.mem_append, List.mem_singleton] at hx
        rcases hx with hx | rfl
        · exact hgiven x hx
        · exact htransferred
      have hlater := ih (given ++ [c']) (hsound.of_way hway) hphase hwriter (by simp) hgiven'
      rw [List.length_append, List.length_singleton] at hlater
      exact hlater.mono (fun _ _ _ => Handed.prepend hway) (fun _ _ _ => Breaks.prepend hway)
    rw [List.length_cons, List.range'_succ]
    simp only [handConnections, Task.always_bind, Task.always_get, hc, List.nil_append]
    by_cases htransferred : c.isTransferred
    · have hself := hrest [] c (by rw [put_self hconnections]; exact .refl h) htransferred
      rw [put_self hconnections] at hself
      simpa only [htransferred, if_true, List.nil_append] using hself
    have hhands : h.Hands given c left :=
      ⟨hphase, hwriter, hconnections, hgiven, by simpa using htransferred⟩
    simp only [htransferred, Bool.false_eq_true, if_false, Task.always_bind, onConnection_always,
      hset]
    refine (tryTransfer_moves hsound hhands).mono ?_ (fun _ _ _ h => h)
    rintro hs taken c' ⟨htaken, hway⟩
    cases taken with
    | true => simpa using hrest hs c' (by simpa using hway) htaken
    | false => simpa [report, Handed, hphase, hwriter] using ⟨hway, c', .inr (.inl rfl), htaken⟩

/-- At the end of a poll the handler has not put off what it could have done. -/
structure Settled (h : Handler) : Prop where
  initializing : h.phase = .initializing → ∃ c ∈ h.connections, c.hasRequestedTableInfo = false
  gathering : h.IsGathering → h.allReady = false
  heard : h.IsGathering → ∀ c ∈ h.connections, c.IsHeard
  handingOff : h.phase = .handingOff →
    ¬(h.writerTransferred = true ∧ ∀ c ∈ h.connections, c.isTransferred)

theorem not_isGathering {phase : Phase} (hphase : h.phase = phase)
    (h₁ : phase ≠ .initializing) (h₂ : phase ≠ .awaitingRendezvous) : ¬h.IsGathering := by
  rintro (h | h)
  · exact h₁ (hphase.symm.trans h)
  · exact h₂ (hphase.symm.trans h)

theorem settled_of_phase {phase : Phase} (hphase : h.phase = phase) (h₁ : phase ≠ .initializing)
    (h₂ : phase ≠ .awaitingRendezvous) (h₃ : phase ≠ .handingOff) : h.Settled :=
  have hover := not_isGathering hphase h₁ h₂
  ⟨fun h => absurd (hphase.symm.trans h) h₁, fun h => absurd h hover, fun h => absurd h hover,
    fun h => absurd (hphase.symm.trans h) h₃⟩

theorem settled_of_handingOff (hphase : h.phase = .handingOff)
    (hleft : ¬(h.writerTransferred = true ∧ ∀ c ∈ h.connections, c.isTransferred)) : h.Settled :=
  have hover := not_isGathering hphase (by decide) (by decide)
  ⟨fun h => absurd (hphase.symm.trans h) (by decide), fun h => absurd h hover, fun h =>
    absurd h hover,
    fun _ => hleft⟩

theorem pollHandoff_always {now : Instant} (hsound : h.Sound) (hphase : h.phase = .handingOff) :
    Task.Always (pollHandoff now) h
      (fun hs _ h' => Way Move h hs h' ∧ h'.Settled ∧ h'.phase ≠ .stopping) (Breaks h) := by
  simp only [pollHandoff, Task.always_bind, Task.always_get, List.nil_append]
  refine (handWriter_always hsound hphase).mono ?_ (fun _ _ _ => False.elim)
  rintro hs given h₁ ⟨hway, hphase₁, hwriter⟩
  have hsound₁ := hsound.of_way hway
  cases given with
  | false =>
    have hsettled : h₁.Settled := settled_of_handingOff hphase₁ fun h => by simp [hwriter] at h
    simpa [hphase₁] using ⟨hway, hsettled⟩
  | true =>
    have hhand := handConnections_always [] hsound₁ hphase₁ hwriter rfl (by simp)
    rw [List.length_nil, ← List.range_eq_range'] at hhand
    simp only [Bool.not_true, Bool.false_eq_true, if_false, Task.always_bind, Task.always_get]
    refine hhand.mono ?_ (fun _ _ _ => Breaks.prepend hway)
    rintro hs' handing h₂ ⟨hway', hphase₂, hwriter₂, hall⟩
    have hway₂ := hway.trans hway'
    cases hcomplete : handing.complete with
    | false =>
      have hsettled : h₂.Settled :=
        settled_of_handingOff hphase₂ fun h => by simp [hall.2 h.2] at hcomplete
      simpa [hphase₂] using ⟨hway₂, hsettled⟩
    | true =>
      have henter : h₂.phase.canMoveTo .streaming := by
        rw [hphase₂]
        rfl
      have hphase₃ : phase { h₂ with phase := .streaming } = .streaming := rfl
      have hsettled := settled_of_phase hphase₃ (by decide) (by decide) (by decide)
      simp only [Bool.not_true, Bool.false_eq_true, if_false, bind_pure_comp,
        List.nil_append, Task.always_bind, Task.always_map, Task.always_lift, Task.always_get]
      refine (enter_always henter).mono ?_ (fun _ _ _ => False.elim)
      rintro _ _ _ ⟨rfl, rfl⟩
      have hway₃ := hway₂.tail (.streams now hphase₂ hwriter₂ (hall.1 hcomplete))
      rw [List.append_assoc] at hway₃
      simpa [report, elapsed] using And.intro hway₃ hsettled

/-! ### Polls -/

theorem onRendezvous_moves {h₀ : Handler} {hs : List Happening} (hway : Way Move h₀ hs h)
    (hsound : h.Sound) (hphase : h.phase = .awaitingRendezvous) (hready : h.allReady) :
    Task.Always onRendezvous h
      (fun hs' _ h' => Way Move h₀ (hs ++ hs') h' ∧ h'.phase = .requestingStream)
      (fun hs' => Breaks h₀ (hs ++ hs')) := by
  refine (onRendezvous_always hsound hphase hready).mono ?_ ?_
  · rintro hs' _ h' ⟨hmove, hphase'⟩
    exact ⟨hway.tail hmove, hphase'⟩
  · intro hs' f h' hfault
    exact ⟨h, hs, hs', rfl, hway, hfault⟩

/-- What a step to the next phase comes to, where nothing goes wrong. -/
structure Advances (h : Handler) (hs : List Happening) (h' : Handler) : Prop where
  way : Way Move h hs h'
  settled : h'.Settled
  next : h.IsGathering → h'.IsGathering ∨ h'.phase = .requestingStream
  unstopped : h.phase ≠ .stopping → h'.phase ≠ .stopping

theorem Gathers.allReady_eq_false (hgathers : h.Gathers) (hsound : h.Sound)
    (hall : ¬h.connections.all (·.hasRequestedTableInfo)) : h.allReady = false := by
  rw [← Bool.not_eq_true]
  intro hready
  refine hall (List.all_eq_true.2 fun c hc => ?_)
  have hstate := hgathers.ready_of_allReady hsound hready c hc
  simp [Connection.hasRequestedTableInfo, hstate]

theorem advance_always {now : Instant} (hsound : h.Sound)
    (hheard : h.IsGathering → ∀ c ∈ h.connections, c.IsHeard) :
    Task.Always (advance now) h (fun hs _ h' => Advances h hs h') (Breaks h) := by
  have hmeet : ∀ (hs : List Happening) (h' : Handler), Way Move h hs h' →
      h'.phase = .requestingStream → Advances h hs h' :=
    fun _ _ hway hphase =>
      ⟨hway, settled_of_phase hphase (by decide) (by decide) (by decide), fun _ => .inr hphase,
        fun _ => by simp [hphase]⟩
  cases hphase : h.phase with
  | initializing =>
    by_cases hall : h.connections.all (·.hasRequestedTableInfo)
    case neg =>
      have hearly := (hsound.gathers (.inl hphase)).allReady_eq_false hsound hall
      have hstays : Advances h [] h :=
        ⟨.refl h, ⟨fun _ => by simpa using hall, fun _ => hearly, hheard, by simp [hphase]⟩,
          fun h => .inl h, id⟩
      simpa [advance, hphase, hall, -List.all_eq_true] using hstays
    have hmove : Move h _ { h with phase := .awaitingRendezvous } :=
      .allConnected hphase (List.all_eq_true.1 hall)
    have hsound₁ := hmove.sound hsound
    have henter : h.phase.canMoveTo .awaitingRendezvous := by
      rw [hphase]
      rfl
    simp only [advance, hphase, hall, decide_true, Bool.and_self, if_true, Task.always_bind,
      Task.always_get]
    refine (enter_always henter).mono ?_ (fun _ _ _ => False.elim)
    rintro _ _ _ ⟨rfl, rfl⟩
    have hsame : allReady { h with phase := .awaitingRendezvous } = h.allReady := rfl
    by_cases hready : h.allReady
    · simp only [decide_true, hsame, hready, Bool.and_self, if_true, Bool.or_self,
        Bool.true_or, bind_pure_comp, List.nil_append, List.cons_append, Task.always_bind,
        Task.always_get]
      refine (onRendezvous_moves (.single hmove) hsound₁ rfl hready).mono ?_ (fun _ _ _ h => h)
      rintro hs _ h' ⟨hway, hphase'⟩
      simpa [hphase'] using hmeet _ _ hway hphase'
    · have hstays : Advances h _ _ :=
        ⟨.single hmove,
          ⟨by simp, fun _ => by simpa [hsame] using hready, fun _ => hheard (.inl hphase), by simp⟩,
          fun _ => .inl (.inr rfl), fun _ => Phase.noConfusion⟩
      simpa [hsame, hready] using hstays
  | awaitingRendezvous =>
    by_cases hready : h.allReady
    · simp only [advance, Bool.and_eq_true, decide_eq_true_eq, List.all_eq_true, bind_pure_comp,
        Task.always_bind, Task.always_get, hphase, reduceCtorEq, false_and, if_true, if_false,
        decide_false, Bool.false_and, Bool.false_or, List.nil_append, hready, and_self, decide_true,
        Bool.and_self]
      refine (onRendezvous_moves (.refl h) hsound hphase hready).mono ?_ (fun _ _ _ h => h)
      rintro hs _ h' ⟨hway, hphase'⟩
      simpa [hphase'] using hmeet _ _ hway hphase'
    · have hstays : Advances h [] h :=
        ⟨.refl h, ⟨by simp [hphase], fun _ => by simpa using hready, hheard, by simp [hphase]⟩,
          fun h => .inl h, id⟩
      simpa [advance, hphase, hready] using hstays
  | handingOff =>
    simp only [advance, Bool.and_eq_true, decide_eq_true_eq, List.all_eq_true, bind_pure_comp,
      Task.always_bind, Task.always_get, hphase, reduceCtorEq, false_and, if_true, if_false,
      decide_false, Bool.false_and, Bool.false_or, List.nil_append, Task.always_map]
    refine (pollHandoff_always hsound hphase).mono ?_ (fun _ _ _ h => h)
    rintro hs _ h' ⟨hway, hsettled, hphase'⟩
    exact ⟨hway, hsettled, fun h => absurd h (not_isGathering hphase (by decide) (by decide)),
      fun _ => hphase'⟩
  | requestingStream | streaming | stopping | stopped | distressed =>
    have hstays : Advances h [] h :=
      ⟨.refl h, settled_of_phase hphase (by decide) (by decide) (by decide), fun h => .inl h, id⟩
    simpa [advance, hphase] using hstays

/-- There is a connection at every position that is polled. -/
theorem Sound.polledPositions_lt (hsound : h.Sound) (hphase : h.phase.isHandshaking) :
    ∀ i ∈ h.polledPositions, i < h.connections.length := by
  have hnonempty := List.length_pos_iff.2 (hsound.nonempty hphase)
  intro i hi
  rw [polledPositions, List.mem_range] at hi
  split at hi
  · exact Nat.lt_of_lt_of_le hi hnonempty
  · exact hi

theorem isHandshaking_of_early (hphase : h.IsGathering ∨ h.phase = .requestingStream) :
    h.phase.isHandshaking := by
  rcases hphase with (hphase | hphase) | hphase <;> rw [hphase] <;> rfl

/-- As long as masters have not answered, all connections are polled; and where all have answered,
none has anything left to hear. -/
theorem Sound.isHeard_of_unpolled (hsound : h.Sound) (hphase : h.IsGathering) {i : Nat}
    {c : Connection} (hc : h.connections[i]? = some c) (hi : i ∉ h.polledPositions) :
    c.IsHeard := by
  by_cases hready : h.allReady
  · have hstate :=
      (hsound.gathers hphase).ready_of_allReady hsound hready c (List.mem_of_getElem? hc)
    exact Connection.isHeard_of_state (by rw [hstate]; decide)
  · rw [polledPositions, if_neg hready, List.mem_range] at hi
    exact absurd (List.getElem?_eq_some_iff.1 hc).1 hi

theorem pollConnections_always (hsound : h.Sound)
    (hphase : h.IsGathering ∨ h.phase = .requestingStream) :
    Task.Always (pollConnections h.polledPositions) h
      (fun hs _ h' => Way Move h hs h' ∧ (h.IsGathering → h'.IsGathering) ∧ h'.phase ≠ .stopping ∧
        (h'.IsGathering → ∀ c ∈ h'.connections, c.IsHeard))
      (Breaks h) := by
  rcases hphase with hphase | hphase
  · have hinside := hsound.polledPositions_lt (isHandshaking_of_early (.inl hphase))
    refine ((pollConnections_gathering hsound hphase hinside).and
      (pollConnections_heard hsound hphase hinside)).mono ?_ fun _ _ _ h => h.1.1
    rintro hs _ h' ⟨⟨hway, hsame⟩, hheard⟩
    refine ⟨hway, fun _ => by rwa [IsGathering, hsame], ?_, fun _ c hc => ?_⟩
    · rw [hsame]
      rcases hphase with hphase | hphase <;> rw [hphase] <;> decide
    · obtain ⟨i, hi⟩ := List.mem_iff_getElem?.1 hc
      refine hheard i ?_ c hi
      by_cases hpolled : i ∈ h.polledPositions
      · exact .inl hpolled
      · exact .inr fun c hc => hsound.isHeard_of_unpolled hphase hc hpolled
  · have hready : h.allReady := by simpa [allReady] using (hsound.requests hphase).ready
    have hpositions : h.polledPositions = [0] := by rw [polledPositions, if_pos hready]; rfl
    rw [hpositions]
    refine (pollConnections_requesting hsound hphase).mono ?_ (fun _ _ _ h => h)
    rintro hs _ h' ⟨hway, hphase', hover⟩
    exact ⟨hway, fun h => absurd h (not_isGathering hphase (by decide) (by decide)), hphase',
      fun h => absurd h hover⟩

theorem pollHandshake_always {now : Instant} (hsound : h.Sound) (hphase : h.phase.isHandshaking) :
    Task.Always (pollHandshake now) h (fun hs _ h' => Advances h hs h') (Breaks h) := by
  by_cases hoff : h.phase = .handingOff
  · simp only [pollHandshake, bind_pure_comp, Task.always_bind, Task.always_get, hoff, if_true,
      List.nil_append]
    refine (pollHandoff_always hsound hoff).mono ?_ (fun _ _ _ h => h)
    rintro hs _ h' ⟨hway, hsettled, hphase'⟩
    exact ⟨hway, hsettled, fun h => absurd h (not_isGathering hoff (by decide) (by decide)),
      fun _ => hphase'⟩
  have hpolls : h.IsGathering ∨ h.phase = .requestingStream := by
    unfold IsGathering
    cases hp : h.phase <;> simp_all [Phase.isHandshaking]
  by_cases htimeout : h.handshakeTimeout.nanoseconds ≤ (h.elapsed now).nanoseconds
  · have hbreaks : Breaks h _ _ h := ⟨h, [], [], rfl, .refl h, .timeout now hpolls htimeout⟩
    simpa [pollHandshake, hoff, htimeout] using hbreaks
  simp only [pollHandshake, hoff, htimeout, Task.always_bind, Task.always_get, if_false,
    List.nil_append]
  refine (pollConnections_always hsound hpolls).mono ?_ (fun _ _ _ h => h)
  rintro hs busy h₁ ⟨hway, hstill, hphase₁, hheard⟩
  refine (advance_always (hsound.of_way hway) hheard).mono ?_ (fun _ _ _ => Breaks.prepend hway)
  rintro hs' advanced h₂ ⟨hway', hsettled, hnext, hunstopped⟩
  have hadvances : Advances h (hs ++ hs') h₂ :=
    ⟨hway.trans hway', hsettled, hnext ∘ hstill, fun _ => hunstopped hphase₁⟩
  simpa using hadvances

theorem phase_of_polls {before : List Connection} (hpolls : h.Polls before) :
    h.IsGathering ∨ h.phase = .requestingStream :=
  hpolls.imp_right And.left

theorem Hands.isHandshaking {given left : List Connection} {c : Connection}
    (hhands : h.Hands given c left) : h.phase.isHandshaking := by
  rw [hhands.1]
  rfl

theorem Fault.isHandshaking {h' : Handler} {hs : List Happening} {f : Failure}
    (hfault : Fault h hs f h') : h.phase.isHandshaking := by
  cases hfault with
  | timeout _ hphase => exact isHandshaking_of_early hphase
  | connection hpolls => exact isHandshaking_of_early (phase_of_polls hpolls)
  | divergence hphase => exact isHandshaking_of_early (.inl hphase)
  | tableExists hphase | openWriter hphase | mismatch hphase | request hphase =>
    exact isHandshaking_of_early (.inl (.inr hphase))
  | createTable hphase => exact isHandshaking_of_early (.inr hphase)
  | handoff hhands => exact hhands.isHandshaking

theorem Fault.phase_eq {h' : Handler} {hs : List Happening} {f : Failure}
    (hfault : Fault h hs f h') : h'.phase = h.phase := by
  cases hfault with
  | request _ _ _ hresolves => exact hresolves.keeps.2.1
  | timeout | connection | divergence | tableExists | openWriter | mismatch | createTable
    | handoff => rfl

theorem isLive_of_isHandshaking {phase : Phase} (h : phase.isHandshaking) :
    phase.isLive ∧ phase ≠ .stopping := by
  cases phase <;> first | exact ⟨rfl, by decide⟩ | cases h

theorem poll_moves {now : Instant} (hsound : h.Sound) :
    Work.Always (poll now) h fun hs _ h' => Way Move h hs h' ∧ h'.Settled ∧
      (h.IsGathering → h'.IsGathering ∨ h'.phase = .requestingStream ∨
        h'.phase = .stopping ∧ h'.failure.isSome) := by
  simp only [poll, Work.always_bind, Work.always_get]
  by_cases hphase : h.phase.isHandshaking
  · simp only [hphase, if_true, Work.always_bind, Task.always_perform]
    refine (pollHandshake_always hsound hphase).mono ?_ ?_
    · rintro hs busy h' ⟨hway, hsettled, hnext, -⟩
      simpa using ⟨hway, hsettled, fun h => (hnext h).imp_right Or.inl⟩
    · rintro _ f h' ⟨h₁, hs₁, hs₂, rfl, hway, hfault⟩
      have hlive := isLive_of_isHandshaking (hfault.phase_eq ▸ hfault.isHandshaking)
      refine (fail_always hlive.1 hlive.2).mono ?_
      rintro _ _ _ ⟨rfl, rfl⟩
      have hphase' : (h'.stoppedFor (.failed f)).phase = .stopping := rfl
      have hsettled := settled_of_phase hphase' (by decide) (by decide) (by decide)
      have hway' := hway.tail (.fails hfault)
      have hfailure : (h'.stoppedFor (.failed f)).failure.isSome := by
        simp [stoppedFor, stopped]
      simpa using ⟨hway', hsettled, fun _ => .inr (.inr ⟨hphase', hfailure⟩)⟩
  have hover : ¬h.IsGathering := by
    rintro (h | h) <;> simp [h, Phase.isHandshaking] at hphase
  by_cases hstopping : h.phase = .stopping
  · simp only [Phase.isHandshaking, hstopping, Bool.false_eq_true, if_true, if_false,
      List.nil_append]
    refine (pollStopping_moves hstopping).mono ?_
    rintro hs _ h' ⟨hway, hphase'⟩
    exact ⟨hway, settled_of_phase hphase' (by decide) (by decide) (by decide), fun h =>
      absurd h hover⟩
  · have hsettled : h.Settled :=
      ⟨fun h => absurd (.inl h) hover, fun h => absurd h hover, fun h => absurd h hover,
        fun h => by simp [h, Phase.isHandshaking] at hphase⟩
    simpa [hphase, hstopping] using ⟨Way.refl h, hsettled, fun h => absurd h hover⟩

end ReplicaHandshake.Handler
