import ReplicaHandshake.Proofs.Handler.Drained

/-!
# Why a handler failed

A handler at work has not failed.  A handler that has failed did so once, and keeps the
reason: an *incident*, which is a socket that could not be opened, a fault of its own work, or
a socket that the multiplexer dropped (`Life.fails`).  Once it is there the reason stays as it
is (`failure_of_way`).

A handler that stops without being asked to has failed: it is `Excused`, and stays so whatever it
does but to stop on request (`Moves.excused`, `Hears.excused`).  By its own moves it does not come
to lose a socket (`Moves.dropped`).
-/

namespace ReplicaHandshake.Handler

variable {h h' h₁ : Handler} {past hs : List Happening} {table : TableSettings} {kind : String}
  {reason : StopReason}

/-- What makes a handler of this table fail, after all that was before. -/
inductive Incident (table : TableSettings) : List Happening → String → StopReason → Prop where
  | refused {front : List Happening} {endpoint : Endpoint} (e : SystemError) :
      Incident table (front ++ [.answered (.openSocket endpoint) (.error e)]) "connect"
        (.failed (.connect endpoint.label e))
  | fault {past hs : List Happening} {h h₁ : Handler} {f : Failure} :
      Life table past h → Fault h hs f h₁ → Incident table (past ++ hs) f.kind (.failed f)
  | dropped {past : List Happening} {h : Handler} {c : Connection} {socket : SocketId} :
      Life table past h → h.phase.isLive → h.phase ≠ .stopping →
      h.connections.find? (isTakenAs socket) = some c →
      Incident table past "connection_closed" (.dropped c.endpoint)

/-- There was one failure, and it had this reason. -/
def FailedOnce (table : TableSettings) (past : List Happening) (reason : StopReason) : Prop :=
  ∃ before kind after, past = before ++ .reported (.failure kind) :: after ∧ failures before = [] ∧
    failures after = [] ∧ Incident table before kind reason

theorem FailedOnce.append (hfailed : FailedOnce table past reason) (hnone : failures hs = []) :
    FailedOnce table (past ++ hs) reason := by
  obtain ⟨before, kind, after, rfl, hbefore, hafter, hincident⟩ := hfailed
  refine ⟨before, kind, after ++ hs, by simp, hbefore, ?_, hincident⟩
  rw [failures_append, hafter, hnone, List.append_nil]

theorem failures_stop (h : Handler) : failures h.stopHappenings = [] := by
  obtain ⟨back, hback, heq⟩ := h.stopHappenings_eq
  rw [heq]
  exact hback.failures

theorem failedOnce_stopFor (hpast : failures past = []) (hquiet : Uneventful hs)
    (hincident : Incident table (past ++ hs) kind reason) :
    FailedOnce table (past ++ (hs ++ h₁.stopForHappenings kind)) reason := by
  refine ⟨past ++ hs, kind, h₁.stopHappenings, (List.append_assoc ..).symm, ?_,
    h₁.failures_stop, hincident⟩
  rw [failures_append, hpast, hquiet.failures, List.append_nil]

/-! ### Courses -/

/-- On its course a handler fails, or keeps the reason that it has. -/
theorem Course.failures (hcourse : Course h hs h') :
    failures hs = [] ∧ h'.failure = h.failure ∨
      ∃ front kind reason h₁, Befalls h front kind reason h₁ ∧
        hs = front ++ h₁.stopForHappenings kind ∧
        h' = h₁.stoppedFor reason := by
  cases hcourse with
  | stays hquiet _ hmarks => exact .inl ⟨hquiet.failures, congrArg Prod.fst hmarks⟩
  | enters _ _ hmarks hfront hback =>
    refine .inl ⟨?_, congrArg Prod.fst hmarks⟩
    rw [failures_append, hfront.failures]
    exact hback.failures
  | stops => exact .inl ⟨h.failures_stop, rfl⟩
  | fails hbefalls => exact .inr ⟨_, _, _, _, hbefalls, rfl, rfl⟩
  | freed => exact .inl ⟨rfl, rfl⟩

theorem Befalls.failure (hbefalls : Befalls h hs kind reason h₁) :
    (h₁.stoppedFor reason).failure = h.failure.or (some reason) :=
  congrArg (Option.or · (some reason)) (congrArg Prod.fst hbefalls.marks)

theorem Course.failure_eq (hcourse : Course h hs h') (hsome : h.failure = some reason) :
    h'.failure = some reason := by
  obtain ⟨-, hsame⟩ | ⟨_, _, _, _, hbefalls, -, rfl⟩ := hcourse.failures
  · rw [hsame, hsome]
  · rw [hbefalls.failure, hsome, Option.some_or]

/-- The reason for which a handler failed never changes. -/
theorem failure_of_way (hway : Way Turn h hs h') (hsome : h.failure = some reason) :
    h'.failure = some reason := by
  induction hway with
  | refl => exact hsome
  | tail _ hturn ih => exact hturn.course.failure_eq ih

/-! ### Lives -/

theorem Opens.incident {cs cs' : List Connection} {f : Failure} (hopens : Opens cs hs (some f) cs')
    (past : List Happening) : Incident table (past ++ hs) f.kind (.failed f) := by
  generalize hsome : some f = failed at hopens
  induction hopens generalizing past with
  | done => cases hsome
  | opened socket _ ih =>
    rw [List.append_cons]
    exact ih _ hsome
  | refused e =>
    cases hsome
    exact .refused e

theorem Befalls.incident (hlife : Life table past h) (hbefalls : Befalls h hs kind reason h₁) :
    Incident table (past ++ hs) kind reason := by
  cases hbefalls with
  | refused _ hopens => exact hopens.incident past
  | fault hfault => exact .fault hlife hfault
  | dropped hlive hphase hfind =>
    rw [List.append_nil]
    exact .dropped hlife hlive hphase hfind

/-- A handler has not failed, or it has stopped and keeps the reason for which it failed. -/
theorem Life.fails (hlife : Life table past h) :
    h.failure = none ∧ failures past = [] ∨
      ¬h.AtWork ∧ ∃ reason, h.failure = some reason ∧ FailedOnce table past reason := by
  induction hlife with
  | begins _ hbegins =>
    cases hbegins with
    | opens hopens =>
      refine .inl ⟨rfl, ?_⟩
      rw [failures_append, hopens.uneventful.failures]
      rfl
    | @fails hs _ f hopens =>
      refine .inr ⟨not_atWork_stopping rfl, .failed f, rfl, ?_⟩
      rw [List.append_assoc]
      exact failedOnce_stopFor rfl hopens.uneventful (hopens.incident _)
  | @turns past hs h h' hlife hturn ih =>
    obtain ⟨hnone, hsame⟩ | ⟨front, kind, reason, h₁, hbefalls, rfl, rfl⟩ := hturn.course.failures
    · obtain ⟨hfailure, hpast⟩ | ⟨hover, reason, hfailure, hfailed⟩ := ih
      · exact .inl ⟨hsame.trans hfailure, by rw [failures_append, hpast, hnone]; rfl⟩
      · refine .inr ⟨fun hwork => hover ?_, reason, hsame.trans hfailure, hfailed.append hnone⟩
        exact ((hturn.view hlife.sound).roster hwork).1
    · obtain ⟨hfailure, hpast⟩ := ih.resolve_right fun ih => ih.1 hbefalls.atWork
      refine .inr ⟨not_atWork_stopping rfl, reason, ?_, ?_⟩
      · rw [hbefalls.failure, hfailure, Option.none_or]
      · exact failedOnce_stopFor hpast hbefalls.uneventful (hbefalls.incident hlife)

theorem Life.failedOnce (hlife : Life table past h) (hsome : h.failure = some reason) :
    FailedOnce table past reason := by
  obtain ⟨hnone, -⟩ | ⟨-, reason', hfailure, hfailed⟩ := hlife.fails
  · rw [hnone] at hsome
    cases hsome
  · rw [hsome] at hfailure
    cases hfailure
    exact hfailed

theorem Life.failures_ne_nil (hlife : Life table past h) (hsome : h.failure.isSome) :
    failures past ≠ [] := by
  obtain ⟨reason, hreason⟩ := Option.isSome_iff_exists.1 hsome
  obtain ⟨before, kind, after, rfl, -⟩ := hlife.failedOnce hreason
  rw [failures_append]
  exact List.append_ne_nil_of_right_ne_nil _ (List.cons_ne_nil _ _)

/-! ### Excuses -/

/-- If the handler is stopping, then it has failed. -/
def Excused (h : Handler) : Prop :=
  h.phase = .stopping → h.failure.isSome

theorem Befalls.isSome_failure (hbefalls : Befalls h hs kind reason h₁) :
    (h₁.stoppedFor reason).failure.isSome := by
  rw [hbefalls.failure]
  cases h.failure <;> rfl

theorem Course.isSome_failure (hcourse : Course h hs h') (hsome : h.failure.isSome) :
    h'.failure.isSome := by
  obtain ⟨reason, hsome⟩ := Option.isSome_iff_exists.1 hsome
  rw [hcourse.failure_eq hsome]
  rfl

theorem Begins.excused (hphase : h.phase = .initializing) (hbegins : Begins h hs h') :
    h'.Excused := by
  cases hbegins with
  | opens =>
    intro hstopping
    exact Phase.noConfusion (hphase.symm.trans hstopping)
  | fails hopens => exact fun _ => (Befalls.refused hphase hopens).isSome_failure

theorem Move.excused (hmove : Move h hs h') (hexcused : h.Excused) : h'.Excused := by
  intro hphase
  obtain ⟨hbefore, -⟩ | ⟨front, f, h₁, hfault, rfl, rfl⟩ :=
    hmove.of_over (not_atWork_stopping hphase)
  · exact hmove.course.isSome_failure (hexcused hbefore)
  · exact (Befalls.fault hfault).isSome_failure

theorem Moves.excused (hmoves : Moves h hs h') (hexcused : h.Excused) : h'.Excused := by
  obtain ⟨hway, -⟩ := hmoves
  induction hway with
  | refl => exact hexcused
  | tail _ hmove ih => exact hmove.excused ih

theorem Hears.excused {socket : SocketId} (hhears : Hears socket h hs h') (hexcused : h.Excused) :
    h'.Excused := by
  cases hhears with
  | isOther | letsGo => exact hexcused
  | loses hlive hphase hfind heq =>
    subst heq
    exact fun _ => (Befalls.dropped hlive hphase hfind).isSome_failure

/-! ### Dropped sockets -/

variable {endpoint : Endpoint}

/-- By its own moves a handler does not come to lose a socket. -/
theorem Move.dropped (hmove : Move h hs h') (hdropped : h'.failure = some (.dropped endpoint)) :
    h.failure = some (.dropped endpoint) := by
  cases hmove with
  | fails hfault =>
    rw [(Befalls.fault hfault).failure] at hdropped
    cases hfailure : h.failure with
    | none =>
      rw [hfailure] at hdropped
      cases hdropped
    | some => rwa [hfailure] at hdropped
  | rendezvous _ _ _ hresolves =>
    exact (congrArg Prod.fst hresolves.marks).symm.trans hdropped
  | exchange | tableInfo | allConnected | streamStart | writerTaken | writerRefused | write
    | socketTaken | socketRefused | waits | streams | stopAccepted | stopRefused => exact hdropped

theorem Moves.dropped (hmoves : Moves h hs h') (hdropped : h'.failure = some (.dropped endpoint)) :
    h.failure = some (.dropped endpoint) := by
  obtain ⟨hway, -⟩ := hmoves
  induction hway with
  | refl => exact hdropped
  | tail _ hmove ih => exact ih (hmove.dropped hdropped)

theorem Stops.failure (hstops : Stops h hs h') : h'.failure = h.failure := by
  cases hstops <;> rfl

theorem Life.opening_of_taken (hlife : Life table past h) (hwork : h.AtWork) {c : Connection}
    {socket : SocketId} (hfind : h.connections.find? (isTakenAs socket) = some c) :
    (c.endpoint, socket) ∈ openings past := by
  have htaken := isTakenAs_iff.1 (List.find?_some hfind)
  have hid : c.socketId = some socket := by
    unfold Connection.handedSocket? at htaken
    split at htaken
    · exact htaken
    · cases htaken
  have hmem : (c.endpoint, c.socketId) ∈ h.roster :=
    List.mem_map_of_mem (List.mem_of_find?_eq_some hfind)
  rw [(hlife.roster hwork).1, hid] at hmem
  obtain ⟨⟨endpoint, opened⟩, hopened, heq⟩ := List.mem_map.1 hmem
  cases heq
  exact hopened

/-- A handler that hears of a socket loses it, or has lost another one before. -/
theorem Hears.dropped {socket : SocketId} (hhears : Hears socket h hs h')
    (hlife : Life table past h) (hdropped : h'.failure = some (.dropped endpoint)) :
    h.failure = some (.dropped endpoint) ∨ (endpoint, socket) ∈ openings past := by
  cases hhears with
  | isOther | letsGo => exact .inl hdropped
  | @loses _ c hlive hphase hfind heq =>
    subst heq
    rw [(Befalls.dropped hlive hphase hfind).failure] at hdropped
    cases hfailure : h.failure with
    | none =>
      rw [hfailure] at hdropped
      cases hdropped
      exact .inr (hlife.opening_of_taken (atWork_of_live hlive hphase) hfind)
    | some =>
      rw [hfailure] at hdropped
      exact .inl hdropped

end ReplicaHandshake.Handler
