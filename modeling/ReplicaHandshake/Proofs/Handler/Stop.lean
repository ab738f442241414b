import ReplicaHandshake.Proofs.Handler.Sound

/-!
# How a handler starts and stops

The work of a handler at its beginning and at its end, as moves: `stop_always`, `fail_always`,
`pollStopping_moves` and `finish_always`.  `Stops` and `Hears` say what it comes to that a
handler is asked to stop, or hears of a closed socket (`stop_stops`, `onDisconnect_hears`).
`Begins` says what starting a handler can come to (`start_always`): all its connections are
opened, or it fails at once.
-/

namespace ReplicaHandshake

namespace Handler

variable {h h' : Handler} {hs : List Happening}

theorem enter_always {new : Phase} (hmove : h.phase.canMoveTo new) :
    Task.Always (enter new) h
      (fun hs _ h' => hs = [.reported (.phaseEntered new.name)] ∧ h' = { h with phase := new })
      (fun _ _ _ => False) := by
  simp [enter, Phase.moveTo, hmove, report]

/-! ### Stopping -/

theorem closeAll_always (cs : List Connection) :
    (closeAll cs).Always fun hs cs' =>
      hs = cs.flatMap Connection.closings ∧ cs' = cs.map Connection.closed := by
  induction cs with
  | nil => simp [closeAll]
  | cons c rest ih =>
    simp only [closeAll, Dialogue.always_bind, Work.always_run]
    refine (Connection.close_always c).mono ?_
    rintro _ _ _ ⟨rfl, rfl⟩
    refine ih.mono ?_
    rintro _ _ ⟨rfl, rfl⟩
    simp

theorem filter_map_closed (cs : List Connection) :
    (cs.map Connection.closed).filter (·.isTransferred) = cs.filter (·.isTransferred) := by
  induction cs with
  | nil => rfl
  | cons c rest ih =>
    by_cases hc : c.isTransferred
    · simp [Connection.closed_eq_self hc, hc, ih]
    · simp [Connection.isTransferred_closed hc, hc, ih]

theorem releaseWriter_always :
    Work.Always releaseWriter h fun hs _ h' => hs = h.releases ∧
      h' = { h with writer := if h.writerTransferred then h.writer else none } := by
  obtain ⟨peer, tableName, connections, writer, writerTransferred⟩ := h
  cases writerTransferred with
  | true => simp [releaseWriter, releases]
  | false =>
    cases writer <;> simp [releaseWriter, releases, Dialogue.releaseWriter, Dialogue.call]

theorem canMoveTo_stopping {phase : Phase} (hlive : phase.isLive) (hphase : phase ≠ .stopping) :
    phase.canMoveTo .stopping := by
  cases phase <;> first | rfl | contradiction

theorem stop_always (hlive : h.phase.isLive) (hphase : h.phase ≠ .stopping) :
    Work.Always stop h fun hs _ h' => hs = h.stopHappenings ∧ h' = h.stopped := by
  simp only [stop, Bool.or_eq_true, Bool.not_eq_eq_eq_not, Bool.not_true, decide_eq_true_eq,
    Work.always_bind, Work.always_get, List.nil_append, hlive, Bool.true_eq_false, hphase, or_self,
    if_false, Task.always_perform, Work.always_modify, List.append_nil, Work.always_lift,
    Work.always_pure]
  refine (enter_always (canMoveTo_stopping hlive hphase)).mono ?_ ?_
  · rintro _ _ _ ⟨rfl, rfl⟩
    simp only [List.cons_append, List.nil_append]
    refine (closeAll_always h.connections).mono ?_
    rintro _ _ ⟨rfl, rfl⟩
    refine releaseWriter_always.mono ?_
    rintro _ _ _ ⟨rfl, rfl⟩
    simp [stopHappenings, stopped, releases, filter_map_closed]
  · rintro _ _ _ ⟨⟩

theorem stopFor_always (kind : String) (reason : StopReason) (hlive : h.phase.isLive)
    (hphase : h.phase ≠ .stopping) :
    Work.Always (stopFor kind reason) h fun hs _ h' =>
      hs = h.stopForHappenings kind ∧ h' = h.stoppedFor reason := by
  simp only [stopFor, report, Work.always_bind, Work.always_lift, Dialogue.always_metric,
    Work.always_modify, List.nil_append]
  have hstop := stop_always (h := { h with failure := h.failure.or (some reason) }) hlive hphase
  refine hstop.mono ?_
  rintro _ _ _ ⟨rfl, rfl⟩
  exact ⟨rfl, rfl⟩

theorem fail_always {f : Failure} (hlive : h.phase.isLive) (hphase : h.phase ≠ .stopping) :
    Work.Always (fail f) h fun hs _ h' =>
      hs = h.stopForHappenings f.kind ∧ h' = h.stoppedFor (.failed f) :=
  stopFor_always f.kind (.failed f) hlive hphase

/-- What it comes to that a live handler is asked to stop. -/
inductive Stops : Handler → List Happening → Handler → Prop where
  | stops {h : Handler} : h.phase.isLive → h.phase ≠ .stopping → Stops h h.stopHappenings h.stopped
  | isStopping {h : Handler} : h.phase = .stopping → Stops h [] h

theorem stop_stops (hlive : h.phase.isLive) :
    Work.Always stop h fun hs _ h' => Stops h hs h' := by
  by_cases hphase : h.phase = .stopping
  · simpa [stop, hphase, Phase.isLive, Phase.isTerminal] using Stops.isStopping hphase
  · refine (stop_always hlive hphase).mono ?_
    rintro _ _ _ ⟨rfl, rfl⟩
    exact .stops hlive hphase

theorem Stops.way (hstops : Stops h hs h') : Way Turn h hs h' := by
  cases hstops with
  | stops hlive hphase => exact .single (.stops hlive hphase)
  | isStopping => exact .refl h

theorem Stops.phase (hstops : Stops h hs h') : h'.phase = .stopping := by
  cases hstops with
  | stops => rfl
  | isStopping hphase => exact hphase

/-- What it comes to that a live handler hears of a socket that was closed. -/
inductive Hears (socket : SocketId) : Handler → List Happening → Handler → Prop where
  | isOther {h : Handler} : h.connections.find? (isTakenAs socket) = none → Hears socket h [] h
  | loses {h h₁ : Handler} {c : Connection} :
      h.phase.isLive → h.phase ≠ .stopping → h.connections.find? (isTakenAs socket) = some c →
      h₁ = { h with connections := h.connections.eraseP (isTakenAs socket) } →
      Hears socket h (h₁.stopForHappenings "connection_closed")
        (h₁.stoppedFor (.dropped c.endpoint))
  | letsGo {h : Handler} {c : Connection} :
      h.phase = .stopping → h.connections.find? (isTakenAs socket) = some c →
      Hears socket h [] { h with connections := h.connections.eraseP (isTakenAs socket) }

theorem onDisconnect_hears {socket : SocketId} (hlive : h.phase.isLive) :
    Work.Always (onDisconnect socket) h fun hs _ h' => Hears socket h hs h' := by
  simp only [onDisconnect, Work.always_bind, Work.always_get]
  split
  next hfind => simpa using Hears.isOther hfind
  next c hfind =>
    simp only [Work.always_bind, Work.always_set, List.nil_append]
    by_cases hphase : h.phase = .stopping
    · simpa [hphase] using Hears.letsGo hphase hfind
    · have hstop := stopFor_always "connection_closed" (.dropped c.endpoint)
        (h := { h with connections := h.connections.eraseP (isTakenAs socket) }) hlive hphase
      simp only [hphase, ne_eq, not_false_eq_true, if_true, Work.always_bind, Work.always_pure]
      refine hstop.mono ?_
      rintro _ _ _ ⟨rfl, rfl⟩
      simpa using Hears.loses hlive hphase hfind rfl

theorem Hears.way {socket : SocketId} (hhears : Hears socket h hs h') : Way Turn h hs h' := by
  cases hhears with
  | isOther => exact .refl h
  | loses hlive hphase hfind heq => exact .single (.loses hlive hphase hfind heq)
  | letsGo hphase => exact .single (.letsGo socket hphase)

theorem pollStopping_moves (hphase : h.phase = .stopping) :
    Work.Always pollStopping h fun hs _ h' => Way Move h hs h' ∧ h'.phase = .stopping := by
  cases hneeds : h.needsPeerStop with
  | false => simp [pollStopping, hneeds, Way.refl, hphase]
  | true =>
    cases haccepted : h.peerStopAccepted with
    | true => simp [pollStopping, haccepted, Way.refl, hphase]
    | false =>
      have hrefused := Way.single (Move.stopRefused hphase hneeds haccepted)
      have htaken := Way.single (Move.stopAccepted hphase hneeds haccepted)
      simp only [pollStopping, Bool.or_eq_true, Bool.not_eq_eq_eq_not, Bool.not_true,
        Dialogue.stopPeer, Dialogue.call, bind_pure_comp, report, Work.always_bind, Work.always_get,
        hneeds, Bool.true_eq_false, haccepted, Bool.false_eq_true, or_self, if_true, if_false,
        List.nil_append, Work.always_lift, Dialogue.always_ask, List.cons_append,
        Dialogue.always_done, Bool.forall_bool, Work.always_map, Dialogue.always_metric,
        Work.always_set]
      exact ⟨⟨hrefused, hphase⟩, by simpa only [hneeds] using htaken, hphase⟩

theorem finish_always {voluntary : Bool} (hphase : h.phase = .stopping) :
    Work.Always (finish voluntary) h fun hs last h' =>
      last = (if voluntary then .stopped else .distressed) ∧
        hs = [.reported (.phaseEntered last.name)] ∧ h' = { h with phase := last } := by
  have hmove : h.phase.canMoveTo (if voluntary then .stopped else .distressed) := by
    rw [hphase]
    cases voluntary <;> rfl
  simp only [finish, Work.always_bind, Task.always_perform]
  refine (enter_always hmove).mono ?_ ?_
  · rintro _ _ _ ⟨rfl, rfl⟩
    simp
  · rintro _ _ _ ⟨⟩

/-! ### Starting -/

end Handler

/-- A connection whose socket was just opened. -/
def Connection.opened (c : Connection) (socket : SocketId) : Connection :=
  { c with socketId := some socket, socket := some socket, state := .connecting }

namespace Handler

variable {h : Handler}

/-- Sockets are opened in order, up to the first one that is refused. -/
inductive Opens : List Connection → List Happening → Option Failure → List Connection → Prop where
  | done : Opens [] [] none []
  | opened {c : Connection} {rest rest' : List Connection} {hs : List Happening}
      {f : Option Failure} (socket : SocketId) :
      Opens rest hs f rest' →
      Opens (c :: rest) (.answered (.openSocket c.endpoint) (.ok socket) :: hs) f
        (c.opened socket :: rest')
  | refused {c : Connection} {rest : List Connection} (e : SystemError) :
      Opens (c :: rest) [.answered (.openSocket c.endpoint) (.error e)]
        (some (.connect c.label e)) (c :: rest)

theorem openAll_always {cs : List Connection} (hclosed : ∀ c ∈ cs, c.socket = none) :
    (openAll cs).Always fun hs r => Opens cs hs r.1 r.2 := by
  induction cs with
  | nil => simpa [openAll] using Opens.done
  | cons c rest ih =>
    obtain ⟨hc, hrest⟩ := List.forall_mem_cons.1 hclosed
    simp only [openAll, Dialogue.always_bind, Work.always_run, Task.always_perform]
    refine (Connection.connect_always hc).mono ?_ ?_
    · rintro _ _ _ ⟨socket, rfl, rfl⟩
      refine (ih hrest).mono ?_
      rintro hs ⟨f, rest'⟩ hopens
      simpa [Connection.opened] using hopens.opened socket
    · rintro _ _ _ ⟨e, rfl, rfl, rfl⟩
      simpa using Opens.refused e

/-- What a handler says first. -/
def greetings (h : Handler) : List Happening :=
  [.noted (.started h.tableName h.connections.length), .reported (.phaseEntered h.phase.name)]

/-- A handler is started: all its connections are opened, or it fails at once. -/
inductive Begins (h : Handler) : List Happening → Handler → Prop where
  | opens {hs : List Happening} {cs : List Connection} : Opens h.connections hs none cs →
      Begins h (h.greetings ++ hs) { h with connections := cs }
  | fails {hs : List Happening} {cs : List Connection} {f : Failure} :
      Opens h.connections hs (some f) cs →
      Begins h (h.greetings ++ hs ++ stopForHappenings { h with connections := cs } f.kind)
        (stoppedFor { h with connections := cs } (.failed f))

theorem start_always (hclosed : ∀ c ∈ h.connections, c.socket = none) (hlive : h.phase.isLive)
    (hphase : h.phase ≠ .stopping) :
    Work.Always start h fun hs _ h' => Begins h hs h' := by
  simp only [start, note, report, Work.always_bind, Work.always_modify, List.nil_append,
    Work.always_lift, Work.always_get, Dialogue.always_metric, List.cons_append,
    Dialogue.always_note]
  refine (openAll_always hclosed).mono ?_
  rintro hs ⟨f, cs⟩ hopens
  cases f with
  | none => simpa [greetings] using Begins.opens hopens
  | some f =>
    refine Work.Always.mono (fail_always (h := { h with connections := cs }) hlive hphase) ?_
    rintro _ _ _ ⟨rfl, rfl⟩
    simpa [greetings] using Begins.fails hopens

theorem new_begins {instanceId : InstanceId} {peer : PeerId} {table : TableSettings}
    {frameBuffer : Nat} {timeout : Duration} {now : Instant} :
    Work.Always start (new instanceId peer table frameBuffer timeout now) fun hs _ h' =>
      Begins (new instanceId peer table frameBuffer timeout now) hs h' := by
  refine start_always ?_ rfl (by simp [new])
  simp [new, Connection.new]

end Handler

end ReplicaHandshake
