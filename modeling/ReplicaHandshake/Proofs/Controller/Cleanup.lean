import ReplicaHandshake.Proofs.Controller.Stopping
import ReplicaHandshake.Proofs.Handler.Cleanup

/-!
# Failures leave nothing half-done

Wherever in a start or in a poll a handler comes upon an error, it fails cleanly (`FailsCleanly`),
and no socket of it is read or written any more.  If it has not come to the handoff by then, it has
nothing to do with the multiplexer, and comes to its end in the same tick
(`Run.resolved_of_failure`).  `Run.fails_cleanly` says all of this of every run.
-/

namespace ReplicaHandshake.Controller

open Handler Registry Ledger

variable {settings : Settings} {past entries : List Entry} {c c' : Controller} {peer : PeerId}
  {kind : String} {before after during rest : List Happening}

/-- A peer whose handler fails before the handoff the multiplexer is never offered anything for, nor
asked to let go of. -/
theorem Run.unserved_of_failure (hrun : Run settings past c)
    (hsplit : history peer past = before ++ .reported (.failure kind) :: after)
    (hearly : Phase.handingOff.name ∉ phases before) :
    ∀ e ∈ past, e.happening.offeredFor? ≠ some peer ∧ e.happening.urged? ≠ some peer := by
  have hchronicle := hrun.chronicle
  obtain ⟨table, h, rfl, hlife⟩ := hchronicle.every peer (by simp [hsplit])
  have hnever := hlife.never_of_failure hsplit hearly
  refine fun e he => ⟨fun hoffered => ?_, fun hurged => ?_⟩
  · have hmem := mem_history he (hchronicle.peer_of_offer he hoffered)
    have hnone := hlife.unoffered_of_never hnever _ hmem
    unfold Happening.offeredFor? at hoffered
    split at hoffered <;> simp_all [Happening.isOffer]
  · have hmem := mem_history he (hrun.peer_of_urge he hurged)
    rw [hlife.unurged_of_never hnever _ hmem] at hurged
    cases hurged

/-- A handler that fails in a tick before the handoff comes to its end in the same tick. -/
theorem Run.resolved_of_failure (hrun : Run settings past c) {now : Instant} {busy : Bool}
    (hruns : ((Controller.tick now).run c).Runs entries (busy, c'))
    (hsplit : history peer entries = during ++ .reported (.failure kind) :: rest)
    (hearly : Phase.handingOff.name ∉ phases (history peer past ++ during)) :
    ¬c'.registry.HasLive peer ∧ ∃ h last told, h.peer = peer ∧ last.isTerminal ∧
      history peer entries = told ++ endings h last := by
  have hwhole : history peer (past ++ entries) =
      history peer past ++ during ++ .reported (.failure kind) :: rest := by
    rw [history_append, hsplit, List.append_assoc]
  obtain ⟨asked, -, hord⟩ := hrun.way
  obtain ⟨more, hticks⟩ := tick_iff.1 hruns
  have hgone : ¬c'.registry.HasLive peer := by
    rintro ⟨h, hh, rfl⟩
    obtain ⟨_, hkept, hknows⟩ := (Run.tick now hrun hruns).knows
    obtain ⟨table, hlife⟩ := hkept.life hh
    have hphase : h.phase = .stopping := by
      obtain ⟨_, rfl⟩ := hlife.turns_of_failure _ _ _ hwhole
      refine Classical.byContradiction fun hphase => ?_
      have hwork := atWork_of_live (hkept.inOrder.atRest.live h hh).live hphase
      refine hlife.stopping_iff.1 ?_ hwork
      simp [hwhole, phases, turnsToStopping, Happening.entered?]
    obtain ⟨hsockets, hwriters⟩ :=
      (hlife.unoffered_of_never (hlife.never_of_failure hwhole hearly)).taken
    have hheld := hknows h hh
    rw [heldSockets_of_untaken hsockets] at hheld
    have hdrained := (hlife.isDrained_iff hphase).2 ⟨hheld.eq_nil, .inl hwriters⟩
    rw [hticks.undrained hord hh] at hdrained
    cases hdrained
  refine ⟨hgone, ?_⟩
  obtain ⟨c₁, first, reaped, counted, r, rfl, hfirst, -, hreaps, rfl, hcounted⟩ := hticks.way hord
  have hord₁ : (c₁.ledger (asked ++ more) []).InOrder := inOrder_of_works hfirst hord
  have hquiet := (absent_of_way hcounted hgone).2
  rw [history_append, history_append, hquiet, List.append_nil]
  obtain ⟨hgone₁, hnone⟩ | ⟨h, -, hpeer, hends⟩ := hreaps.absent hord₁.live_peers hgone
  · have hsilent := (absent_of_way hfirst hgone₁).2
    rw [history_append, history_append, hquiet, hnone, hsilent] at hsplit
    cases (List.append_eq_nil_iff.1 hsplit.symm).2
  · refine ⟨h, _, _, hpeer, ?_, congrArg _ hends⟩
    unfold verdict
    split <;> rfl

/-- Failures leave nothing half-done.  A start that is refused a socket reads and writes nothing,
and fails cleanly.  So does the poll of any handler, whatever makes it fail: what goes well has no
setback, and at the first setback of a poll its reading and writing ceases.  After a failure no
socket of the handler is read or written any more.  If the handler has not come to the handoff by
then, the multiplexer is never offered anything for its peer, nor asked to let go of it; and if that
happens in a tick, the handler comes to its end in the same tick. -/
theorem Run.fails_cleanly (hrun : Run settings past c) :
    (∀ instanceId peer table frameBuffer timeout now,
      Work.Always Handler.start (new instanceId peer table frameBuffer timeout now) fun hs _ h' =>
        Mute hs ∧
        ∀ endpoint e, .answered (.openSocket endpoint) (.error e) ∈ hs →
          ∃ front back, hs = front ++ back ∧
          .answered (.openSocket endpoint) (.error e) ∈ front ∧
          FailsCleanly front back (.connect endpoint.label e)
            (new instanceId peer table frameBuffer timeout now) h') ∧
    (∀ now entries h, c.Visits now entries h →
      (h.phase.isHandshaking →
        Task.Always (pollHandshake now) h (fun hs _ _ => Smooth hs) fun hs f h₁ => Ceases hs ∧
        Work.Always (fail f) h₁ fun hs' _ h' =>
          FailsCleanly (history h.peer (past ++ entries) ++ hs) hs' f h h') ∧
      Work.Always (Handler.poll now) h fun hs _ h' => Ceases hs ∧
        ((∃ x ∈ hs, x.isSetback) → ∃ front back f,
        hs = front ++ back ∧
          FailsCleanly (history h.peer (past ++ entries) ++ front) back f h h')) ∧
    (∀ peer before kind after, history peer past = before ++ .reported (.failure kind) :: after →
      Mute after ∧ (Phase.handingOff.name ∉ phases before →
        ∀ e ∈ past, e.happening.offeredFor? ≠ some peer ∧ e.happening.urged? ≠ some peer)) ∧
    ∀ now entries busy c', ((Controller.tick now).run c).Runs entries (busy, c') →
      ∀ peer during kind rest, history peer entries = during ++ .reported (.failure kind) :: rest →
        Phase.handingOff.name ∉ phases (history peer past ++ during) →
        ¬c'.registry.HasLive peer ∧ ∃ h last told, h.peer = peer ∧ last.isTerminal ∧
          history peer entries = told ++ endings h last := by
  refine ⟨fun _ _ _ _ _ _ => ?_, fun now entries h hvisits => ?_,
    fun peer before kind after hsplit => ?_, fun now entries busy c' hruns peer during kind rest =>
      hrun.resolved_of_failure hruns⟩
  · exact new_begins.mono fun _ _ _ hbegins =>
      ⟨fun x hx => (hbegins.isAside x hx).2, fun _ _ => hbegins.failsCleanly⟩
  · obtain ⟨-, table, hlife⟩ := hrun.visits hvisits
    refine ⟨fun hphase => (hlife.pollHandshake_failsCleanly hphase).mono (fun _ _ _ => id) ?_,
      hlife.poll_failsCleanly⟩
    rintro hs f h₁ ⟨hceases, hfails⟩
    exact ⟨hceases, hfails.mono fun _ _ _ hfails => hfails.2⟩
  · obtain ⟨table, h, rfl, hlife⟩ := hrun.chronicle.every peer (by simp [hsplit])
    exact ⟨hlife.mute_of_failure hsplit, hrun.unserved_of_failure hsplit⟩

section Rehearsal

open Rehearsal

/-- The first of two masters starts the stream, and the second one gives trouble. -/
def troubledWorld (second : Master) : World where
  network :=
    { masters :=
        [(1,
            { inbound := [.segment (Frame.bytes (.tableInfo (rehearsedInfo 5)) ++
                Frame.bytes (.startOfReplicationStream rehearsedStart))] }),
          (2, second)] }

/-- A master that refuses to be connected. -/
def refusing : Master where
  refusal := some (.bare .connectionRefused)

/-- A master whose sockets do not come to be connected. -/
def unreachable : Master where
  connect := .failing (.bare .timedOut)

/-- A master that describes the table before it has read the question for it, and is gone when the
rest of the question is written. -/
def vanishing : Master where
  inbound := [.segment (Frame.bytes (.tableInfo (rehearsedInfo 9)))]
  writes := [.fail (.bare .wouldBlock), .fail (.bare .brokenPipe)]

def troubledOpening (second : Master) : Performance World :=
  (Performance.start? world 0 .small (troubledWorld second)).get rfl

/-- The table is added, and the controller makes so many ticks. -/
def troubled (second : Master) (n : Nat) : Performance World :=
  ((troubledOpening second).goOn world (submit (.add rehearsedTable))).ticks world 0 n

theorem troubled_run (second : Master) (n : Nat) :
    Run .small (troubled second n).past (troubled second n).controller := by
  have hopening : Performance.start? world 0 .small (troubledWorld second) =
      some (troubledOpening second) :=
    (Option.some_get _).symm
  exact Performance.run_ticks (Performance.run_submit (Performance.of_start? hopening) _) 0 n

/-- The socket that could not be opened. -/
def refusal? : Happening → Option (Endpoint × SystemError)
  | .answered (.openSocket endpoint) (.error e) => some (endpoint, e)
  | _ => none

theorem eq_of_refusal? {x : Happening} {endpoint : Endpoint} {e : SystemError}
    (h : refusal? x = some (endpoint, e)) : x = .answered (.openSocket endpoint) (.error e) := by
  unfold refusal? at h
  split at h <;> cases h
  rfl

/-- A handler is started whose second master refuses. -/
def refusedStart : (Unit × Handler) × World × List Entry :=
  (Handler.start.run (new 0 .first rehearsedTable 1024 (.ofSeconds 5) 0)).perform world
    (troubledWorld refusing)

theorem refusedStart_refused :
    .answered (.openSocket ⟨"127.0.0.1", 2⟩) (.error (.bare .connectionRefused)) ∈
      happenings refusedStart.2.2 := by
  have hrefused : (⟨"127.0.0.1", 2⟩, .bare .connectionRefused) ∈
      (happenings refusedStart.2.2).filterMap refusal? := by
    decide +kernel
  obtain ⟨x, hx, hrefusal⟩ := List.mem_filterMap.1 hrefused
  rwa [eq_of_refusal? hrefusal] at hx

/-- The second tick has come to where it polls the handlers; the second master is
about to vanish. -/
def beforePoll : Performance World :=
  ((troubled vanishing 1).goOn world (drainInstructions 0)).goOn world drainDisconnections

/-- What comes of polling a handler now. -/
def vanishingPoll (h : Handler) : (Bool × Handler) × World × List Entry :=
  ((Handler.poll 0).run h).perform world beforePoll.outside

/-- A tick in which a handler is started and polled whose second master cannot be reached. -/
def unreachableTick : (Bool × Controller) × World × List Entry :=
  ((tick 0).run (troubled unreachable 0).controller).perform world (troubled unreachable 0).outside

/-- A start fails over its second socket.  A poll fails in the midst of the handoff, when the
writer and the first socket were taken.  A handler that is started and fails in the same tick comes
to its end in it, and was not offered to the multiplexer. -/
theorem cleanup_rehearsed :
    (∃ front back, happenings refusedStart.2.2 = front ++ back ∧
      FailsCleanly front back (.connect "127.0.0.1:2" (.bare .connectionRefused))
        (new 0 .first rehearsedTable 1024 (.ofSeconds 5) 0) refusedStart.1.2) ∧
    (∃ entries h, (troubled vanishing 1).controller.Visits 0 entries h ∧
      h.phase = .requestingStream ∧
      (vanishingPoll h).1.2.roster = [(⟨"127.0.0.1", 1⟩, some ⟨1⟩)] ∧ ∃ front back f,
        happenings (vanishingPoll h).2.2 = front ++ back ∧
        FailsCleanly (history h.peer ((troubled vanishing 1).past ++ entries) ++ front) back f h
          (vanishingPoll h).1.2) ∧
    (∃ during rest, history .first unreachableTick.2.2 =
      during ++ .reported (.failure "connect") :: rest ∧
      Mute rest) ∧
    (∀ e ∈ unreachableTick.2.2, e.happening.offeredFor? ≠ some .first) ∧
    ¬unreachableTick.1.2.registry.HasLive .first := by
  refine ⟨?_, ?_, ?_⟩
  · have hruns := Dialogue.perform_runs world
      (Handler.start.run (new 0 .first rehearsedTable 1024 (.ofSeconds 5) 0))
      (troubledWorld refusing)
    obtain ⟨front, back, hsplit, -, hfails⟩ :=
      ((troubled_run refusing 0).fails_cleanly.1 _ _ _ _ _ _ _ _ hruns).2 _ _ refusedStart_refused
    exact ⟨front, back, hsplit, hfails⟩
  · have hseen : beforePoll.controller.registry.live.map (fun h =>
        (h.phase, (vanishingPoll h).1.2.roster, (happenings (vanishingPoll h).2.2).any
          (·.isSetback))) =
        [(.requestingStream, [(⟨"127.0.0.1", 1⟩, some ⟨1⟩)], true)] := by
      decide +kernel
    obtain ⟨h, after, hlive, hh, -⟩ := List.map_eq_cons_iff.1 hseen
    obtain ⟨hphase, hh⟩ := Prod.mk.inj hh
    obtain ⟨hroster, hsetback⟩ := Prod.mk.inj hh
    obtain ⟨entries, -, hvisits⟩ := Performance.visits_first hlive
    have hpoll := ((troubled_run vanishing 1).fails_cleanly.2.1 0 entries h hvisits).2 _ _
      (Dialogue.perform_runs world ((Handler.poll 0).run h) beforePoll.outside)
    exact ⟨entries, h, hvisits, hphase, hroster, hpoll.2 (List.any_eq_true.1 hsetback)⟩
  · have hruns := Dialogue.perform_runs world ((tick 0).run (troubled unreachable 0).controller)
      (troubled unreachable 0).outside
    have hsplit : ∃ during rest, history .first unreachableTick.2.2 =
        during ++ .reported (.failure "connect") :: rest :=
          Happening.split_of_metric (by decide +kernel)
    obtain ⟨during, rest, hsplit⟩ := hsplit
    have hpast : history .first (troubled unreachable 0).past = [] := by decide +kernel
    have hearly : Phase.handingOff.name ∉ phases (history .first unreachableTick.2.2) := by
      decide +kernel
    rw [hsplit, phases_append, List.mem_append, not_or] at hearly
    have hwhole : history .first (troubled unreachable 1).past =
        during ++ .reported (.failure "connect") :: rest := by
      show history .first ((troubled unreachable 0).past ++ unreachableTick.2.2) = _
      rw [history_append, hpast, List.nil_append, hsplit]
    obtain ⟨hmute, hunserved⟩ := (troubled_run unreachable 1).fails_cleanly.2.2.1 _ _ _ _ hwhole
    refine ⟨⟨during, rest, hsplit, hmute⟩, fun e he => ?_, ?_⟩
    · exact (hunserved hearly.1 e (List.mem_append_right _ he)).1
    · refine ((troubled_run unreachable 0).fails_cleanly.2.2.2 0 _ _ _ hruns
        .first during _ rest hsplit ?_).1
      rw [hpast]
      exact hearly.1

end Rehearsal

end ReplicaHandshake.Controller
