import ReplicaHandshake.Proofs.Controller.Peers
import ReplicaHandshake.Proofs.Controller.Performed
import ReplicaHandshake.Proofs.Handler.Grounds
import ReplicaHandshake.Proofs.Handler.Pace

/-!
# Runs are coherent

In every run the parts of a handler fit together, whatever the outside answers:

* the phase of a live handler and the states of its connections move together (`Run.keeps_pace`);
* no handler makes a mistake of its own: it is never told to do what cannot be done, its phases are
  a path, and if it fails, then for a reason that came from without (`Run.never_lapses`).
-/

namespace ReplicaHandshake.Controller

open Handler Ledger

variable {settings : Settings} {past entries : List Entry} {c : Controller}

/-! ### Phases and connections -/

/-- Every live handler keeps pace, as one of a table with so many masters as it said
when it began. -/
def AllKeepPace (past : List Entry) (r : Registry) : Prop :=
  ∀ h ∈ r.live, ∃ table, Announces table (history h.peer past) ∧
    h.KeepsPace table.masters.length (history h.peer past)

theorem allKeepPace_of_chronicle {b : Ledger} (hchronicle : House.Chronicle past b.house)
    (hrest : b.registry.AtRest) : AllKeepPace past b.registry := by
  intro h hh
  obtain ⟨table, hlife⟩ := hchronicle.lives h (List.mem_append_left _ hh)
  exact ⟨table, hlife.announces, hlife.keepsPace (hrest.live h hh)⟩

/-- Between any two steps of a run every live handler keeps pace: between two operations, after each
of the steps that these come to, and before and after each poll of the handler. -/
theorem Run.keeps_pace (hrun : Run settings past c) :
    AllKeepPace past c.registry ∧
    (∀ asked entries b, Way AnyStep (c.ledger asked []) entries b →
      AllKeepPace (past ++ entries) b.registry) ∧
    ∀ now entries h, c.Visits now entries h →
      ∃ table, Announces table (history h.peer (past ++ entries)) ∧
      h.KeepsPace table.masters.length (history h.peer (past ++ entries)) ∧
      Work.Always (Handler.poll now) h fun hs _ h' =>
        h'.KeepsPace table.masters.length (history h.peer (past ++ entries) ++ hs) := by
  refine ⟨allKeepPace_of_chronicle (b := c.ledger [] []) hrun.chronicle hrun.atRest, ?_, ?_⟩
  · intro asked entries b hway
    obtain ⟨hcomes, hrest⟩ := comes_of_way hway hrun.atRest
    exact allKeepPace_of_chronicle (House.chronicle_of_way hcomes hrun.chronicle) hrest
  · intro now entries h hvisits
    obtain ⟨hrest, table, hlife⟩ := hrun.visits hvisits
    refine ⟨table, hlife.announces, hlife.keepsPace hrest, (poll_always hrest.sound).mono ?_⟩
    intro hs _ h' hmoves
    exact (hlife.of_way (moves_behaves.way hmoves)).keepsPace (moves_behaves.rest hmoves hrest)

/-- When the stream has started and the multiplexer has refused the first socket, it has the writer,
and both sockets wait. -/
theorem pace_rehearsed :
    ∃ h ∈ (rehearsed 3).controller.registry.live, h.phase = .handingOff ∧
      h.states = [.streamStarted, .ready] ∧ ∃ taken < 2,
        h.states = (List.range 2).map (stateAt .streamStarted taken) ∧
        (∀ c ∈ h.connections.drop taken, ∃ socket, c.socketId = some socket ∧
          c.ownedSockets = [socket]) ∧
        (takenWriters (history h.peer (rehearsed 3).past) ≠ [] ∧ h.writer = none ∨
          takenWriters (history h.peer (rehearsed 3).past) = [] ∧ h.writer.isSome ∧ taken = 0) := by
  have hlive : (rehearsed 3).controller.registry.live.map (fun h => (h.peer, h.phase, h.states)) =
      [(.first, .handingOff, [.streamStarted, .ready])] := by decide +kernel
  obtain ⟨h, rest, hsplit, hseen, -⟩ := List.map_eq_cons_iff.1 hlive
  obtain ⟨hpeer, hphase, hstates⟩ :
      h.peer = .first ∧ h.phase = .handingOff ∧ h.states = [.streamStarted, .ready] := by
    simpa using hseen
  have hh : h ∈ (rehearsed 3).controller.registry.live := hsplit ▸ List.mem_cons_self
  obtain ⟨table, hannounces, hpace⟩ := (rehearsed_run 3).keeps_pace.1 h hh
  have hnotes : (history .first (rehearsed 3).past).head?.bind (·.note?) =
      some (.started "t" 2) := by
    decide +kernel
  have hmasters : table.masters.length = 2 := by
    rw [← hpeer, hannounces.2] at hnotes
    exact (Note.started.inj (Option.some.inj hnotes)).2
  simp only [KeepsPace, hphase, hmasters] at hpace
  exact ⟨h, hh, hphase, hstates, hpace⟩

/-! ### Mistakes -/

/-- Nothing in a run is a lapse: no handler is told to turn to a phase that may not follow, or to
a connection that it does not have, and no connection is to be handed over that is not ready.  So
the phases of every handler are a path from the first one.  None fails since its settings are no
good or its phase is out of turn; no error of the store is made up, and the stream is not asked
for out of turn. -/
theorem Run.never_lapses (hrun : Run settings past c) :
    (∀ e ∈ past, e.happening.isLapse = false) ∧
    (∀ peer, history peer past ≠ [] → ∃ path, phases (history peer past) = path.map Phase.name ∧
      path.head? = some .initializing ∧ IsPath path) ∧
    (∀ peer, ∀ kind ∈ failures (history peer past), kind ≠ "invalid_transition" ∧ kind ≠ "config") ∧
    ∀ h ∈ c.registry.live ++ c.registry.distressed, ∀ f, h.failure = some (.failed f) →
      f.Grounded (history h.peer past) := by
  have hchronicle := hrun.chronicle
  refine ⟨fun e he => ?_, fun peer hsome => ?_, fun peer kind hkind => ?_, fun h hh f hfailed => ?_⟩
  · cases hpeer : e.peer with
    | none => exact (hchronicle.silent e he hpeer).lapse
    | some peer =>
      have hmem := mem_history he hpeer
      obtain ⟨table, h, -, hlife⟩ := hchronicle.every peer (List.ne_nil_of_mem hmem)
      exact hlife.no_lapse _ hmem
  · obtain ⟨table, h, -, hlife⟩ := hchronicle.every peer hsome
    obtain ⟨path, hphases, hhead, -, hpath⟩ := hlife.path
    exact ⟨path, hphases, hhead, hpath⟩
  · have hsome : history peer past ≠ [] := fun hnone => by
      rw [hnone] at hkind
      cases hkind
    obtain ⟨table, h, -, hlife⟩ := hchronicle.every peer hsome
    exact hlife.failure_kinds kind hkind
  · obtain ⟨table, hlife⟩ := hchronicle.lives h hh
    exact hlife.grounded hfailed

/-- A handler that loses a socket while it streams goes the whole way, and is parked. -/
theorem path_rehearsed :
    ∃ path, phases (history .first (dropped 2).past) = path.map Phase.name ∧
      path.head? = some .initializing ∧ IsPath path ∧ path.length = 7 := by
  have hphases : phases (history .first (dropped 2).past) = ["Initializing", "AwaitingRendezvous",
      "RequestingStream", "HandingOff", "Streaming", "Stopping", "Distressed"] := by decide +kernel
  have hsome : history .first (dropped 2).past ≠ [] := fun hnone => by
    rw [hnone] at hphases
    cases hphases
  have hrun : OpenRun .small (dropped 2).past (dropped 2).controller [] :=
    dropped_open (by decide +kernel)
  obtain ⟨path, hsame, hhead, hpath⟩ := hrun.run.never_lapses.2.1 .first hsome
  refine ⟨path, hsame, hhead, hpath, ?_⟩
  rw [← List.length_map (f := Phase.name), ← hsame, hphases]
  rfl

end ReplicaHandshake.Controller
