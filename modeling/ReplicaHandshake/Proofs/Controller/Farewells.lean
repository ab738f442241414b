import ReplicaHandshake.Proofs.Controller.Isolation
import ReplicaHandshake.Proofs.Controller.Tallies
import ReplicaHandshake.Proofs.Handler.Farewells

/-!
# Connections that are closed

For every table it is reported that a connection is closed as often as the handlers of this table
have closed a socket, and once more for every stream that a master has ended
(`Run.counts_farewells`).  That is twice for the socket of such a stream, since the handler
closes it as well.

Whoever is not in the house any more has stopped before it was forgotten, and owns nothing
(`House.departed_of_way`).  So every socket that was opened for a peer is owned by its handler, or
the multiplexer took it, or it was closed, and only one of these (`Run.sockets_of_peer`).
-/

namespace ReplicaHandshake

open Handler

/-! ### Who has gone -/

namespace House

variable {s s' : House} {past entries : List Entry}

/-- Whoever was in the house and is not any more has stopped. -/
def Departed (past : List Entry) (s : House) : Prop :=
  ∀ peer, history peer past ≠ [] → peer ∉ s.handlers.map (·.peer) →
    ∃ table h, Life table (history peer past) h ∧ ¬h.AtWork

theorem Step.departed (hstep : Step s entries s') (hc : Chronicle past s)
    (hdeparted : Departed past s) :
    Departed (past ++ entries) s' := by
  intro peer hsome hgone
  cases hstep with
  | @turns _ before after h h' hs hway =>
    have hpeers : (before ++ h' :: after).map (·.peer) = (before ++ h :: after).map (·.peer) := by
      simp [peer_of_way hway]
    rw [hpeers] at hgone
    have hother : h.peer ≠ peer := by
      rintro rfl
      exact hgone (List.mem_map_of_mem (by simp))
    rw [history_other hother] at hsome ⊢
    exact hdeparted peer hsome hgone
  | @begins _ h hs _ _ _ _ hbegins =>
    rw [List.map_append, List.mem_append, not_or] at hgone
    have hother : s.nextPeer ≠ peer := by
      rintro rfl
      exact hgone.2 (List.mem_singleton.2 hbegins.spec.1.symm)
    rw [history_other hother] at hsome ⊢
    exact hdeparted peer hsome hgone.1
  | forgets gone hperm hover =>
    rw [List.append_nil] at hsome ⊢
    by_cases hbefore : peer ∈ s.handlers.map (·.peer)
    · obtain ⟨h, hh, rfl⟩ := List.mem_map.1 hbefore
      obtain ⟨table, hlife⟩ := hc.lives h hh
      obtain hh | hh := List.mem_append.1 (hperm.mem_iff.1 hh)
      · exact ⟨table, h, hlife, hover h hh⟩
      · exact absurd (List.mem_map_of_mem hh) hgone
    · exact hdeparted peer hsome hbefore
  | @silent _ x =>
    rw [history_append, show history peer [⟨none, x⟩] = [] from rfl, List.append_nil] at hsome ⊢
    exact hdeparted peer hsome hgone

theorem departed_of_way (hway : Way Step s entries s') (hnone : s.handlers = []) :
    Departed entries s' := by
  have hstart : Chronicle [] s ∧ Departed [] s :=
    ⟨chronicle_nil hnone, fun _ hsome => absurd rfl hsome⟩
  refine (hway.invariant (I := fun past s => Chronicle past s ∧ Departed past s) ?_ hstart).2
  rintro past s entries s' ⟨hc, hdeparted⟩ hstep
  exact ⟨hstep.chronicle hc, hstep.departed hc hdeparted⟩

end House

namespace Controller

variable {settings : Settings} {past : List Entry} {c : Controller}

/-- Every socket that was opened for a peer is owned by its handler, or the multiplexer took it, or
it was closed. -/
theorem Run.sockets_of_peer (hrun : Run settings past c) (peer : PeerId) :
    (openedSockets (history peer past)).Perm
      ((c.registry.handlers.filter (·.peer = peer)).flatMap ownedSockets ++
        takenSockets (history peer past) ++ closedSockets (history peer past)) := by
  have hhouse : c.house.handlers = c.registry.handlers := rfl
  by_cases hhere : ∃ h ∈ c.registry.handlers, h.peer = peer
  · obtain ⟨h, hh, rfl⟩ := hhere
    obtain ⟨table, hlife⟩ := hrun.chronicle.lives h hh
    rw [filter_of_nodup (hhouse ▸ hrun.chronicle.distinct) hh, List.flatMap_singleton]
    exact hlife.sockets
  · have hgone : peer ∉ c.house.handlers.map (·.peer) := by
      rintro hmem
      obtain ⟨h, hh, hsame⟩ := List.mem_map.1 hmem
      exact hhere ⟨h, hh, hsame⟩
    have hnobody : c.registry.handlers.filter (·.peer = peer) = [] :=
      List.filter_eq_nil_iff.2 fun h hh hsame => hhere ⟨h, hh, of_decide_eq_true hsame⟩
    rw [hnobody]
    by_cases hsome : history peer past = []
    · rw [hsome]
      exact .refl _
    · obtain ⟨table, h, hlife, hover⟩ := House.departed_of_way hrun.comes rfl peer hsome hgone
      have hsockets := hlife.sockets
      rwa [ownedSockets_of_over hlife.sound hover] at hsockets

/-- The table for which the handler of a peer has begun. -/
def tableOf (past : List Entry) (peer : PeerId) : Option String :=
  (history peer past).head?.bind (·.started?)

/-- For a table it is reported that a connection is closed as often as its handlers have closed a
socket, and once more for every stream that a master of it has ended.  Every socket that was opened
for a peer is owned by its handler, or the multiplexer took it, or it was closed, and only one of
these; and if a stream has ended, then that was the only one of this peer, and its socket is among
the closed ones. -/
theorem Run.counts_farewells (hrun : Run settings past c) (tableName : String) :
    (farewells (happenings past)).count tableName =
      (c.issued.map fun peer =>
        if tableOf past peer = some tableName then
          (closedSockets (history peer past)).length + (endedSockets (history peer past)).length
        else 0).sum ∧
    ∀ peer,
      (openedSockets (history peer past)).Perm
        ((c.registry.handlers.filter (·.peer = peer)).flatMap ownedSockets ++
          takenSockets (history peer past) ++ closedSockets (history peer past)) ∧
      (endedSockets (history peer past)).length ≤ 1 ∧
      ∀ socket ∈ endedSockets (history peer past), socket ∈ closedSockets (history peer past) := by
  refine ⟨?_, fun peer => ⟨hrun.sockets_of_peer peer, ?_⟩⟩
  · have hsum := hrun.tally_filterMap (f := Happening.farewell?) (fun _ hx => by cases hx <;> rfl)
        (· == tableName)
    refine hsum.trans (congrArg List.sum (List.map_congr_left fun peer hpeer => ?_))
    obtain ⟨table, h, -, hlife⟩ := hrun.chronicle.every peer (hrun.issued_iff.2 hpeer)
    have htable : tableOf past peer = some table.tableName := by
      rw [tableOf, hlife.announces.2]
      rfl
    rw [htable]
    show (farewells (history peer past)).count tableName = _
    rw [hlife.booked.farewells, List.count_replicate]
    simp
  · by_cases hsome : history peer past = []
    · rw [hsome]
      exact ⟨Nat.zero_le _, List.forall_mem_nil _⟩
    · obtain ⟨table, h, -, hlife⟩ := hrun.chronicle.every peer hsome
      exact ⟨hlife.leaves.once, hlife.leaves.closed⟩

section Rehearsal

open Rehearsal

/-- The first of two masters ends its stream at once. -/
def partingWorld : World where
  network := { masters := [(1, { ended := true }), (2, {})] }

def partingOpening : Performance World :=
  (Performance.start? world 0 .small partingWorld).get rfl

/-- The table is added, and the controller makes a tick. -/
def parting : Performance World :=
  (partingOpening.goOn world (submit (.add rehearsedTable))).ticks world 0 1

theorem parting_run : Run .small parting.past parting.controller := by
  have hopening : Performance.start? world 0 .small partingWorld = some partingOpening :=
    (Option.some_get _).symm
  exact Performance.run_ticks (Performance.run_submit (Performance.of_start? hopening) _) 0 1

/-- Two sockets were closed, and one stream had ended. -/
theorem farewells_rehearsed :
    (farewells (happenings parting.past)).count "t" = 3 ∧
    (closedSockets (history .first parting.past)).length = 2 ∧
    endedSockets (history .first parting.past) = [⟨1⟩] ∧
      ⟨1⟩ ∈ closedSockets (history .first parting.past) := by
  obtain ⟨hcount, hpeers⟩ := parting_run.counts_farewells "t"
  have hended : endedSockets (history .first parting.past) = [⟨1⟩] := by decide +kernel
  refine ⟨hcount.trans (by decide +kernel), by decide +kernel, hended, ?_⟩
  exact (hpeers .first).2.2 ⟨1⟩ (hended ▸ List.mem_cons_self)

/-- It is reported three times that a connection is closed, although only two
sockets were opened. -/
theorem reported_twice : Run .small parting.past parting.controller ∧
    (openedSockets (happenings parting.past)).length = 2 ∧
    (closedSockets (happenings parting.past)).length = 2 ∧
    (farewells (happenings parting.past)).count "t" = 3 :=
  ⟨parting_run, by decide +kernel, by decide +kernel, by decide +kernel⟩

end Rehearsal

end Controller

end ReplicaHandshake
