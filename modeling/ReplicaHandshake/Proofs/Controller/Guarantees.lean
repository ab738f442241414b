import ReplicaHandshake.Proofs.Controller.Peers
import ReplicaHandshake.Proofs.Controller.Performed
import ReplicaHandshake.Proofs.Handler.Bytes

/-!
# What every run guarantees

Whatever instructions a controller is given, and whatever the outside answers:

* the data stream of a table is asked for once, after all its masters have
  agreed (`Run.rendezvous_barrier`);
* the multiplexer takes the writer and the sockets of a table in their order, and each
  once (`Run.handoff_order`);
* every socket and every writer is owned, taken or let go, and only one of these
  (`Run.resource_ownership`);
* the parts of the registry agree with each other (`Run.registry_agrees`);
* of the bytes of a socket that was taken none is lost (`Run.bytes_preserved`).

What is said of the handlers of a run is said of the history of every peer, so it holds also of
those that are gone.  What needs that no two sockets are opened under one identity says so.
-/

namespace ReplicaHandshake.Controller

open Handler

variable {settings : Settings} {past : List Entry} {c : Controller}

/-! ### The rendezvous -/

/-- On behalf of every peer the data stream is asked for once at most, by the first socket, and not
before every master has described the table and all have said the same.  Conversely no handler at
work that has all descriptions has not asked: in the very poll in which the last description is
accepted the stream is asked for, or the handler has failed. -/
theorem Run.rendezvous_barrier (hrun : Run settings past c) :
    (∀ peer, history peer past ≠ [] → ∃ table, Announces table (history peer past) ∧
      (requests (history peer past)).length ≤ 1 ∧
      Along (AsksAgreed table) [] (history peer past)) ∧
    (∀ h ∈ c.registry.live, h.AtWork → ∃ table, Announces table (history h.peer past) ∧
      ((descriptions (history h.peer past)).length = table.masters.length →
        ∃ request, requests (history h.peer past) = [request])) ∧
    ∀ now entries h, c.Visits now entries h → ∃ table,
      Announces table (history h.peer (past ++ entries)) ∧
      Work.Always (Handler.poll now) h fun hs _ h' =>
        (descriptions (history h.peer (past ++ entries))).length < table.masters.length →
        (descriptions (history h.peer (past ++ entries) ++ hs)).length = table.masters.length →
        (∃ request, requests hs = [request]) ∧ h'.phase = .requestingStream ∨
          h'.phase = .stopping ∧ h'.failure.isSome := by
  refine ⟨fun peer hsome => ?_, fun h hh hwork => ?_, fun now entries h hvisits => ?_⟩
  · obtain ⟨table, h, rfl, hlife⟩ := hrun.chronicle.every peer hsome
    exact ⟨table, hlife.announces, hlife.requests_le, hlife.asks⟩
  · obtain ⟨table, hlife⟩ := hrun.chronicle.lives h (List.mem_append_left _ hh)
    exact ⟨table, hlife.announces, hlife.asked_of_complete (hrun.atRest.live h hh).settled hwork⟩
  · obtain ⟨-, table, hlife⟩ := hrun.visits hvisits
    exact ⟨table, hlife.announces, fun hs result hruns hbefore =>
      hlife.concludes hbefore hs result hruns⟩

/-- When the second of two masters has described the table, too, the stream is asked for. -/
theorem rendezvous_rehearsed :
    requests (history .first (rehearsed 2).past) = [⟨7, 3, 0⟩] ∧
    (∃ table, Announces table (history .first (rehearsed 2).past) ∧
      (requests (history .first (rehearsed 2).past)).length ≤ 1 ∧
      Along (AsksAgreed table) [] (history .first (rehearsed 2).past)) ∧
    ∃ entries h, (rehearsed 1).controller.Visits 0 entries h ∧
      (descriptions (history h.peer ((rehearsed 1).past ++ entries))).length = 1 ∧
      Work.Always (Handler.poll 0) h fun hs _ h' =>
        (descriptions (history h.peer ((rehearsed 1).past ++ entries) ++ hs)).length = 2 →
        (∃ request, requests hs = [request]) ∧ h'.phase = .requestingStream ∨
          h'.phase = .stopping ∧ h'.failure.isSome := by
  have hasked : requests (history .first (rehearsed 2).past) = [⟨7, 3, 0⟩] := by decide +kernel
  refine ⟨hasked, (rehearsed_run 2).rendezvous_barrier.1 .first ?_, ?_⟩
  · intro hnone
    rw [hnone] at hasked
    cases hasked
  let p := ((rehearsed 1).goOn Rehearsal.world (drainInstructions 0)).goOn Rehearsal.world
    drainDisconnections
  have hpeers : p.controller.registry.live.map (·.peer) = [.first] := by decide +kernel
  obtain ⟨h, after, hlive, hpeer, -⟩ := List.map_eq_cons_iff.1 hpeers
  obtain ⟨entries, hpast, hvisits⟩ := Performance.visits_first hlive
  have hdescribed : (descriptions (history .first p.past)).length = 1 := by decide +kernel
  have hnotes : (history .first p.past).head?.bind (·.note?) = some (.started "t" 2) := by
    decide +kernel
  obtain ⟨table, hannounces, hconcludes⟩ :=
    (rehearsed_run 1).rendezvous_barrier.2.2 0 entries h hvisits
  rw [← hpast, hpeer] at hannounces hconcludes
  have hmasters : table.masters.length = 2 := by
    rw [hannounces.2] at hnotes
    exact (Note.started.inj (Option.some.inj hnotes)).2
  refine ⟨entries, h, hvisits, ?_, ?_⟩
  · rw [← hpast, hpeer, hdescribed]
  · rw [← hpast, hpeer, ← hmasters]
    refine hconcludes.mono fun hs _ h' hstep => hstep ?_
    rw [hdescribed, hmasters]
    decide

/-! ### The handoff -/

/-- What the multiplexer takes for a peer is the front of a list: the writer, and then the sockets
in the order of their masters.  Nothing is offered out of its turn, nor on behalf of another peer.
A handler streams exactly when all was taken, and comes to stream in the very poll in which the
last item is. -/
theorem Run.handoff_order (hrun : Run settings past c) :
    (∀ peer, history peer past ≠ [] → ∃ table, Announces table (history peer past) ∧
      (handed peer (happenings past) = [] ∨
        InOrder table (history peer past) (handed peer (happenings past))) ∧
      Along (OffersInTurn table peer) [] (history peer past)) ∧
    (∀ peer, ∀ e ∈ past, e.happening.offeredFor? = some peer → e.peer = some peer) ∧
    (∀ h ∈ c.registry.live, h.AtWork → ∃ table, Announces table (history h.peer past) ∧
      (h.phase = .streaming ↔
        (handed h.peer (happenings past)).length = table.masters.length + 1)) ∧
    ∀ now entries h, c.Visits now entries h → ∃ table,
      Announces table (history h.peer (past ++ entries)) ∧
      Work.Always (Handler.poll now) h fun hs _ h' =>
        (h.phase ≠ .streaming ∧ h'.phase = .streaming ↔
          (handed h.peer (history h.peer (past ++ entries))).length ≤ table.masters.length ∧
            (handed h.peer (history h.peer (past ++ entries) ++ hs)).length =
              table.masters.length + 1) := by
  have hchronicle := hrun.chronicle
  refine ⟨fun peer hsome => ?_, fun peer e he hoffer => hchronicle.peer_of_offer he hoffer,
    fun h hh hwork => ?_, fun now entries h hvisits => ?_⟩
  · rw [hchronicle.handed_eq]
    obtain ⟨table, h, rfl, hlife⟩ := hchronicle.every peer hsome
    exact ⟨table, hlife.announces, hlife.inOrder, hlife.offers⟩
  · rw [hchronicle.handed_eq]
    obtain ⟨table, hlife⟩ := hchronicle.lives h (List.mem_append_left _ hh)
    exact ⟨table, hlife.announces, hlife.streaming_iff (hrun.atRest.live h hh).settled hwork⟩
  · obtain ⟨hrest, table, hlife⟩ := hrun.visits hvisits
    exact ⟨table, hlife.announces, hlife.streams hrest.settled⟩

/-- The multiplexer takes the writer and both sockets, although it refuses the first
of them once. -/
theorem handoff_rehearsed :
    (handed .first (happenings (rehearsed 4).past)).tail = [.socket ⟨1⟩, .socket ⟨2⟩] ∧
    ((rehearsed 4).controller.registry.live.map (·.phase)) = [.streaming] ∧
    ∃ table, Announces table (history .first (rehearsed 4).past) ∧
      (handed .first (happenings (rehearsed 4).past) = [] ∨
        InOrder table (history .first (rehearsed 4).past)
          (handed .first (happenings (rehearsed 4).past))) ∧
      Along (OffersInTurn table .first) [] (history .first (rehearsed 4).past) := by
  refine ⟨by decide +kernel, by decide +kernel,
    (rehearsed_run 4).handoff_order.1 .first fun hnone => ?_⟩
  have hasked : requests (history .first (rehearsed 4).past) = [⟨7, 3, 0⟩] := by decide +kernel
  rw [hnone] at hasked
  cases hasked

/-! ### Custody -/

theorem Run.owns_nothing (hrun : Run settings past c) {h : Handler} (hmem : h ∈ c.house.handlers)
    (hover : ¬h.AtWork) : h.ownedSockets = [] ∧ h.ownedWriters = [] := by
  obtain ⟨table, hlife⟩ := hrun.chronicle.lives h hmem
  exact ⟨ownedSockets_of_over hlife.sound hover, ownedWriters_of_over hlife.sound hover⟩

/-- Every socket that was opened is owned by a live handler, or the multiplexer took it, or it was
closed; every writer that was received is owned by a live handler, or the multiplexer took it, or it
was released.  Whoever is stopping or parked owns nothing.  As long as no two sockets were opened
under one identity, none is in two places, and none is used after it was offered or closed. -/
theorem Run.resource_ownership (hrun : Run settings past c) :
    (openedSockets (happenings past)).Perm (c.registry.live.flatMap ownedSockets ++
      takenSockets (happenings past) ++ closedSockets (happenings past)) ∧
    (receivedWriters (happenings past)).Perm (c.registry.live.flatMap ownedWriters ++
      takenWriters (happenings past) ++ releasedWriters (happenings past)) ∧
    (∀ h ∈ c.registry.live, h.phase = .stopping → h.ownedSockets = [] ∧ h.ownedWriters = []) ∧
    (∀ h ∈ c.registry.distressed, h.ownedSockets = [] ∧ h.ownedWriters = []) ∧
    ((openedSockets (happenings past)).Nodup →
      (c.registry.live.flatMap ownedSockets ++ takenSockets (happenings past) ++
        closedSockets (happenings past)).Nodup ∧
      Along UsesItsOwn [] (happenings past)) ∧
    ((receivedWriters (happenings past)).Nodup →
      (c.registry.live.flatMap ownedWriters ++ takenWriters (happenings past) ++
        releasedWriters (happenings past)).Nodup) := by
  have hchronicle := hrun.chronicle
  have hparked : ∀ h ∈ c.registry.distressed, h.ownedSockets = [] ∧ h.ownedWriters = [] :=
    fun h hh => hrun.owns_nothing (List.mem_append_right _ hh)
      (Registry.not_atWork_of_distressed (hrun.atRest.distressed h hh))
  have hsockets := hchronicle.sockets
  have hwriters := hchronicle.writers
  have hnoSocket : c.registry.distressed.flatMap ownedSockets = [] :=
    List.flatMap_eq_nil_iff.2 fun h hh => (hparked h hh).1
  have hnoWriter : c.registry.distressed.flatMap ownedWriters = [] :=
    List.flatMap_eq_nil_iff.2 fun h hh => (hparked h hh).2
  simp only [house, Registry.handlers, List.flatMap_append, hnoSocket, hnoWriter,
    List.append_nil] at hsockets hwriters
  refine ⟨hsockets, hwriters, fun h hh hphase => ?_, hparked, fun hnodup => ⟨?_, ?_⟩,
    fun hnodup => ?_⟩
  · exact hrun.owns_nothing (List.mem_append_left _ hh) (not_atWork_stopping hphase)
  · exact hsockets.nodup_iff.1 hnodup
  · exact hchronicle.uses hnodup
  · exact hwriters.nodup_iff.1 hnodup

/-- Before the handoff, a handler owns a writer and the sockets that were opened to
its two masters. -/
theorem custody_rehearsed :
    (rehearsed 3).controller.registry.live.flatMap ownedSockets = [⟨1⟩, ⟨2⟩] ∧
    (openedSockets (happenings (rehearsed 3).past)).Perm [⟨1⟩, ⟨2⟩] ∧
    Along UsesItsOwn [] (happenings (rehearsed 3).past) := by
  have howned : (rehearsed 3).controller.registry.live.flatMap ownedSockets = [⟨1⟩, ⟨2⟩] := by
    decide +kernel
  have htaken : takenSockets (happenings (rehearsed 3).past) = [] := by decide +kernel
  have hclosed : closedSockets (happenings (rehearsed 3).past) = [] := by decide +kernel
  obtain ⟨hsockets, -, -, -, hdistinct, -⟩ := (rehearsed_run 3).resource_ownership
  refine ⟨howned, ?_, (hdistinct (by decide +kernel)).2⟩
  rwa [howned, htaken, hclosed] at hsockets

/-! ### The registry -/

/-- After every operation the five parts of the registry tell the same.  The active tables are those
of the live handlers, and no table has two handlers, live or parked.  No peer has two either;
whoever begins has a greater number than all before, and those that are initializing are listed in
this order.  The live handlers are live, and are listed by their phase; the parked ones are
distressed, and have no connections left.  Whoever was asked to stop is live, and stopping. -/
theorem Run.registry_agrees (hrun : Run settings past c) :
    c.registry.active.Perm (c.registry.live.map (·.tableName)) ∧
    (c.registry.live.map (·.tableName) ++ c.registry.distressed.map (·.tableName)).Nodup ∧
    (c.registry.live.map (·.peer) ++ c.registry.distressed.map (·.peer)).Nodup ∧
    Along BeginsNext [] past ∧
    (∀ h ∈ c.registry.live ++ c.registry.distressed, ∃ masters,
      (history h.peer past).head? = some (.noted (.started h.tableName masters))) ∧
    (c.registry.initializing.map (·.peer.number)).Pairwise (· < ·) ∧
    (∀ h ∈ c.registry.live, h.phase.isLive) ∧
    (∀ h ∈ c.registry.initializing, h.phase ≠ .streaming) ∧
    (∀ h ∈ c.registry.streaming, h.phase = .streaming ∨ h.phase = .stopping) ∧
    (∀ h ∈ c.registry.distressed, h.phase = .distressed ∧ h.connections = []) ∧
    ∀ peer ∈ c.registry.voluntary, ∃ h ∈ c.registry.live, h.peer = peer ∧ h.phase = .stopping := by
  have hord := hrun.inOrder
  have hnames := hord.names
  have hpeers := hord.peers
  rw [Registry.handlers, List.map_append] at hnames hpeers
  refine ⟨hord.active, hnames, hpeers, House.beginsNext_of_way rfl hrun.comes, fun h hh => ?_,
    hord.ascending, fun h hh => (hord.atRest.live h hh).live, hrun.promoted, hord.divided,
    fun h hh => ⟨hord.atRest.distressed h hh, hord.parked h hh⟩, hord.heeds⟩
  obtain ⟨table, hlife⟩ := hrun.chronicle.lives h hh
  rw [hlife.tableName]
  exact ⟨table.masters.length, hlife.announces.2⟩

/-- The table that streams is the active one, and its handler the one that was begun. -/
theorem registry_rehearsed :
    (rehearsed 4).controller.registry.active.Perm ["t"] ∧ Along BeginsNext [] (rehearsed 4).past ∧
    (rehearsed 4).controller.registry.streaming.map (·.peer) = [.first] := by
  obtain ⟨hactive, -, -, hbegins, -⟩ := (rehearsed_run 4).registry_agrees
  have hlive : (rehearsed 4).controller.registry.live.map (·.tableName) = ["t"] := by decide +kernel
  rw [hlive] at hactive
  exact ⟨hactive, hbegins, by decide +kernel⟩

/-! ### Bytes -/

theorem encode_of_fits {f : Frame} (hfits : f.encodedLength ≤ greatestWord32) :
    f.encode [] = .ok f.bytes := by
  rw [Frame.encode, if_pos hfits, List.nil_append]

/-- All bytes that were read from a socket that the multiplexer took are those of the description
that was accepted, and for the first socket those of the start of the data stream, and then those
that were handed over with the socket. -/
theorem Run.bytes_preserved (hrun : Run settings past c)
    (hnodup : (openedSockets (happenings past)).Nodup) {peer : PeerId} {handoff : Handoff}
    (htaken : .answered (.offerSocket peer handoff) true ∈ happenings past) :
    ∃ info bytes, (Frame.tableInfo info).encode [] = .ok bytes ∧
      if (openedSockets (history peer past)).head? = some handoff.socket then
        ∃ start more, (Frame.startOfReplicationStream start).encode [] = .ok more ∧
          acceptedFrames (about handoff.socket (happenings past)) =
            [.tableInfo info, .startOfReplicationStream start] ∧
          deliveredBytes (about handoff.socket (happenings past)) =
            bytes ++ more ++ handoff.buffered
      else
        acceptedFrames (about handoff.socket (happenings past)) = [.tableInfo info] ∧
          deliveredBytes (about handoff.socket (happenings past)) = bytes ++ handoff.buffered := by
  have hchronicle := hrun.chronicle
  obtain ⟨e, he, heq⟩ := List.mem_map.1 htaken
  have hpeer := hchronicle.peer_of_offer he (by rw [heq]; rfl)
  have hmem := mem_history he hpeer
  rw [heq] at hmem
  obtain ⟨table, h, rfl, hlife⟩ := hchronicle.every peer (List.ne_nil_of_mem hmem)
  have howner := hlife.opened _ hmem handoff.socket rfl
  obtain ⟨hbytes, hfits, info, hframes⟩ := hlife.handsOn (nodup_history hnodup h.peer) _ _ hmem
  rw [hchronicle.about_eq hnodup howner]
  split at hframes
  next hfirst =>
    obtain ⟨start, hframes⟩ := hframes
    rw [hframes] at hbytes hfits
    refine ⟨info, _, encode_of_fits (hfits _ (by simp)), ?_⟩
    rw [if_pos hfirst]
    exact ⟨start, _, encode_of_fits (hfits _ (by simp)), hframes, by simpa using hbytes⟩
  next hlater =>
    rw [hframes] at hbytes hfits
    refine ⟨info, _, encode_of_fits (hfits _ (by simp)), ?_⟩
    rw [if_neg hlater]
    exact ⟨hframes, by simpa using hbytes⟩

/-- Behind the frames of the first master go the bytes `42` and `43` that were read with them. -/
theorem bytes_rehearsed :
    ∃ info bytes start more, (Frame.tableInfo info).encode [] = .ok bytes ∧
      (Frame.startOfReplicationStream start).encode [] = .ok more ∧
      deliveredBytes (about ⟨1⟩ (happenings (rehearsed 4).past)) = bytes ++ more ++ [42, 43] := by
  have htaken : (.first, ⟨⟨1⟩, [42, 43]⟩) ∈
      (happenings (rehearsed 4).past).filterMap (·.handoff?) := by decide +kernel
  obtain ⟨x, hx, hhandoff⟩ := List.mem_filterMap.1 htaken
  rw [Happening.eq_of_handoff? hhandoff] at hx
  obtain ⟨info, bytes, hbytes, hrest⟩ :=
    (rehearsed_run 4).bytes_preserved (by decide +kernel) hx
  rw [if_pos (by decide +kernel)] at hrest
  obtain ⟨start, more, hmore, -, hdelivered⟩ := hrest
  exact ⟨info, bytes, start, more, hbytes, hmore, hdelivered⟩

end ReplicaHandshake.Controller
