import ReplicaHandshake.Proofs.Controller.Outflow
import ReplicaHandshake.Proofs.Controller.Performed
import ReplicaHandshake.Proofs.Controller.Verdicts
import ReplicaHandshake.Proofs.Handler.Meeting

/-!
# Meetings in runs

What a handler comes to is settled by its meeting, whatever else the controller has to do, and
whenever and in whatever pieces the answers come: it asks for the request that is due, or it fails
and asks for none (`OpenRun.yields`).  So of two runs with the same meeting, or with meetings that
differ only in how many rows the masters have, both come to the same, and by their sockets the same
bytes go out (`OpenRun.settled_by_meeting`).
-/

namespace ReplicaHandshake

open Handler

theorem Settings.frameBuffer_le {settings : Settings} (hvalid : settings.validate = .ok ()) :
    settings.frameBuffer ≤ greatestWord32 := by
  unfold validate at hvalid
  split at hvalid
  · cases hvalid
  split at hvalid
  · cases hvalid
  split at hvalid
  · cases hvalid
  next h => exact Nat.le_of_not_lt h

namespace Controller

variable {settings : Settings} {past : List Entry} {c : Controller} {asked : List PeerId}
  {m : Meeting} {peer : PeerId}

/-- A controller does not start with settings that are not valid. -/
theorem Run.valid (hrun : Run settings past c) : settings.validate = .ok () := by
  induction hrun with
  | @start instanceId _ c hruns =>
    cases hvalid : settings.validate with
    | error f =>
      rw [Controller.start, hvalid] at hruns
      cases hruns
    | ok => rfl
  | submit _ _ _ ih | tick _ _ _ ih | close _ _ ih => exact ih

/-- If the meeting grants a request, and the buffers have room for it, then no handler fails
before it asks. -/
theorem Run.spares (hrun : Run settings past c) {r : RequestReplicationStream}
    (hgrants : m.Grants r) (hroom : m.HasRoom settings.frameBuffer)
    (hnodup : (openedSockets (history peer past)).Nodup) (hheld : m.IsHeld (history peer past))
    (hnone : requests (history peer past) = []) :
    failures (history peer past) = [] := by
  have hword := Settings.frameBuffer_le hrun.valid
  have hall :=
    hrun.everyone (P := fun table hs h => Life table hs h ∧ h.HasBuffers settings.frameBuffer ∧
    ((openedSockets hs).Nodup → m.IsHeld hs → requests hs = [] → failures hs = [])) ?_ ?_
  · have hsome : history peer past ≠ [] := by
      intro hempty
      have hstarted := hheld.started
      rw [hempty] at hstarted
      cases hstarted
    obtain ⟨table, h, -, -, -, hspared⟩ := hall.every peer hsome
    exact hspared hnodup hheld hnone
  · intro peer table timeout now hs h hvalid hbegins
    exact ⟨.begins hvalid hbegins, hbegins.hasBuffers, fun _ hheld hnone =>
      hbegins.spares hheld hnone⟩
  · rintro table past hs h h' ⟨hlife, hbuffers, hspared⟩ hturn
    refine ⟨hlife.turns hturn, hturn.hasBuffers hlife.sound hbuffers, fun hnodup hheld hnone => ?_⟩
    rw [hturn.openedSockets_eq hlife.sound] at hnodup
    have hpast : requests past = [] := by
      rw [requests_append, List.append_eq_nil_iff] at hnone
      exact hnone.1
    rw [failures_append, hspared hnodup (hheld.front hlife.ne_nil) hpast,
      hlife.spares hturn hnodup hheld hnone hgrants hbuffers hroom hword]
    rfl

/-! ### Meetings to the end -/

/-- The handler of a peer has held this meeting to its end: nobody asked it to stop, and unless it
has failed it was told everything. -/
structure Attends (m : Meeting) (settings : Settings) (past : List Entry) (asked : List PeerId)
    (peer : PeerId) :
    Prop where
  room : m.HasRoom settings.frameBuffer
  unasked : peer ∉ asked
  /-- No two sockets were opened under one identity. -/
  distinct : (openedSockets (history peer past)).Nodup
  held : m.IsHeld (history peer past)
  delivered : failures (history peer past) = [] → m.IsDelivered (history peer past)

theorem Attends.ne_nil (hattends : Attends m settings past asked peer) :
    history peer past ≠ [] := by
  intro hempty
  have hstarted := hattends.held.started
  rw [hempty] at hstarted
  cases hstarted

/-- At the end of a meeting the handler has failed, or it has asked for the data stream. -/
theorem OpenRun.concludes (hrun : OpenRun settings past c asked)
    (hattends : Attends m settings past asked peer) :
    failures (history peer past) ≠ [] ∨ requests (history peer past) ≠ [] := by
  have hverdicts := hrun.verdicts
  by_cases hlive : c.registry.HasLive peer
  case neg =>
    exact .inl ((hverdicts.ended peer hattends.ne_nil hlive).2.resolve_left hattends.unasked)
  obtain ⟨h, hh, rfl⟩ := hlive
  obtain ⟨table, hlife⟩ := hrun.kept.life hh
  have hrest := hrun.inOrder.atRest.live h hh
  by_cases hphase : h.phase = .stopping
  · exact .inl (hlife.failures_ne_nil (hverdicts.excused h hh hattends.unasked hphase))
  obtain hgathering | hasked := gathering_or_asked (atWork_of_live hrest.live hphase)
  · refine .inl fun hnone => ?_
    exact hlife.not_waiting hattends.distinct hattends.held hgathering hrest.settled
      (hattends.delivered hnone)
  · obtain ⟨request, hrequests, -⟩ := hlife.asked hasked
    exact .inr (hrequests ▸ List.cons_ne_nil _ _)

/-- What goes out by each socket is a front of what is to go out by it, and all of it was put in if
a request is due. -/
def Sends (m : Meeting) (instanceId : InstanceId) (peer : PeerId) (hs : List Happening) : Prop :=
  ∀ (i : Nat) (socket : SocketId), (openedSockets hs)[i]? = some socket →
    queuedFrames (about socket hs) <+: m.frames instanceId peer i ∧
      writtenBytes (about socket hs) <+: (m.frames instanceId peer i).flatMap Frame.bytes ∧
      (m.request?.isSome → queuedFrames (about socket hs) = m.frames instanceId peer i)

/-- What a meeting comes to: the request that is due was asked for, or none is due, and the
handler has failed. -/
structure Yields (m : Meeting) (instanceId : InstanceId) (peer : PeerId) (hs : List Happening) :
    Prop where
  requests : requests hs = m.request?.toList
  fails : m.request? = none → failures hs ≠ []
  sends : Sends m instanceId peer hs

/-- What a handler comes to that has held a meeting to its end, the meeting alone settles. -/
theorem OpenRun.yields (hrun : OpenRun settings past c asked)
    (hattends : Attends m settings past asked peer) :
    m.answers ≠ [] ∧ Yields m c.instanceId peer (history peer past) := by
  obtain ⟨table, h, rfl, hlife⟩ := hrun.run.chronicle.every peer hattends.ne_nil
  have hgrants := hlife.grants hattends.distinct hattends.held
  have hconcludes := hrun.concludes hattends
  have hrequests : requests (history h.peer past) = m.request?.toList := by
    cases hdue : m.request? with
    | none =>
      refine List.eq_nil_iff_forall_not_mem.2 fun r hr => ?_
      rw [Meeting.request?_eq_some_iff.2 (hgrants r hr)] at hdue
      cases hdue
    | some r =>
      have hgranted := Meeting.request?_eq_some_iff.1 hdue
      have hsome : requests (history h.peer past) ≠ [] := by
        intro hnone
        have hspared := hrun.run.spares hgranted hattends.room hattends.distinct hattends.held hnone
        exact hconcludes.elim (absurd hspared) (absurd hnone)
      obtain ⟨r', hr'⟩ :=
        List.length_eq_one_iff.1 (Nat.le_antisymm hlife.requests_le (List.length_pos_iff.2 hsome))
      have hdue' := Meeting.request?_eq_some_iff.2 (hgrants r' (hr' ▸ List.mem_singleton_self r'))
      rw [hdue, Option.some.injEq] at hdue'
      rw [hr', hdue']
      rfl
  refine ⟨?_, hrequests, fun hdue => ?_, fun i socket hsocket => ?_⟩
  · rw [← List.length_pos_iff, ← (hlife.meets hattends.held).2]
    exact hlife.announces.1
  · rw [hdue] at hrequests
    exact hconcludes.resolve_right (absurd hrequests)
  · have hpresents := hrun.run.presents h.peer
    obtain ⟨hqueued, hwritten⟩ :=
      hlife.outflow_prefix hattends.distinct hattends.held hpresents hrequests hsocket
    exact ⟨hqueued, hwritten, fun hsome =>
      hlife.queued_eq hattends.distinct hattends.held hpresents hrequests hsome hsocket⟩

/-! ### Two runs -/

variable {settings' : Settings} {past' : List Entry} {c' : Controller} {asked' : List PeerId}
  {m' : Meeting} {peer' : PeerId}

theorem Yields.congr_rows {id : InstanceId} {hs : List Happening} (hyields : Yields m' id peer hs)
    (hrows : m'.withoutRows = m.withoutRows) : Yields m id peer hs := by
  have hdue : m'.request? = m.request? := by
    rw [← m'.request?_withoutRows, hrows, m.request?_withoutRows]
  have hname := congrArg Meeting.tableName hrows
  obtain ⟨hrequests, hfails, hsends⟩ := hyields
  unfold Sends Meeting.frames at hsends
  rw [hdue] at hrequests hfails hsends
  rw [show m'.tableName = m.tableName from hname] at hsends
  exact ⟨hrequests, hfails, hsends⟩

/-- By the sockets at the same position the same bytes go out, as far as both have come. -/
def SendAlike (hs hs' : List Happening) : Prop :=
  ∀ (i : Nat) (socket socket' : SocketId), (openedSockets hs)[i]? = some socket →
    (openedSockets hs')[i]? = some socket' →
    writtenBytes (about socket hs) <+: writtenBytes (about socket' hs') ∨
      writtenBytes (about socket' hs') <+: writtenBytes (about socket hs)

theorem Sends.alike {id : InstanceId} {hs hs' : List Happening} (hsends : Sends m id peer hs)
    (hsends' : Sends m id peer hs') : SendAlike hs hs' :=
  fun i socket socket' hsocket hsocket' =>
    List.prefix_or_prefix_of_prefix (hsends i socket hsocket).2.1 (hsends' i socket' hsocket').2.1

/-- Two handlers hold the same meeting to its end, but for how many rows the masters have: in two
runs, and whenever, in whatever order and in whatever pieces the answers come.  Then both ask for
the data stream, and for the same one; or both fail, and ask for none.  The first is so exactly if
all answers are about the table, with a table id and with the same id and structure version, and the
local table is ready for the stream.

What goes out by the sockets of both are fronts of the same frames, but for the identity under which
they ask, and all of these frames if the data stream is asked for.  How far the writing has come is
up to the sockets, but no byte depends on how the answers came, nor on the rows. -/
theorem OpenRun.settled_by_meeting (hrun : OpenRun settings past c asked)
    (hrun' : OpenRun settings' past' c' asked') (hattends : Attends m settings past asked peer)
    (hattends' : Attends m' settings' past' asked' peer') (hrows : m'.withoutRows = m.withoutRows) :
    ((m.Agree ∧ m.Resolves) ∧
        (∃ r, requests (history peer past) = [r] ∧ requests (history peer' past') = [r]) ∨
      ¬(m.Agree ∧ m.Resolves) ∧
        (requests (history peer past) = [] ∧ failures (history peer past) ≠ []) ∧
        requests (history peer' past') = [] ∧ failures (history peer' past') ≠ []) ∧
    Sends m c.instanceId peer (history peer past) ∧
    Sends m c'.instanceId peer' (history peer' past') ∧
    (c'.instanceId = c.instanceId → peer' = peer →
      SendAlike (history peer past) (history peer' past')) := by
  obtain ⟨hsome, hyields⟩ := hrun.yields hattends
  have hyields' := (hrun'.yields hattends').2.congr_rows hrows
  have halike : c'.instanceId = c.instanceId → peer' = peer →
      SendAlike (history peer past) (history peer' past') := by
    rintro hid rfl
    exact hyields.sends.alike (hid ▸ hyields'.sends)
  refine ⟨?_, hyields.sends, hyields'.sends, halike⟩
  rw [hyields.requests, hyields'.requests, ← Meeting.isSome_request?_iff hsome]
  cases hdue : m.request? with
  | some r => exact .inl ⟨rfl, r, rfl, rfl⟩
  | none => exact .inr ⟨nofun, ⟨rfl, hyields.fails hdue⟩, rfl, hyields'.fails hdue⟩

/-! ### Two meetings -/

section Rehearsal

open Rehearsal

/-- Two masters describe a table that the store does not have, the second one in
this structure version. -/
def rehearsedMeeting (first second structureVersion : UInt64) : Meeting where
  tableName := "t"
  answers := [rehearsedInfo first, { rehearsedInfo second with structureVersion }]
  sendable := by
    have hlength : Utf16.byteLength "t" = 2 := by decide +kernel
    simp [Frame.encodedLength, rehearsedInfo, hlength, headerLength, greatestWord32]
  tableExists := .ok false
  openWriter := .error { text := "" }

/-- A master that says this, and nothing else. -/
def saying (info : TableInfo) : Master where
  inbound := [.segment (Frame.bytes (.tableInfo info))]

/-- The table is added where these are its masters, and the controller makes so many ticks. -/
def met (first second : Master) (n : Nat) : Performance World :=
  ((rehearsedOpening.meanwhile fun _ =>
    { network := { masters := [(1, first), (2, second)] } }).goOn world
    (submit (.add rehearsedTable))).ticks world 0 n

/-- The first master answers at once, the second is not connected yet. -/
def firstAhead (structureVersion : UInt64) : Performance World :=
  met { saying (rehearsedInfo 5) with readLimit := some 20 }
    { saying { rehearsedInfo 9 with structureVersion } with connect := .after 2 } 4

/-- The second master answers at once, the first is not connected yet and then comes in
small pieces. -/
def secondAhead (structureVersion : UInt64) : Performance World :=
  met { saying (rehearsedInfo 11) with connect := .after 2, readLimit := some 7 }
    (saying { rehearsedInfo 0 with structureVersion }) 6

theorem met_open {first second : Master} {n : Nat}
    (hadds : ∀ k < n, ∀ i ∈ (met first second k).controller.queue.pending, i.kind = "add") :
    OpenRun .small (met first second n).past (met first second n).controller [] := by
  have hopening : Performance.start? world 0 .small rehearsedWorld = some rehearsedOpening :=
    (Option.some_get _).symm
  have hopen : OpenRun .small rehearsedOpening.past rehearsedOpening.controller [] :=
    Performance.open_of_start? hopening
  let p := rehearsedOpening.meanwhile fun _ =>
    { network := { masters := [(1, first), (2, second)] } }
  have hmet : OpenRun .small p.past p.controller [] := hopen
  exact Performance.open_ticks (Performance.open_submit hmet _) 0 n hadds

theorem rehearsedMeeting_hasRoom (first second structureVersion : UInt64) :
    (rehearsedMeeting first second structureVersion).HasRoom Settings.small.frameBuffer := by
  intro question request hname
  have hlength : Utf16.byteLength "t" = 2 := by decide +kernel
  simp [Frame.encodedLength, hname, rehearsedMeeting, hlength, headerLength, Settings.small]

theorem attends_of_history {first second structureVersion : UInt64}
    (hstarted : (history .first past).head?.bind (·.note?) = some (.started "t" 2))
    (hdistinct : (openedSockets (history .first past)).Nodup)
    (hadmits : (rehearsedMeeting first second structureVersion).Admits
      (beforeRequest (history .first past)))
    (hfronts : ∀ turn ∈
        (openedSockets (history .first past)).zip
          (rehearsedMeeting first second structureVersion).answers,
      deliveredBytes (about turn.1 (beforeRequest (history .first past))) <+:
        (Frame.tableInfo turn.2).bytes)
    (hdelivered : failures (history .first past) = [] →
      (rehearsedMeeting first second structureVersion).IsDelivered (history .first past)) :
    Attends (rehearsedMeeting first second structureVersion) .small past [] .first where
  room := rehearsedMeeting_hasRoom first second structureVersion
  unasked := List.not_mem_nil
  distinct := hdistinct
  held := by
    obtain ⟨x, hx, hnote⟩ := Option.bind_eq_some_iff.1 hstarted
    exact { hadmits with started := Happening.eq_of_note? hnote ▸ hx, delivered := hfronts }
  delivered := hdelivered

/-- The order in which two masters are heard does not matter, nor how many rows they have: they
agree, and the same stream is asked for, with the same bytes; they are of different structures, and
both handlers fail. -/
theorem meeting_rehearsed :
    ((∃ r, requests (history .first (firstAhead 3).past) = [r] ∧
        requests (history .first (secondAhead 3).past) = [r]) ∧
      SendAlike (history .first (firstAhead 3).past) (history .first (secondAhead 3).past)) ∧
    (requests (history .first (firstAhead 4).past) = [] ∧
      failures (history .first (firstAhead 4).past) ≠ []) ∧
    requests (history .first (secondAhead 4).past) = [] ∧
      failures (history .first (secondAhead 4).past) ≠ [] := by
  have hfirst : Attends (rehearsedMeeting 5 9 3) .small (firstAhead 3).past [] .first := by
    apply attends_of_history <;> decide +kernel
  have hsecond : Attends (rehearsedMeeting 11 0 3) .small (secondAhead 3).past [] .first := by
    apply attends_of_history <;> decide +kernel
  have hfirst' : Attends (rehearsedMeeting 5 9 4) .small (firstAhead 4).past [] .first := by
    apply attends_of_history <;> decide +kernel
  have hsecond' : Attends (rehearsedMeeting 11 0 4) .small (secondAhead 4).past [] .first := by
    apply attends_of_history <;> decide +kernel
  have hagree := (met_open (by decide +kernel)).settled_by_meeting
      (met_open (by decide +kernel)) hfirst hsecond rfl
  have hdisagree :=
    (met_open (by decide +kernel)).settled_by_meeting
      (met_open (by decide +kernel)) hfirst' hsecond' rfl
  obtain ⟨⟨-, hasked⟩ | ⟨hnot, -⟩, -, -, halike⟩ := hagree
  case inr => exact absurd (by decide +kernel) hnot
  obtain ⟨⟨hagreed, -⟩ | ⟨-, hfail, hfail'⟩, -⟩ := hdisagree
  · exact absurd hagreed (by decide +kernel)
  · exact ⟨⟨hasked, halike (by decide +kernel) rfl⟩, hfail, hfail'⟩

end Rehearsal

end Controller

end ReplicaHandshake
