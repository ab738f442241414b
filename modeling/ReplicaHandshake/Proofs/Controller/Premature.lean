import ReplicaHandshake.Proofs.Controller.Performed
import ReplicaHandshake.Proofs.Handler.Premature

/-!
# Starts that come too early

A master violates the protocol when it sends the start of the data stream before it was asked for,
or over a socket that is not the first.  What becomes of the start is decided when its connection
takes it out of its inbound buffer (`Run.judges_starts`): if it is in its place by then it is
accepted, and otherwise the handler fails and never comes to the handoff.  As long as the handler
waits for its masters, it does not even survive a poll over such a start.

A start that was read too early should always be fatal, and yet one that was read together with a
description may still lie in its inbound buffer at the rendezvous, unjudged.  From then on only
the first connection is polled: there the start passes for the answer to the request, and on any
other connection it goes on to the multiplexer, a frame of the handshake among the data of the
stream (`hasty_streams`).
-/

namespace ReplicaHandshake.Controller

open Handler Happening

variable {settings : Settings} {past : List Entry} {c : Controller}

/-- A start of the data stream that is taken out of an inbound buffer is in its place, or the
handler fails there for a violation of the protocol, and never comes to the handoff.  If one is next
on any connection of a handler that waits for its masters, then the next poll makes the handler
fail, before the handoff. -/
theorem Run.judges_starts (hrun : Run settings past c) :
    (∀ peer before after, history peer past = before ++ startTaken :: after →
      InPlace before after ∨ FailsThere (history peer past) after ∧
        ∀ h ∈ c.registry.live ++ c.registry.distressed, h.peer = peer → h.HasTripped) ∧
    ∀ now entries h, c.Visits now entries h → h.IsGathering → ∀ x ∈ h.connections,
      x.inbound.StartsNext →
      Work.Always (Handler.poll now) h fun hs _ h' =>
        HasGivenUp (history h.peer (past ++ entries) ++ hs) h' := by
  refine ⟨fun peer before after hsplit => ?_, fun now entries h hvisits hphase x hx hnext => ?_⟩
  · have hchronicle := hrun.chronicle
    obtain ⟨table, h, rfl, hlife⟩ := hchronicle.every peer (by simp [hsplit])
    by_cases hplace : InPlace before after
    · exact .inl hplace
    obtain ⟨hfails, -⟩ := (hlife.starts before after hsplit).resolve_left hplace
    refine .inr ⟨hfails, fun h' hh' hpeer => ?_⟩
    obtain ⟨table', hlife'⟩ := hchronicle.lives h' hh'
    rw [hpeer] at hlife'
    exact ((hlife'.starts before after hsplit).resolve_left hplace).2
  · obtain ⟨hrest, table, hlife⟩ := hrun.visits hvisits
    exact hlife.poll_premature hrest.settled hphase hx hnext

section Rehearsal

open Rehearsal

/-- The description of the table, and the start of the data stream behind it. -/
def bothFrames : Bytes :=
  Frame.bytes (.tableInfo (rehearsedInfo 5)) ++
    Frame.bytes (.startOfReplicationStream rehearsedStart)

/-- The first master sends both frames at once, before it is asked for the stream. -/
def hastyWorld (second : List InboundItem) : World where
  network :=
    { masters := [(1, { inbound := [.segment bothFrames] }), (2, { inbound := second })] }

def hastyOpening (second : List InboundItem) : Performance World :=
  (Performance.start? world 0 .small (hastyWorld second)).get rfl

/-- The table is added, and the controller makes so many ticks. -/
def hasty (second : List InboundItem) (n : Nat) : Performance World :=
  ((hastyOpening second).goOn world (submit (.add rehearsedTable))).ticks world 0 n

theorem hasty_run (second : List InboundItem) (n : Nat) :
    Run .small (hasty second n).past (hasty second n).controller := by
  have hopening : Performance.start? world 0 .small (hastyWorld second) =
      some (hastyOpening second) :=
    (Option.some_get _).symm
  exact Performance.run_ticks (Performance.run_submit (Performance.of_start? hopening) _) 0 n

theorem startsNext_of_frame {b : InboundBuffer} {start : StartOfReplicationStream}
    (hframe : b.nextFrame.1.toOption = some (some (.startOfReplicationStream start))) :
    b.StartsNext := by
  cases hnext : b.nextFrame.1 with
  | error e => simp [hnext, Except.toOption] at hframe
  | ok f =>
    rw [hnext] at hframe
    cases hframe
    exact ⟨start, hnext⟩

/-- While the second master is silent, the handler fails over the start that the first one
sends too early. -/
theorem starts_rehearsed :
    (∃ before after, history .first (hasty [] 2).past = before ++ startTaken :: after ∧
      requests before = [] ∧
      FailsThere (history .first (hasty [] 2).past) after) ∧
    ∃ entries h, (hasty [] 1).controller.Visits 0 entries h ∧ h.IsGathering ∧
      (∃ x ∈ h.connections, x.inbound.StartsNext) ∧
      Work.Always (Handler.poll 0) h fun hs _ h' =>
        HasGivenUp (history h.peer ((hasty [] 1).past ++ entries) ++ hs) h' := by
  constructor
  · have hnone : requests (history .first (hasty [] 2).past) = [] := by decide +kernel
    obtain ⟨before, after, hsplit⟩ : ∃ before after, history .first (hasty [] 2).past =
      before ++ startTaken :: after := split_of_metric (by decide +kernel)
    rw [hsplit, requests_append] at hnone
    have hbefore := (List.append_eq_nil_iff.1 hnone).1
    refine ⟨before, after, hsplit, hbefore, ?_⟩
    obtain hplace | hfails := (hasty_run [] 2).judges_starts.1 .first before after hsplit
    · obtain ⟨⟨request, hrequest⟩, -⟩ := hplace
      simp [hbefore] at hrequest
    · exact hfails.1
  · have hseen : (((hasty [] 1).goOn world (drainInstructions 0)).goOn world
        drainDisconnections).controller.registry.live.map
          (fun h => (h.phase, h.connections.map fun x => x.inbound.nextFrame.1.toOption)) =
        [(.awaitingRendezvous,
          [some (some (.startOfReplicationStream rehearsedStart)), some none])] := by
      decide +kernel
    obtain ⟨h, after, hlive, hh, -⟩ := List.map_eq_cons_iff.1 hseen
    obtain ⟨hphase, hframes⟩ := Prod.mk.inj hh
    obtain ⟨x, rest, hconnections, hframe, -⟩ := List.map_eq_cons_iff.1 hframes
    have hx : x ∈ h.connections := hconnections ▸ List.mem_cons_self
    have hnext := startsNext_of_frame hframe
    obtain ⟨entries, -, hvisits⟩ := Performance.visits_first hlive
    exact ⟨entries, h, hvisits, .inr hphase, ⟨x, hx, hnext⟩,
      (hasty_run [] 1).judges_starts.2 0 entries h hvisits (.inr hphase) x hx hnext⟩

/-- The second master is as hasty as the first one. -/
def bothHasty : Performance World :=
  hasty [.segment bothFrames] 2

/-- A violation of the protocol that goes unnoticed: both starts have been read as a whole before
the stream is asked for, and yet nothing fails and the table streams.  The start of the first
master passes for the answer to the request, and that of the second one is handed to the
multiplexer as if it was data. -/
theorem hasty_streams :
    Run .small bothHasty.past bothHasty.controller ∧
    (∃ before after, history .first bothHasty.past = before ++ after ∧ requests before = [] ∧
      (openedSockets before).head? = some ⟨1⟩ ∧
      deliveredBytes (about ⟨1⟩ before) = bothFrames ∧
        deliveredBytes (about ⟨2⟩ before) = bothFrames) ∧
    failures (history .first bothHasty.past) = [] ∧
    Phase.streaming.name ∈ phases (history .first bothHasty.past) ∧
    .answered (.offerSocket .first ⟨⟨2⟩, Frame.bytes (.startOfReplicationStream rehearsedStart)⟩)
      true ∈
      history .first bothHasty.past := by
  refine ⟨hasty_run _ 2, ?_, by decide +kernel, by decide +kernel, ?_⟩
  · refine ⟨(history .first bothHasty.past).take 20, (history .first bothHasty.past).drop 20,
      (List.take_append_drop ..).symm, ?_, ?_, ?_, ?_⟩ <;> decide +kernel
  · have htaken :
        (PeerId.first, Handoff.mk ⟨2⟩ (Frame.bytes (.startOfReplicationStream rehearsedStart))) ∈
        (history .first bothHasty.past).filterMap (·.handoff?) := by decide +kernel
    obtain ⟨x, hx, hhandoff⟩ := List.mem_filterMap.1 htaken
    rwa [eq_of_handoff? hhandoff] at hx

end Rehearsal

end ReplicaHandshake.Controller
