import ReplicaHandshake.Proofs.Controller.Peers
import ReplicaHandshake.Proofs.Controller.Performed
import ReplicaHandshake.Proofs.Handler.Schema

/-!
# Schema agreement at the handoff

When a writer is offered, all masters of its table have reported one structure version
(`Run.procures_writers`).  A table that was there has this version, or its writer is not offered.

A table that was not there is created from what the data stream starts with, and the version
of the new table is never compared: it may be another one, and the table streams
nevertheless (`created_unlike`).
-/

namespace ReplicaHandshake.Controller

open Handler Happening

variable {settings : Settings} {past before after : List Entry} {c : Controller} {e : Entry}

/-- Whenever a writer is offered for a peer, it happens on behalf of this peer, and all masters of
its table have described the table with one and the same structure version.  Either the table was
there and the writer has this version, or the table was not there and the writer is what the store
has made of the start of the data stream. -/
theorem Run.procures_writers (hrun : Run settings past c) (hsplit : past = before ++ e :: after)
    {peer : PeerId} {id : UInt32} {writer : TableWriter} {taken : Bool}
    (hoffer : e.happening = .answered (.offerWriter peer id writer) taken) :
    e.peer = some peer ∧ ∃ table request, Announces table (history peer past) ∧
      Agreement table (history peer before) request ∧ id = request.masterTableId ∧
      Procured table (history peer before) request.structureVersion writer := by
  have hchronicle := hrun.chronicle
  have he : e ∈ past := by simp [hsplit]
  have hpeer : e.peer = some peer := hchronicle.peer_of_offer he (by rw [hoffer]; rfl)
  obtain ⟨table, h, rfl, hlife⟩ := hchronicle.every peer (List.ne_nil_of_mem (mem_history he hpeer))
  have hhistory : history h.peer past =
      history h.peer before ++ .answered (.offerWriter h.peer id writer) taken ::
        history h.peer after := by
    rw [hsplit, history_append, ← hoffer]
    simp [history, hpeer]
  have halong := hlife.offers_procured
  rw [hhistory] at halong
  obtain ⟨request, hagreement, hid, hprocured⟩ := halong.split h.peer id writer taken rfl
  exact ⟨hpeer, table, request, hlife.announces, hagreement, hid, hprocured⟩

section Rehearsal

open Rehearsal

/-- The offer of a writer: for whom, of which table, the writer, and whether it was taken. -/
def writerOffer? : Entry → Option (PeerId × UInt32 × TableWriter × Bool)
  | ⟨_, .answered (.offerWriter peer id writer) taken⟩ => some (peer, id, writer, taken)
  | _ => none

theorem eq_of_writerOffer? {peer : PeerId} {id : UInt32} {writer : TableWriter} {taken : Bool}
    (h : writerOffer? e = some (peer, id, writer, taken)) :
    e.happening = .answered (.offerWriter peer id writer) taken := by
  unfold writerOffer? at h
  split at h <;> cases h
  rfl

/-- One master describes its table, of the third version, to a replica that has these tables. -/
def schemaWorld (tables : List Table) : World where
  network :=
    { masters := [(1, { inbound := [.segment (Frame.bytes (.tableInfo (rehearsedInfo 5)))] })] }
  store := { tables }

/-- The start of a data stream of which the store makes a table of the fourth version. -/
def laterStart : StartOfReplicationStream where
  masterTableId := 7
  metadata := [4, 0, 0, 0, 0, 0, 0, 0]
  symbols := []

/-- The master starts the data stream. -/
def startStream (w : World) : World :=
  { w with
    network := w.network.updateMaster 1 fun m =>
      { m with inbound :=
        m.inbound ++ [.segment (Frame.bytes (.startOfReplicationStream laterStart))] } }

def schemaOpening (tables : List Table) : Performance World :=
  (Performance.start? world 0 .small (schemaWorld tables)).get rfl

/-- The table is added, and the controller makes so many ticks. -/
def schemaAsked (tables : List Table) (n : Nat) : Performance World :=
  ((schemaOpening tables).goOn world (submit (.add ⟨"t", [⟨"127.0.0.1", 1⟩]⟩))).ticks world 0 n

/-- When the data stream was asked for it starts, and the controller makes so many ticks. -/
def schemaStarted (tables : List Table) (n : Nat) : Performance World :=
  ((schemaAsked tables 2).meanwhile startStream).ticks world 0 n

theorem schemaAsked_run (tables : List Table) (n : Nat) :
    Run .small (schemaAsked tables n).past (schemaAsked tables n).controller := by
  have hopening : Performance.start? world 0 .small (schemaWorld tables) =
      some (schemaOpening tables) :=
    (Option.some_get _).symm
  exact Performance.run_ticks (Performance.run_submit (Performance.of_start? hopening) _) 0 n

theorem schemaStarted_run (tables : List Table) (n : Nat) :
    Run .small (schemaStarted tables n).past (schemaStarted tables n).controller :=
  Performance.run_ticks (Performance.run_meanwhile (schemaAsked_run tables 2) startStream) 0 n

/-- A replica that has the table, of the third version, offers its writer. -/
theorem schema_rehearsed :
    ∃ before e after, (schemaStarted [⟨"t", 3, 5⟩] 2).past = before ++ e :: after ∧
      e.happening = .answered (.offerWriter .first 7 ⟨1, "t", 3, 5⟩) true ∧
      e.peer = some .first ∧ ∃ table request,
        Announces table (history .first (schemaStarted [⟨"t", 3, 5⟩] 2).past) ∧
        Agreement table (history .first before) request ∧ 7 = request.masterTableId ∧
        Procured table (history .first before) request.structureVersion ⟨1, "t", 3, 5⟩ := by
  have hoffer : (.first, 7, ⟨1, "t", 3, 5⟩, true) ∈
      (schemaStarted [⟨"t", 3, 5⟩] 2).past.filterMap writerOffer? := by decide +kernel
  obtain ⟨e, he, hoffer⟩ := List.mem_filterMap.1 hoffer
  obtain ⟨before, after, hsplit⟩ := List.append_of_mem he
  have hhappening := eq_of_writerOffer? hoffer
  exact ⟨before, e, after, hsplit, hhappening,
    (schemaStarted_run _ 2).procures_writers hsplit hhappening⟩

/-- A replica that has no table has one created.  The master has reported the third version and the
writer is of the fourth, and still the multiplexer is offered it, and the table streams. -/
theorem created_unlike :
    Run .small (schemaStarted [] 2).past (schemaStarted [] 2).controller ∧
    (∃ e ∈ (schemaStarted [] 2).past, e.happening =
      .answered (.offerWriter .first 7 ⟨1, "t", 4, 0⟩) true) ∧
    (descriptions (history .first (schemaStarted [] 2).past)).map (·.structureVersion) = [3] ∧
    (schemaStarted [] 2).controller.registry.live.map (·.phase) = [.streaming] := by
  refine ⟨schemaStarted_run [] 2, ?_, by decide +kernel, by decide +kernel⟩
  have hoffer : (.first, 7, ⟨1, "t", 4, 0⟩, true) ∈
      (schemaStarted [] 2).past.filterMap writerOffer? := by
    decide +kernel
  obtain ⟨e, he, hoffer⟩ := List.mem_filterMap.1 hoffer
  exact ⟨e, he, eq_of_writerOffer? hoffer⟩

end Rehearsal

end ReplicaHandshake.Controller
