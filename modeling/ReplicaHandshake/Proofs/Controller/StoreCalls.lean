import ReplicaHandshake.Proofs.Controller.Holding
import ReplicaHandshake.Proofs.Controller.Schema
import ReplicaHandshake.Proofs.Handler.StoreCalls

/-!
# How the local store is used

The store is used by handlers alone, and by each of them for its own table.  Whatever comes of it,
a handler looks for its table once at most, and then opens or creates it once at most, and never
both (`Run.uses_store`).
-/

namespace ReplicaHandshake.Controller

open Handler Ledger

variable {settings : Settings} {past : List Entry} {c : Controller}

theorem Run.peer_of_storeCall (hrun : Run settings past c) :
    ∀ e ∈ past, e.happening.isStoreCall → e.peer.isSome := by
  have hother : ∀ {x : Happening}, x.IsImpersonal → x.isStoreCall = false := fun himpersonal => by
    cases himpersonal <;> rfl
  intro e he hcall
  rw [Option.isSome_iff_ne_none]
  intro hnone
  rw [hother (hrun.impersonal he hnone)] at hcall
  cases hcall

/-- The store is called only on behalf of a peer, and for the table of this peer.  It is asked for
the table once at most, at the rendezvous.  Only a table that is there is opened, once at most;
only a table that is not there is created, once at most, and from the start of the data stream
that the first socket has just accepted, for the table that it has described.  If a master has
reported another structure version than that of the writer that was opened, then the data stream
is never asked for. -/
theorem Run.uses_store (hrun : Run settings past c) :
    (∀ e ∈ past, e.happening.isStoreCall → e.peer.isSome) ∧
    ∀ peer, history peer past ≠ [] → ∃ table, Announces table (history peer past) ∧
      StoreUse table (storeCalls (history peer past)) ∧
      (∀ before x after, history peer past = before ++ x :: after → CallsInTurn table before x) ∧
      ∀ before tableName writer after,
        history peer past = before ++ .answered (.openWriter tableName) (.ok writer) :: after →
        (∃ info ∈ descriptions before, info.structureVersion ≠ writer.structureVersion) →
        requests (history peer past) = [] := by
  refine ⟨hrun.peer_of_storeCall, fun peer hsome => ?_⟩
  obtain ⟨table, h, rfl, hlife⟩ := hrun.chronicle.every peer hsome
  refine ⟨table, hlife.announces, hlife.storeUse, fun before x after hsplit => ?_, ?_⟩
  · have hcalls := hlife.calls
    rw [hsplit] at hcalls
    exact hcalls.split
  · rintro before tableName writer after hsplit ⟨info, hinfo, hother⟩
    exact hlife.unasked_of_mismatch hsplit hinfo hother

section Rehearsal

open Rehearsal

/-- The writer that was opened, and for which table. -/
def openedWriter? : Happening → Option (String × TableWriter)
  | .answered (.openWriter tableName) (.ok writer) => some (tableName, writer)
  | _ => none

theorem eq_of_openedWriter? {x : Happening} {tableName : String} {writer : TableWriter}
    (h : openedWriter? x = some (tableName, writer)) :
    x = .answered (.openWriter tableName) (.ok writer) := by
  unfold openedWriter? at h
  split at h <;> cases h
  rfl

/-- On behalf of the first peer of a replica that has the table of the fourth version, while its
master reports the third. -/
def mismatched : List Happening :=
  history .first (schemaAsked [⟨"t", 4, 5⟩] 3).past

/-- The writer is opened at the rendezvous, and the data stream is not asked for. -/
theorem mismatch_rehearsed : ∃ table before after,
    mismatched = before ++ .answered (.openWriter "t") (.ok ⟨1, "t", 4, 5⟩) :: after ∧
      (descriptions before).map (·.structureVersion) = [3] ∧ Announces table mismatched ∧
      StoreUse table (storeCalls mismatched) ∧
      CallsInTurn table before (.answered (.openWriter "t") (.ok ⟨1, "t", 4, 5⟩)) ∧
        requests mismatched = [] := by
  have hopened : ((mismatched.dropWhile (openedWriter? · = none)).head?.bind openedWriter?) =
      some ("t", ⟨1, "t", 4, 5⟩) := by decide +kernel
  have hdescribed : (descriptions (mismatched.takeWhile (openedWriter? · = none))).map
      (·.structureVersion) = [3] := by
    decide +kernel
  obtain ⟨x, hhead, hx⟩ := Option.bind_eq_some_iff.1 hopened
  obtain ⟨after, hafter⟩ := List.head?_eq_some_iff.1 hhead
  obtain rfl := eq_of_openedWriter? hx
  have hsplit := List.takeWhile_append_dropWhile (p := (openedWriter? · = none)) (l := mismatched)
  rw [hafter] at hsplit
  have hsome : mismatched ≠ [] := by
    rw [← hsplit]
    exact List.append_ne_nil_of_right_ne_nil _ (List.cons_ne_nil _ _)
  obtain ⟨table, hannounces, huse, hcalls, hunasked⟩ :=
    (schemaAsked_run [⟨"t", 4, 5⟩] 3).uses_store.2 .first hsome
  refine ⟨table, _, after, hsplit.symm, hdescribed, hannounces, huse, hcalls _ _ after hsplit.symm,
    hunasked _ _ _ after hsplit.symm ?_⟩
  obtain ⟨info, hinfo, hversion⟩ := List.mem_map.1 (hdescribed ▸ List.mem_singleton_self 3)
  exact ⟨info, hinfo, by rw [hversion]; decide⟩

end Rehearsal

end ReplicaHandshake.Controller
