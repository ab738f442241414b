import ReplicaHandshake.Proofs.Controller.Idle
import ReplicaHandshake.Proofs.Controller.Tallies
import ReplicaHandshake.Proofs.Handler.Retries

/-!
# Retries of all handlers

That the writer is to be offered again, or a peer to be stopped again, is reported as often as the
multiplexer has refused it.  That a connection is to be offered again is reported for every socket
that the multiplexer has refused, and once more for every stall of a handler, in which no socket was
offered at all (`Run.counts_retries`).
-/

namespace ReplicaHandshake

open Handler

/-- Whatever a handler does, of what it reports everything has its reason. -/
theorem Handler.Deed.settles {table : TableSettings} {past hs : List Happening} {h h' : Handler}
    (hlife : Life table past h) (hdeed : Deed h hs h') : Settles h.writerTransferred hs := by
  cases hdeed with
  | polled now _ hdoes => exact hdoes.of_always (poll_settles hlife)
  | stops hstops => exact settles_of_smooth hstops.smooth
  | hears _ hhears => exact settles_of_smooth hhears.smooth
  | ends =>
    exact settles_of_smooth
      (List.forall_mem_cons.2 ⟨⟨rfl, rfl, rfl⟩, List.forall_mem_singleton.2 ⟨rfl, rfl, rfl⟩⟩)
  | rests => exact settles_of_smooth (List.forall_mem_nil _)

namespace Controller

variable {settings : Settings} {past : List Entry} {c : Controller}

/-- In the history of every peer each report that a connection is to be offered again has its
refusal or its stall. -/
theorem Run.settles (hrun : Run settings past c) (peer : PeerId) :
    Settles false (history peer past) := by
  have hall : House.Everyone (fun _ past _ => Settles false past) past c.house := by
    refine hrun.everyone_of_deeds (fun _ hbegins => settles_of_smooth hbegins.smooth) ?_
    intro table past hs h h' hlife hpast hdeed
    refine hpast.append (hdeed.settles hlife) ?_
    rw [hlife.writerTransferred_iff]
    simp
  by_cases hsome : history peer past = []
  · rw [hsome]
    exact settles_of_smooth (List.forall_mem_nil _)
  · obtain ⟨_, _, -, hsettles⟩ := hall.every peer hsome
    exact hsettles

/-- That anything but a connection is to be tried again is reported as often as the multiplexer has
refused it.  That a connection is, is reported as often as the multiplexer has refused one, and once
more for every call that would have had to wait after it had taken the writer of the same peer. -/
theorem Run.counts_retries (hrun : Run settings past c) :
    (∀ target ≠ "connection", (retries (happenings past)).count target =
      (refusals (happenings past)).count target) ∧
    (retries (happenings past)).count "connection" =
      (refusals (happenings past)).count "connection" +
      (c.issued.map fun peer => stalls (history peer past)).sum := by
  have hretries :=
    fun target => hrun.tally_filterMap (f := Happening.retried?) (fun _ hx => by cases hx <;> rfl)
    (· == target)
  have hrefusals :=
    fun target => hrun.tally_filterMap (f := Happening.refused?) (fun _ hx => by cases hx <;> rfl)
    (· == target)
  constructor
  · intro target hother
    refine (hretries target).trans (Eq.trans (congrArg List.sum ?_) (hrefusals target).symm)
    refine List.map_congr_left fun peer hpeer => ?_
    obtain ⟨_, _, -, hlife⟩ := hrun.chronicle.every peer (hrun.issued_iff.2 hpeer)
    exact hlife.booked.retries hother
  · refine (hretries "connection").trans
      (Eq.trans ?_ (congrArg (· + _) (hrefusals "connection").symm))
    rw [← List.sum_map_add]
    exact congrArg List.sum (List.map_congr_left fun peer _ => hrun.settles peer)

section Rehearsal

open Rehearsal

/-- The multiplexer has the writer, and the first master takes no byte of the request for the stream
in two ticks. -/
theorem retries_rehearsed :
    (retries (happenings (halting 3).past)).count "connection" =
      (refusals (happenings (halting 3).past)).count "connection" + 2 ∧
    (retries (happenings (halting 3).past)).count "writer" = 0 := by
  obtain ⟨hothers, hconnections⟩ := (halting_run 3).counts_retries
  have hstalls : ((halting 3).controller.issued.map fun peer =>
      stalls (history peer (halting 3).past)).sum = 2 := by
    decide +kernel
  refine ⟨by rw [hconnections, hstalls], ?_⟩
  exact (hothers "writer" (by decide)).trans (by decide +kernel)

/-- It is reported that a connection is to be offered again, although none was offered. -/
theorem retried_unoffered : Run .small (halting 2).past (halting 2).controller ∧
    (retries (happenings (halting 2).past)).count "connection" = 1 ∧
    (offeredSockets (happenings (halting 2).past)).length = 0 ∧
    (refusals (happenings (halting 2).past)).count "connection" = 0 :=
  ⟨halting_run 2, by decide +kernel, by decide +kernel, by decide +kernel⟩

end Rehearsal

end Controller

end ReplicaHandshake
