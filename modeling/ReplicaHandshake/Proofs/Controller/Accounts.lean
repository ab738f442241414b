import Mathlib.Algebra.Order.BigOperators.Group.List
import Mathlib.Algebra.Order.Group.Nat
import ReplicaHandshake.Proofs.Controller.Service
import ReplicaHandshake.Proofs.Controller.Tallies
import ReplicaHandshake.Proofs.Controller.Verdicts
import ReplicaHandshake.Proofs.Handler.Stages

/-!
# The accounts of a controller

While a controller is open, no handler is lost, none is counted twice and none comes to its end
twice.  Whoever has begun is either live and has come to no outcome, or has come to one, which is
that of the phase that it has entered last (`OpenRun.settled`).  What is so for every peer is so for
the sums over all peers, and these are what the controller reports: how often each phase was
entered, and how many handlers came to which outcome (`OpenRun.settles_accounts`).

The number of peers that were issued is that of the tables that were added (`OpenRun.added`), and at
the end of every tick the controller reports how large each of its sets is (`Ticks.shown`).
-/

namespace ReplicaHandshake

open Handler Registry Ledger

/-- The time that the handshake of a table took, when it streams. -/
def Happening.handshake? : Happening → Option Duration
  | reported (.handshakeDuration _ duration) => some duration
  | _ => none

/-- The times that handshakes took, in this order. -/
def handshakes (hs : List Happening) : List Duration :=
  hs.filterMap (·.handshake?)

/-- The sizes of the sets of handlers that were reported. -/
def Happening.sizes? : Happening → Option (Nat × Nat × Nat)
  | reported (.handlerCounts initializing streaming distressed) =>
    some (initializing, streaming, distressed)
  | _ => none

/-- The sizes of the sets of handlers that were reported last. -/
def shownSizes (hs : List Happening) : Option (Nat × Nat × Nat) :=
  (hs.filterMap (·.sizes?)).getLast?

theorem Booked.count_streaming {tableName : String} {isOver : Bool} {hs : List Happening}
    (hbooked : Booked tableName isOver hs) :
    (phases hs).count Phase.streaming.name = (handshakes hs).length := by
  rw [phases, ReplicaHandshake.handshakes, List.count, List.countP_filterMap, ← List.countP_true,
    List.countP_filterMap]
  refine hbooked.countP_eq fun hs hpost => ?_
  cases hpost with
  | @plain x hplain =>
    rw [List.countP_singleton, List.countP_singleton]
    congr 1
    unfold Happening.entered? Happening.handshake?
    split
    · cases hplain
    · split
      · cases hplain
      · rfl
  | @enters phase hphase =>
    have hname : phase.name ≠ Phase.streaming.name :=
      fun hsame => hphase (Phase.name_injective hsame)
    simpa [List.countP_cons, Happening.entered?, Happening.handshake?] using hname
  | _ => rfl

/-! ### How everyone ends -/

namespace Ledger

variable {b b' : Ledger} {past entries : List Entry}

/-- Whoever is not live any more has come to one outcome, that of its last phase. -/
def Concluded (past : List Entry) (b : Ledger) : Prop :=
  ∀ peer, history peer past ≠ [] → ¬b.registry.HasLive peer →
    ∃ table h, Life table (history peer past) h ∧ h.phase.isTerminal = true ∧
      outcomes (history peer past) = [outcome h.phase]

theorem OpenStep.concluded (hstep : OpenStep b entries b') (hkept : Kept past b)
    (hconcluded : Concluded past b) :
    Concluded (past ++ entries) b' := by
  intro peer hsome hgone
  rw [history_append] at hsome ⊢
  cases hstep with
  | works hstep =>
    obtain ⟨hgone, hnone⟩ := hstep.absent hgone
    rw [hnone, List.append_nil] at hsome ⊢
    exact hconcluded peer hsome hgone
  | reaps hreaps =>
    obtain ⟨hgone, hnone⟩ | ⟨h, hh, rfl, hends⟩ := hreaps.absent hkept.inOrder.live_peers hgone
    · rw [hnone, List.append_nil] at hsome ⊢
      exact hconcluded peer hsome hgone
    · obtain ⟨hlive, hdrained⟩ := List.mem_filter.1 hh
      obtain ⟨table, hlife⟩ := hkept.life hlive
      have hphase := phase_of_isDrained hdrained
      have hlast := b.registry.isTerminal_verdict h
      refine ⟨table, { h with phase := b.registry.verdict h }, ?_, hlast, ?_⟩
      · rw [hends]
        exact hlife.of_way (Deed.ends hdrained hlast).way
      · rw [outcomes_append, hends, hlife.no_outcome (by rw [hphase]; rfl)]
        rfl

end Ledger

namespace Controller

variable {settings : Settings} {c c' : Controller} {asked more : List PeerId}
  {past entries : List Entry} {now : Instant}

theorem OpenRun.concluded (hrun : OpenRun settings past c asked) :
    Concluded past (c.ledger asked []) :=
  hrun.invariant (fun _ _ hsome => absurd rfl hsome) fun _ _ _ _ hkept hconcluded hstep =>
    hstep.concluded hkept hconcluded

/-- Whoever has begun has a live handler, which has come to no outcome, or none any more, and
has come to one. -/
theorem OpenRun.settled (hrun : OpenRun settings past c asked) {peer : PeerId}
    (hissued : peer ∈ c.issued) :
    ∃ table h, Life table (history peer past) h ∧
      (c.registry.live.filter (·.peer = peer) = [h] ∧ h.phase.isTerminal = false ∧
          outcomes (history peer past) = [] ∨
        c.registry.live.filter (·.peer = peer) = [] ∧ h.phase.isTerminal = true ∧
          outcomes (history peer past) = [outcome h.phase]) := by
  by_cases hlive : c.registry.HasLive peer
  · obtain ⟨h, hh, rfl⟩ := hlive
    obtain ⟨table, hlife⟩ := hrun.kept.life hh
    have hphase : h.phase.isTerminal = false := by
      simpa [Phase.isLive] using (hrun.inOrder.atRest.live h hh).live
    exact ⟨table, h, hlife,
      .inl ⟨filter_of_nodup hrun.inOrder.live_peers hh, hphase, hlife.no_outcome hphase⟩⟩
  · obtain ⟨table, h, hlife, hover, houtcome⟩ :=
      hrun.concluded peer (hrun.run.issued_iff.2 hissued) hlive
    refine ⟨table, h, hlife, .inr ⟨List.filter_eq_nil_iff.2 fun x hx hsame => ?_, hover, houtcome⟩⟩
    exact hlive ⟨x, hx, of_decide_eq_true hsame⟩

/-! ### Sums over all peers -/

theorem Run.sum_phases (hrun : Run settings past c) (phase : Phase) :
    (phases (happenings past)).count phase.name =
      (c.issued.map fun peer => (phases (history peer past)).count phase.name).sum :=
  hrun.tally_filterMap (fun _ hx => by cases hx <;> rfl) _

theorem Run.sum_outcomes (hrun : Run settings past c) (p : String → Bool) :
    (outcomes (happenings past)).countP p =
      (c.issued.map fun peer => (outcomes (history peer past)).countP p).sum :=
  hrun.tally_filterMap (fun _ hx => by cases hx <;> rfl) p

theorem Run.count_streaming (hrun : Run settings past c) :
    (phases (happenings past)).count Phase.streaming.name =
      (handshakes (happenings past)).length := by
  rw [hrun.sum_phases, ← List.countP_true, handshakes,
    hrun.tally_filterMap fun _ hx => by cases hx <;> rfl]
  refine congrArg List.sum (List.map_congr_left fun peer hpeer => ?_)
  obtain ⟨table, h, -, hlife⟩ := hrun.chronicle.every peer (hrun.issued_iff.2 hpeer)
  rw [hlife.booked.count_streaming, ← List.countP_true]
  rfl

/-- A phase that may only follow another one is not entered more often. -/
theorem Run.entered_le (hrun : Run settings past c) {old new : Phase} (hfirst : new ≠ .initializing)
    (honly : ∀ phase : Phase, new ∈ phase.next → phase = old) :
    (phases (happenings past)).count new.name ≤ (phases (happenings past)).count old.name := by
  rw [hrun.sum_phases, hrun.sum_phases]
  refine List.sum_le_sum fun peer hpeer => ?_
  obtain ⟨table, h, -, hlife⟩ := hrun.chronicle.every peer (hrun.issued_iff.2 hpeer)
  exact hlife.entered_le hfirst honly

theorem Run.count_initializing (hrun : Run settings past c) :
    (phases (happenings past)).count Phase.initializing.name = c.issued.length := by
  have hone : ∀ peer ∈ c.issued, (phases (history peer past)).count Phase.initializing.name =
      1 := by
    intro peer hpeer
    obtain ⟨table, h, -, hlife⟩ := hrun.chronicle.every peer (hrun.issued_iff.2 hpeer)
    exact hlife.entered_initializing
  rw [hrun.sum_phases, List.map_congr_left hone]
  simp

theorem OpenRun.count_issued (hrun : OpenRun settings past c asked) :
    c.issued.length = c.registry.live.length + (outcomes (happenings past)).length := by
  have hone : ∀ peer ∈ c.issued,
      (c.registry.live.filter (·.peer = peer)).length + (outcomes (history peer past)).length =
        1 := by
    intro peer hpeer
    obtain ⟨table, h, -, ⟨hlive, -, hnone⟩ | ⟨hgone, -, hone⟩⟩ := hrun.settled hpeer
    · rw [hlive, hnone]
      rfl
    · rw [hgone, hone]
      rfl
  have hlive := hrun.run.tally_live fun _ => true
  have houtcomes := hrun.run.sum_outcomes fun _ => true
  rw [List.countP_true] at hlive houtcomes
  rw [hlive, houtcomes, ← List.sum_map_add, List.map_congr_left hone]
  simp

theorem OpenRun.count_last (hrun : OpenRun settings past c asked) {last : Phase}
    (hlast : last.isTerminal = true) :
    (phases (happenings past)).count last.name = (outcomes (happenings past)).count
      (outcome last) := by
  have houtcomes := hrun.run.sum_outcomes (· == outcome last)
  rw [← List.count] at houtcomes
  rw [hrun.run.sum_phases, houtcomes]
  refine congrArg List.sum (List.map_congr_left fun peer hpeer => ?_)
  obtain ⟨table, h, hlife, ⟨-, hphase, hnone⟩ | ⟨-, hphase, hone⟩⟩ := hrun.settled hpeer
  · rw [hlife.entered_terminal hlast, hnone, if_neg]
    · rfl
    · rintro rfl
      rw [hlast] at hphase
      cases hphase
  · rw [hlife.entered_terminal hlast, hone]
    revert hphase hlast
    cases h.phase <;> cases last <;> decide

theorem OpenRun.count_stopping (hrun : OpenRun settings past c asked) :
    (phases (happenings past)).count Phase.stopping.name =
      (outcomes (happenings past)).length + c.registry.live.countP (·.phase = .stopping) := by
  rw [hrun.run.sum_phases, ← List.countP_true, hrun.run.sum_outcomes,
    hrun.run.tally_live, ← List.sum_map_add]
  refine congrArg List.sum (List.map_congr_left fun peer hpeer => ?_)
  obtain ⟨table, h, hlife, ⟨hlive, hphase, hnone⟩ | ⟨hgone, hphase, hone⟩⟩ := hrun.settled hpeer
  · rw [hlife.entered_stopping, hlive, hnone, hphase, List.countP_singleton]
    simp
  · rw [hlife.entered_stopping, hgone, hone, hphase]
    simp

/-! ### Tables that were added -/

/-- As many peers are issued as tables are added. -/
def Issues (c : Controller) (entries : List Entry) (c' : Controller) : Prop :=
  c'.nextPeer.number = c.nextPeer.number + tally "add" "applied" entries

theorem Issues.trans {c₁ : Controller} {first second : List Entry} (h : Issues c first c₁)
    (h' : Issues c₁ second c') : Issues c (first ++ second) c' := by
  rw [Issues, tally_append, ← Nat.add_assoc, ← show c₁.nextPeer.number = _ from h]
  exact h'

theorem issues_of_same (hsame : c'.nextPeer = c.nextPeer)
    (hnone : tally "add" "applied" entries = 0) :
    Issues c entries c' := by
  rw [Issues, hsame, hnone, Nat.add_zero]

theorem CarriesOut.issues {i : Instruction} (hcarries : CarriesOut now c i entries c')
    (hrest : c.registry.AtRest) :
    Issues c entries c' := by
  have hreceipt := tally_receipt "add" "applied"
  cases hcarries with
  | @invalid table | @active table =>
    exact issues_of_same rfl ((hreceipt (.add table) "ignored").trans (by simp))
  | @forgets tableName =>
    exact issues_of_same rfl ((hreceipt (.remove tableName) _).trans (by simp [Instruction.kind]))
  | @adds table did h _ _ hdoes =>
    have hquiet : tally "add" "applied" (marked c.nextPeer did) = 0 := by
      apply tally_of_noReceipts
      rw [happenings_marked]
      exact (hdoes.of_always new_begins).noReceipts
    have happlied : tally "add" "applied" [receipt (.add table) "applied"] = 1 := hreceipt ..
    show _ = _ + tally _ _ (_ ++ [receipt (.add table) "applied"])
    rw [tally_append, hquiet, happlied]
    rfl
  | @stops h _ _ _ hround =>
    have hround := stops_of_requests hrest hround
    have hquiet := hround.noReceipts (noReceipts_of_only stops_behaves.noReceipts)
    have happlied : tally "add" "applied" [receipt (.remove h.tableName) "applied"] = 0 :=
      hreceipt ..
    refine issues_of_same rfl ?_
    show tally _ _ (_ ++ [receipt (.remove h.tableName) "applied"]) = 0
    rw [tally_append, tally_of_noReceipts hquiet, happlied]

theorem Carries.issues {is : List Instruction} (hcarries : Carries now c is entries more c')
    (hord : (c.ledger asked []).InOrder) : Issues c entries c' := by
  induction hcarries generalizing asked with
  | done => exact issues_of_same rfl rfl
  | @next c c₁ c' i rest first second more hruns _ ih =>
    have hcarried := carryOut_carriesOut hord now i _ _ hruns
    have hway := carryOut_way hord now i _ _ hruns
    exact (hcarried.issues hord.atRest).trans (ih (inOrder_of_works hway hord))

theorem hearAll_issues (ds : List Disconnection) :
    Work.Records (hearAll ds) c fun _ _ c' => c'.nextPeer = c.nextPeer := by
  induction ds generalizing c with
  | nil => exact Work.records_pure.2 rfl
  | cons d rest ih =>
    have hhears : Work.Records (hear d) c fun _ _ c' => c'.nextPeer = c.nextPeer := by
      simp only [hear, Work.records_bind, Work.records_pure]
      exact onRegistry_records.2 fun _ _ _ => rfl
    simp only [hearAll, Work.records_bind]
    exact hhears.mono fun _ _ _ hfirst => ih.mono fun _ _ _ hrest => hrest.trans hfirst

theorem Drives.issues (hdrives : Drives c now entries c') (hord : c.registry.InOrder c.nextPeer) :
    Issues c entries c' := by
  refine issues_of_same ?_ (tally_of_noReceipts (hdrives.apart hord).1.quiet)
  cases hdrives with
  | @intro c₁ c₂ c₃ c₄ _ _ _ _ _ _ _ _ _ _ hheard hpolled hpromoted hreaped hcounted =>
    have hheard : c₁.nextPeer = c.nextPeer := by
      obtain ⟨ds, told, -, hruns⟩ := drainDisconnections_hears _ _ hheard
      exact hearAll_issues ds _ _ hruns
    have hpolls : Work.Records (pollHandlers now) c₁ fun _ _ c' => c'.nextPeer = c₁.nextPeer := by
      simp only [pollHandlers, Work.records_bind, Work.records_pure]
      exact onRegistry_records.2 fun _ _ _ => rfl
    have hpromotes : Work.Records promoteHandlers c₂ fun _ _ c' => c'.nextPeer = c₂.nextPeer := by
      simp only [promoteHandlers, Work.records_bind, Work.records_get, Work.records_modify,
        Work.records_pure]
    have hreaps : Work.Records (onRegistry reap) c₃ fun _ _ c' => c'.nextPeer = c₃.nextPeer :=
      onRegistry_records.2 fun _ _ _ => rfl
    have hcounted : c' = c₄ := (reportCounts_reports _ _ hcounted).1
    rw [hcounted, hreaps _ _ hreaped, hpromotes _ _ hpromoted, hpolls _ _ hpolled, hheard]

theorem Operates.issues (hoperates : Operates (c, asked) entries (c', more))
    (hord : (c.ledger asked []).InOrder) :
    Issues c entries c' := by
  cases hoperates with
  | submit i hruns =>
    obtain ⟨rfl, -, rfl⟩ := submit_records i _ _ hruns
    have hanswers : ∀ accepted, answer accepted ≠ "applied" := by decide
    exact issues_of_same rfl ((tally_receipt ..).trans (if_neg fun h => hanswers _ h.2))
  | tick now hticks =>
    obtain ⟨c₁, carried, driven, rfl, hcarries, hdrives⟩ := hticks.drives
    have hord₀ : (ledger { c with queue := c.queue.cleared } asked []).InOrder := hord
    have hcarried : Issues c carried c₁ := hcarries.issues hord₀
    exact hcarried.trans (hdrives.issues (inOrder_of_works (hcarries.way hord₀) hord₀))

theorem OpenRun.count_added (hrun : OpenRun settings past c asked) :
    c.issued.length = tally "add" "applied" past := by
  suffices hissued : c.nextPeer.number = PeerId.first.number + tally "add" "applied" past by
    rw [length_issued, hissued]
    exact Nat.add_sub_cancel_left ..
  induction hrun with
  | @start instanceId past c hruns =>
    obtain ⟨-, -, -, hentries⟩ := start_queues instanceId settings _ _ hruns c rfl
    have hfirst : c.nextPeer = .first :=
      congrArg Ledger.nextPeer (start_way instanceId settings _ _ hruns c rfl).1
    rw [hentries, tally_receipts, hfirst]
    rfl
  | goesOn hrun hoperates ih =>
    rw [hoperates.issues hrun.inOrder, ih, tally_append, Nat.add_assoc]

/-! ### What is shown -/

/-- At its end a tick reports the sizes of the sets. -/
theorem Ticks.shown {busy : Bool} (hticks : Ticks c now entries more busy c') (past : List Entry) :
    shownSizes (happenings (past ++ entries)) =
      some (c'.registry.initializing.length, c'.registry.streaming.length,
        c'.registry.distressed.length) := by
  cases hticks with
  | @intro _ _ _ _ c₅ _ _ _ _ _ _ counted _ _ _ _ _ _ _ _ _ _ hcounted =>
    have hcounts : Work.Records reportCounts c₅ fun entries _ c' =>
        ∀ before, shownSizes (happenings (before ++ entries)) =
          some (c'.registry.initializing.length, c'.registry.streaming.length,
            c'.registry.distressed.length) := by
      simp only [reportCounts, Work.records_bind, Work.records_get, report_records, List.nil_append]
      intro before
      simp [shownSizes, Happening.sizes?]
    have hshown := hcounts _ _ hcounted
    simp only [← List.append_assoc]
    exact hshown _

/-! ### The balance -/

/-- The reports of all that has happened go with each other, and with the handlers that the
controller keeps. -/
structure Balanced (past : List Entry) (c : Controller) : Prop where
  /-- As many handlers have begun as tables were added. -/
  added : (phases (happenings past)).count Phase.initializing.name = tally "add" "applied" past
  /-- As many handlers have begun as peers were issued. -/
  issued : (phases (happenings past)).count Phase.initializing.name =
    c.nextPeer.number - PeerId.first.number
  /-- Every handler that has begun is live, or has come to its outcome. -/
  settled : (phases (happenings past)).count Phase.initializing.name =
    c.registry.live.length + (outcomes (happenings past)).length
  stopped : (phases (happenings past)).count Phase.stopped.name =
    (outcomes (happenings past)).count "stopped"
  distressed :
    (phases (happenings past)).count Phase.distressed.name =
      (outcomes (happenings past)).count "distressed"
  /-- Who has entered stopping has come to its outcome, or is stopping. -/
  stopping : (phases (happenings past)).count Phase.stopping.name =
    (outcomes (happenings past)).length + c.registry.live.countP (·.phase = .stopping)
  streaming : (phases (happenings past)).count Phase.streaming.name =
    (handshakes (happenings past)).length
  /-- Along the way to the stream every phase was entered at least as often as the next one. -/
  rising : [Phase.initializing, .awaitingRendezvous, .requestingStream, .handingOff,
    .streaming].IsChain
    fun old new => (phases (happenings past)).count new.name ≤
      (phases (happenings past)).count old.name
  /-- The sizes of the sets are those that were reported last. -/
  shown : shownSizes (happenings past) =
    some (c.registry.initializing.length, c.registry.streaming.length, c.registry.distressed.length)

/-- On the way to the stream every phase was entered at least as often as the next one. -/
theorem Run.rising (hrun : Run settings past c) :
    [Phase.initializing, .awaitingRendezvous, .requestingStream, .handingOff, .streaming].IsChain
      fun old new => (phases (happenings past)).count new.name ≤
        (phases (happenings past)).count old.name := by
  simp only [List.isChain_cons_cons, List.isChain_singleton, and_true]
  refine ⟨hrun.entered_le (by decide) ?_, hrun.entered_le (by decide) ?_, hrun.entered_le
    (by decide) ?_,
    hrun.entered_le (by decide) ?_⟩
  all_goals
    intro phase
    cases phase <;> decide

/-- After every tick of an open controller its accounts are balanced. -/
theorem OpenRun.settles_accounts (hrun : OpenRun settings past c asked) {busy : Bool}
    (hruns : ((tick now).run c).Runs entries (busy, c')) : Balanced (past ++ entries) c' := by
  obtain ⟨more, hticks⟩ := tick_iff.1 hruns
  have hopen := hrun.goesOn (.tick now hticks)
  have hissued := hopen.run.count_initializing
  exact ⟨hissued.trans hopen.count_added, hissued.trans c'.length_issued,
    hissued.trans hopen.count_issued, hopen.count_last rfl, hopen.count_last rfl,
    hopen.count_stopping, hopen.run.count_streaming, hopen.run.rising,
    hticks.shown past⟩

section Rehearsal

open Rehearsal

/-- After the tick in which a handler is parked whose socket was dropped, one has begun,
streamed and ended. -/
theorem accounts_rehearsed :
    Balanced (dropped 2).past (dropped 2).controller ∧
    (handshakes (happenings (dropped 2).past)).length = 1 ∧
    outcomes (happenings (dropped 2).past) = ["distressed"] ∧
    shownSizes (happenings (dropped 2).past) = some (0, 0, 1) := by
  have hopen := dropped_open (n := 1) (by decide +kernel)
  have hruns :=
    Dialogue.perform_runs world ((tick 0).run (dropped 1).controller) (dropped 1).outside
  exact ⟨hopen.settles_accounts hruns, by decide +kernel, by decide +kernel, by decide +kernel⟩

end Rehearsal

end Controller

end ReplicaHandshake
