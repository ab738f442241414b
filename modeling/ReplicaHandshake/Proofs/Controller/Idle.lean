import Mathlib.Data.List.Forall2
import ReplicaHandshake.Proofs.Controller.Performed
import ReplicaHandshake.Proofs.Handler.Idle

/-!
# Idle ticks

A tick says whether anything happened, and the program rests where it says that nothing did.  Such a
tick has carried out no instruction and fetched no disconnection; nothing was read, and the
multiplexer took nothing and let go of nothing; and the handlers are as they were before, in the
same lists (`Run.idle_ticks`).

One thing can happen all the same in a tick that says that nothing did.  In the midst of the handoff
the rest of the request for the stream is still to be written on the first connection; whether some
of it was written now the handoff does not say (`written_unsaid`).
-/

namespace ReplicaHandshake.Controller

open Handler Registry

variable {settings : Settings} {past entries : List Entry} {c c' : Controller}

/-! ### The parts of a tick -/

theorem forall₂_of_each {R : Handler → List Happening → Handler → Prop} {hs hs' : List Handler}
    (h : Each R hs entries hs') : List.Forall₂ (fun h h' => ∃ did, R h did h') hs hs' := by
  induction h with
  | nil => exact .nil
  | cons hR _ ih => exact .cons ⟨_, hR⟩ ih

theorem drainDisconnections_idle : Work.Records drainDisconnections c fun entries disconnected c' =>
    disconnected = false → c' = c ∧ entries = [⟨none, .answered .fetchDisconnections []⟩] := by
  simp only [drainDisconnections, Dialogue.fetchDisconnections, Work.records_bind,
    Work.records_lift, Work.records_pure, List.append_nil]
  refine Dialogue.records_call.2 fun ds => ?_
  cases ds with
  | nil => simp [hearAll]
  | cons d rest => exact fun _ _ _ => Bool.noConfusion

theorem pollHandlers_idles (hsound : ∀ h ∈ c.registry.live, h.Sound) (now : Instant) :
    Work.Records (pollHandlers now) c fun entries busy c' => busy = false →
      Round Idles c.registry entries c'.registry ∧ c' = { c with registry := c'.registry } := by
  simp only [pollHandlers, Work.records_bind, onRegistry_records, Work.records_pure,
    List.append_nil]
  refine (updateLive_round_of (A := fun busy => busy = false) fun h hh =>
    poll_idles (hsound h hh)).mono ?_
  intro entries busy r hround hidle
  refine ⟨hround ?_, trivial⟩
  simpa using hidle

theorem promoteHandlers_idle : Work.Records promoteHandlers c fun entries promoted c' =>
    promoted = false → entries = [] ∧ c' = c := by
  simp only [promoteHandlers, Work.records_bind, Work.records_get, Work.records_modify,
    Work.records_pure, promote, List.partition_eq_filter_filter, List.append_nil]
  intro hnone
  rw [Bool.not_eq_eq_eq_not, Bool.not_false, List.isEmpty_iff, List.filter_eq_nil_iff] at hnone
  have hall : c.registry.initializing.filter (not ∘ fun h => decide (h.phase = .streaming)) =
      c.registry.initializing :=
    List.filter_eq_self.2 fun h hh => by simpa using hnone h hh
  rw [hall, (List.filter_eq_nil_iff.2 hnone : _ = []), List.append_nil]
  exact ⟨trivial, rfl⟩

theorem reap_tells {r : Registry} :
    Work.Records reap r fun _ ended _ => ended = !r.drained.isEmpty := by
  simp only [reap, List.partition_eq_filter_filter, Work.records_bind, Work.records_get,
    Work.records_set, Work.records_pure, ← List.filter_append]
  exact fun _ _ _ => rfl

theorem eq_of_settles_nil {r r' : Registry} (h : Settles [] r entries r') :
    entries = [] ∧ r' = r := by
  refine ⟨h.entries, ?_⟩
  show Registry.mk r'.active r'.initializing r'.streaming r'.distressed r'.voluntary = r
  rw [h.active, h.initializing, h.streaming, h.distressed, h.voluntary]
  simp [parked]

theorem reap_idle (hpeers : (c.registry.live.map (·.peer)).Nodup) : Work.Records (onRegistry reap) c
    fun entries ended c' => ended = false → entries = [] ∧ c' = c := by
  rw [onRegistry_records]
  refine ((reap_reaps hpeers).and reap_tells).mono ?_
  rintro entries _ r ⟨hreaps, rfl⟩ hnone
  rw [Bool.not_eq_eq_eq_not, Bool.not_false, List.isEmpty_iff] at hnone
  have hkept : ∀ hs, hs ⊆ c.registry.live → hs.filter (fun h => !h.isDrained) = hs := fun hs hsub =>
    List.filter_eq_self.2 fun h hh => by simpa using List.filter_eq_nil_iff.1 hnone h (hsub hh)
  have hundrained : c.registry.undrained = c.registry := by
    rw [undrained, hkept _ (List.subset_append_left _ _), hkept _ (List.subset_append_right _ _)]
  rw [Reaps, hnone, hundrained] at hreaps
  obtain ⟨rfl, rfl⟩ := eq_of_settles_nil hreaps
  exact ⟨rfl, rfl⟩

/-! ### Ticks -/

theorem cleared_of_unasked (hpending : c.queue.pending = []) :
    { c with queue := c.queue.cleared } = c := by
  obtain ⟨_, _, ⟨_, _⟩, _⟩ := c
  cases hpending
  rfl

theorem Ticks.idle {now : Instant} {asked : List PeerId} {busy : Bool}
    (hticks : Ticks c now entries asked busy c') (hord : c.registry.InOrder c.nextPeer)
    (hidle : busy = false) :
    c.queue.pending = [] ∧ c' = { c with registry := c'.registry } ∧ ∃ polled,
      Round Idles c.registry polled c'.registry ∧ (∀ e ∈ entries, e ∈ polled ∨ Idle [e.happening]) ∧
      ∀ peer, history peer entries = history peer polled := by
  cases hticks with
  | @intro c₁ c₂ c₃ c₄ c₅ c₆ carried heard polled promoted reaped counted _ _ _ _ _ hcarries hheard
      hpolled hpromoted
      hreaped hcounted =>
    simp only [Bool.or_eq_false_iff, Bool.not_eq_eq_eq_not, Bool.not_false,
      List.isEmpty_iff] at hidle
    obtain ⟨⟨⟨⟨hpending, rfl⟩, rfl⟩, rfl⟩, rfl⟩ := hidle
    rw [hpending, cleared_of_unasked hpending] at hcarries
    cases hcarries
    have hheard : c₂ = c ∧ heard = _ := drainDisconnections_idle _ _ hheard rfl
    obtain ⟨rfl, rfl⟩ := hheard
    have hpolled : Round Idles c₂.registry polled c₃.registry ∧
        c₃ = { c₂ with registry := c₃.registry } :=
      pollHandlers_idles (fun h hh => (hord.atRest.live h hh).sound) now _ _ hpolled rfl
    obtain ⟨hround, hsame⟩ := hpolled
    have hpromoted : promoted = [] ∧ c₄ = c₃ := promoteHandlers_idle _ _ hpromoted rfl
    obtain ⟨rfl, rfl⟩ := hpromoted
    have hnodup := hord.live_peers
    rw [← hround.live.map_eq fun _ _ _ hidles => hidles.peer_eq] at hnodup
    have hreaped : reaped = [] ∧ c₅ = c₄ := reap_idle hnodup _ _ hreaped rfl
    obtain ⟨rfl, rfl⟩ := hreaped
    have hcounted : c' = c₅ ∧ ∀ e ∈ counted, ∃ m, e = ⟨none, .reported m⟩ :=
      reportCounts_reports _ _ hcounted
    obtain ⟨rfl, hcounts⟩ := hcounted
    refine ⟨hpending, hsame, polled, hround, fun e he => ?_, fun peer => ?_⟩
    · simp only [List.nil_append, List.mem_append, List.mem_singleton] at he
      obtain rfl | he | he := he
      · exact .inr (idle_single ⟨rfl, rfl, rfl, rfl, rfl⟩ rfl)
      · exact .inl he
      · obtain ⟨m, rfl⟩ := hcounts e he
        exact .inr (idle_single (Happening.isInert_said _) rfl)
    · have hfetched : history peer [⟨none, .answered .fetchDisconnections []⟩] = [] := by
        simp [history]
      simp only [history_append, hfetched, history_nobody hcounts, List.append_nil, List.nil_append]

theorem each_idles {hs hs' : List Handler} (h : Each Idles hs entries hs') :
    ∀ e ∈ entries, e.happening.IsInert ∧
    (e.happening.written ≠ [] → ∃ h ∈ hs, e.peer = some h.peer ∧
      ∃ given d left, h.Hands given d left ∧ d.outbound.pending ≠ []) := by
  induction h with
  | nil => simp
  | @cons h h' did rest rest' entries hidles _ ih =>
    intro e he
    obtain he | he := List.mem_append.1 he
    · obtain ⟨x, hx, rfl⟩ := List.mem_map.1 he
      refine ⟨hidles.isInert x hx, fun hwritten => ⟨h, List.mem_cons_self, rfl, ?_⟩⟩
      have hsome : writtenBytes did ≠ [] :=
        fun hnone => hwritten (List.flatMap_eq_nil_iff.1 hnone x hx)
      obtain ⟨given, d, left, hhands, hprefix⟩ := hidles.hands hsome
      exact ⟨given, d, left, hhands, fun hnone => hsome (by simpa [hnone] using hprefix)⟩
    · obtain ⟨hinert, hwrites⟩ := ih e he
      refine ⟨hinert, fun hwritten => ?_⟩
      obtain ⟨x, hx, hhands⟩ := hwrites hwritten
      exact ⟨x, List.mem_cons_of_mem h hx, hhands⟩

theorem eq_of_idles {hs hs' : List Handler} (h : Each Idles hs entries hs')
    (hphase : ∀ h ∈ hs, h.phase ≠ .handingOff) :
    hs' = hs := by
  induction h with
  | nil => rfl
  | cons hidles _ ih =>
    obtain ⟨hh, hrest⟩ := List.forall_mem_cons.1 hphase
    cases hidles with
    | rests => rw [ih hrest]
    | lingers hhands => exact absurd hhands.1 hh

/-- A tick in which nothing happened has found no instructions and no disconnections.  Nothing was
read in it, and the multiplexer took nothing and let go of nothing.  All is as it was before, except
that a handler in the midst of the handoff may have written bytes on the connection that is to be
handed over next, and may have offered its socket in vain. -/
theorem Run.idle_ticks (hrun : Run settings past c) {now : Instant}
    (hruns : ((Controller.tick now).run c).Runs entries (false, c')) :
    c.queue.pending = [] ∧
    (∀ e ∈ entries, e.happening.IsInert ∧ (e.happening.written ≠ [] → ∃ h ∈ c.registry.initializing,
      e.peer = some h.peer ∧ ∃ given d left, h.Hands given d left ∧ d.outbound.pending ≠ [])) ∧
    ∃ initializing, c' = { c with registry := { c.registry with initializing } } ∧
      List.Forall₂ (fun h h' => Handler.Idles h (history h.peer entries) h') c.registry.initializing
        initializing := by
  obtain ⟨asked, hticks⟩ := tick_iff.1 hruns
  have hord := hrun.inOrder
  obtain ⟨hpending, hsame, polled, hround, hentries, hhistory⟩ := hticks.idle hord rfl
  have hthrough : ∀ h ∈ c.registry.streaming, h.phase ≠ .handingOff := by
    intro h hh
    obtain hphase | hphase := hord.divided h hh <;> rw [hphase] <;> decide
  refine ⟨hpending, fun e he => ?_, c'.registry.initializing, ?_, ?_⟩
  · obtain he | hidle := hentries e he
    · obtain ⟨hinert, hwrites⟩ := each_idles hround.live e he
      refine ⟨hinert, fun hwritten => ?_⟩
      obtain ⟨h, hh, hpeer, given, d, left, hhands, hsome⟩ := hwrites hwritten
      have hinitializing := (List.mem_append.1 hh).resolve_right fun hh => hthrough h hh hhands.1
      exact ⟨h, hinitializing, hpeer, given, d, left, hhands, hsome⟩
    · refine ⟨hidle.1 _ (List.mem_singleton.2 rfl), fun hwritten => absurd ?_ hwritten⟩
      simpa [writtenBytes] using hidle.2
  · obtain ⟨first, second, rfl, -, hstreaming⟩ := hround.parts
    have hlists : c'.registry = { c.registry with initializing := c'.registry.initializing } := by
      show Registry.mk c'.registry.active c'.registry.initializing c'.registry.streaming
        c'.registry.distressed
        c'.registry.voluntary = _
      rw [hround.active, hround.distressed, hround.voluntary, eq_of_idles hstreaming hthrough]
    rw [← hlists]
    exact hsame
  · obtain ⟨first, second, rfl, hinitializing, hstreaming⟩ := hround.parts
    have hpeers := hord.live_peers
    rw [live, List.map_append, List.nodup_append] at hpeers
    have hown : Each (fun h _ h' => Idles h (history h.peer entries) h') c.registry.initializing
        first
        c'.registry.initializing := by
      refine (hinitializing.own hpeers.1).mono ?_
      rintro h hh did h' ⟨hidles, rfl⟩
      have hothers : history h.peer second = [] := hstreaming.history_other fun x hx hsame =>
        hpeers.2.2 _ (List.mem_map_of_mem hh) _ (List.mem_map_of_mem hx) hsame.symm
      rwa [hhistory, history_append, hothers, List.append_nil]
    refine (forall₂_of_each hown).imp fun h h' hown => ?_
    obtain ⟨_, hidles⟩ := hown
    exact hidles

section Rehearsal

open Rehearsal

/-- The first of two masters has started the stream before it has read the request for it, of which
it takes one byte later on. -/
def haltingWorld : World where
  network :=
    { masters :=
        [(1,
            { inbound := [.segment (Frame.bytes (.tableInfo (rehearsedInfo 5)) ++
                Frame.bytes (.startOfReplicationStream rehearsedStart))]
              writes := [.accept 100, .fail (.bare .wouldBlock), .fail (.bare .wouldBlock),
                  .fail (.bare .wouldBlock),
                .accept 1, .fail (.bare .wouldBlock)] }),
          (2, { inbound := [.segment (Frame.bytes (.tableInfo (rehearsedInfo 9)))] })] }

def haltingOpening : Performance World :=
  (Performance.start? world 0 .small haltingWorld).get rfl

/-- The table is added, and the controller makes so many ticks. -/
def halting (n : Nat) : Performance World :=
  (haltingOpening.goOn world (submit (.add rehearsedTable))).ticks world 0 n

theorem halting_run (n : Nat) : Run .small (halting n).past (halting n).controller := by
  have hopening : Performance.start? world 0 .small haltingWorld = some haltingOpening :=
    (Option.some_get _).symm
  exact Performance.run_ticks (Performance.run_submit (Performance.of_start? hopening) _) 0 n

/-- The tick in which the first master takes one byte. -/
def haltingTick : (Bool × Controller) × World × List Entry :=
  ((tick 0).run (halting 2).controller).perform world (halting 2).outside

theorem haltingTick_runs :
    ((tick 0).run (halting 2).controller).Runs haltingTick.2.2 (false, haltingTick.1.2) := by
  have hfalse : haltingTick.1.1 = false := by decide +kernel
  rw [← hfalse]
  exact Dialogue.perform_runs world ((tick 0).run (halting 2).controller) (halting 2).outside

/-- A tick that says that nothing happened, in which the handler is in the midst of the handoff. -/
theorem idle_rehearsed :
    (halting 2).controller.queue.pending = [] ∧ (∀ e ∈ haltingTick.2.2, e.happening.IsInert) ∧
    ∃ h ∈ (halting 2).controller.registry.initializing, ∃ given d left, h.Hands given d left ∧
      d.outbound.pending ≠ [] := by
  obtain ⟨hpending, hentries, -⟩ := (halting_run 2).idle_ticks haltingTick_runs
  refine ⟨hpending, fun e he => (hentries e he).1, ?_⟩
  have hsome : haltingTick.2.2.any (fun e => e.happening.written ≠ []) = true := by decide +kernel
  obtain ⟨e, he, hwritten⟩ := List.any_eq_true.1 hsome
  obtain ⟨h, hh, -, hhands⟩ := (hentries e he).2 (by simpa using hwritten)
  exact ⟨h, hh, hhands⟩

/-- A tick says that nothing happened although the master has taken a byte of the request
for the stream. -/
theorem written_unsaid : ∃ entries c', Run .small (halting 2).past (halting 2).controller ∧
    ((tick 0).run (halting 2).controller).Runs entries (false, c') ∧
      (writtenBytes (happenings entries)).length = 1 :=
  ⟨haltingTick.2.2, haltingTick.1.2, halting_run 2, haltingTick_runs, by decide +kernel⟩

end Rehearsal

end ReplicaHandshake.Controller
