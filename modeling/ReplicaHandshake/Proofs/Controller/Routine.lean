import ReplicaHandshake.Proofs.Controller.Disconnections
import ReplicaHandshake.Proofs.Controller.Instructed

/-!
# Polls and routine

What handlers do of themselves they do when they are polled.  All else that happens in a tick is
routine: handlers begin, are stopped on request, hear of disconnections and come to their end, and
the controller reports.  `Routine` collects what has to be so of some kind of happening that it is
no routine; then it happens only where handlers are polled (`Ticks.polls`), and each time where the
controller visits the handler of its peer (`updateAll_visits`).
-/

namespace ReplicaHandshake

open Handler Registry Ledger

variable {entries : List Entry}

/-! ### Rounds -/

section Each

variable {α : Type} {R : Handler → List Happening → Handler → Prop} {P : Happening → Prop}
  {hs hs' : List Handler}

/-- What is so of all that each handler does, is so of all that happens. -/
theorem Each.forall_happenings (heach : Each R hs entries hs')
    (hdid : ∀ h ∈ hs, ∀ did h', R h did h' → ∀ x ∈ did, P x) : ∀ e ∈ entries, P e.happening := by
  induction heach with
  | nil => exact List.forall_mem_nil _
  | cons hR _ ih =>
    obtain ⟨hh, hrest⟩ := List.forall_mem_cons.1 hdid
    refine List.forall_mem_append.2 ⟨List.forall_mem_map.2 (hh _ _ hR), ih hrest⟩

theorem updateAll_cons_iff {work : Work Handler α} {h : Handler} {r : List α × List Handler} :
    (updateAll work (h :: hs)).Runs entries r ↔ ∃ first a h' second s, entries = first ++ second ∧
      ((work.run h).onBehalfOf h.peer).Runs first (a, h') ∧ (updateAll work hs).Runs second s ∧
      r = (a :: s.1, h' :: s.2) := by
  constructor
  · intro hruns
    obtain ⟨first, ⟨a, h'⟩, rest, rfl, hfirst, hrest⟩ := Dialogue.runs_bind.1 hruns
    obtain ⟨second, s, last, rfl, hsecond, hlast⟩ := Dialogue.runs_bind.1 hrest
    obtain ⟨rfl, rfl⟩ := Dialogue.runs_done.1 hlast
    rw [List.append_nil]
    exact ⟨first, a, h', second, s, rfl, hfirst, hsecond, rfl⟩
  · rintro ⟨first, a, h', second, s, rfl, hfirst, hsecond, rfl⟩
    refine Dialogue.runs_bind.2 ⟨first, _, second, rfl, hfirst, ?_⟩
    exact Dialogue.runs_bind.2 ⟨second, s, [], (List.append_nil _).symm, hsecond, .done _⟩

theorem updateAll_append {work : Work Handler α} {front rest : List Handler}
    {first second : List Entry} {r r' : List α × List Handler}
    (hfront : (updateAll work front).Runs first r) (hrest : (updateAll work rest).Runs second r') :
    (updateAll work (front ++ rest)).Runs (first ++ second) (r.1 ++ r'.1, r.2 ++ r'.2) := by
  induction front generalizing first r with
  | nil =>
    obtain ⟨rfl, rfl⟩ := Dialogue.runs_done.1 hfront
    exact hrest
  | cons h front ih =>
    obtain ⟨did, a, h', told, s, rfl, hdid, htold, rfl⟩ := updateAll_cons_iff.1 hfront
    exact updateAll_cons_iff.2 ⟨did, a, h', _, _, List.append_assoc .., hdid, ih htold, rfl⟩

/-- Whatever happens when handlers work, happens in the work of one of them, after those before
it have worked. -/
theorem updateAll_visits {work : Work Handler α} : (updateAll work hs).Records fun entries _ =>
    ∀ e ∈ entries, ∃ before h after first r did h', hs = before ++ h :: after ∧
      (updateAll work before).Runs first r ∧ Does work h did h' ∧
      first ++ marked h.peer did <+: entries ∧
      e ∈ marked h.peer did := by
  induction hs with
  | nil => exact Dialogue.records_done.2 (List.forall_mem_nil _)
  | cons h rest ih =>
    intro entries r hruns e he
    obtain ⟨told, a, h', second, s, rfl, htold, hsecond, rfl⟩ := updateAll_cons_iff.1 hruns
    obtain he | he := List.mem_append.1 he
    · obtain ⟨plain, hplain, rfl⟩ := Dialogue.runs_onBehalfOf htold
      exact ⟨[], h, rest, [], _, _, h', rfl, .done _, ⟨plain, a, hplain, rfl⟩,
        List.prefix_append _ _, he⟩
    · obtain ⟨before, x, after, first, r, did, x', rfl, hfirst, hdoes, hleads, he⟩ :=
        ih second s hsecond e he
      refine ⟨h :: before, x, after, _, _, did, x', rfl,
        updateAll_cons_iff.2 ⟨told, a, h', _, _, rfl, htold, hfirst, rfl⟩,
        hdoes, ?_, he⟩
      rw [List.append_assoc]
      exact (List.prefix_append_right_inj _).2 hleads

end Each

/-! ### Routine -/

/-- What is so of all that happens besides polls. -/
structure Routine (P : Happening → Prop) : Prop where
  begins : ∀ {instanceId : InstanceId} {peer : PeerId} {table : TableSettings} {frameBuffer : Nat}
    {timeout : Duration}
    {now : Instant} {h : Handler} {hs : List Happening},
    Begins (new instanceId peer table frameBuffer timeout now) hs h → ∀ x ∈ hs, P x
  stops : ∀ {h h' : Handler} {hs : List Happening}, Stops h hs h' → ∀ x ∈ hs, P x
  hears : ∀ {socket : SocketId} {h h' : Handler} {hs : List Happening}, Hears socket h hs h' →
    ∀ x ∈ hs, P x
  ends : ∀ (h : Handler) {last : Phase}, last.isTerminal → ∀ x ∈ endings h last, P x
  instructed : ∀ kind outcome, P (.reported (.instruction kind outcome))
  counted : ∀ initializing streaming distressed,
    P (.reported (.handlerCounts initializing streaming distressed))
  waiting : ∀ n, P (.reported (.pendingInstructions n))

variable {P : Happening → Prop}

theorem Registry.isTerminal_verdict (r : Registry) (h : Handler) : (r.verdict h).isTerminal := by
  unfold verdict
  split <;> rfl

theorem Registry.Reaps.routine {r r' : Registry} (hreaps : Reaps r entries r') (hP : Routine P) :
    ∀ e ∈ entries, P e.happening := by
  refine hreaps.each.forall_happenings ?_
  rintro h - _ _ ⟨rfl, -⟩
  exact hP.ends h (r.isTerminal_verdict h)

namespace Controller

variable {c c' : Controller} {now : Instant} {asked more : List PeerId}

theorem CarriesOut.routine {i : Instruction} (hcarries : CarriesOut now c i entries c')
    (hrest : c.registry.AtRest) (hP : Routine P) : ∀ e ∈ entries, P e.happening := by
  have hsaid : ∀ kind outcome, ∀ e ∈ [Entry.mk none (.reported (.instruction kind outcome))],
      P e.happening :=
    fun kind outcome => List.forall_mem_singleton.2 (hP.instructed kind outcome)
  cases hcarries with
  | invalid | active | forgets => exact hsaid _ _
  | adds _ _ hdoes =>
    have hbegins := hdoes.of_always new_begins
    exact List.forall_mem_append.2 ⟨List.forall_mem_map.2 (hP.begins hbegins), hsaid _ _⟩
  | stops _ hround =>
    have hround := stops_of_requests hrest hround
    refine List.forall_mem_append.2 ⟨hround.live.forall_happenings fun h _ did h' honly =>
      ?_, hsaid _ _⟩
    exact honly.forall_happenings hP.stops

theorem Carries.routine {is : List Instruction} (hcarries : Carries now c is entries more c')
    (hord : (c.ledger asked []).InOrder) (hP : Routine P) : ∀ e ∈ entries, P e.happening := by
  induction hcarries generalizing asked with
  | done => exact List.forall_mem_nil _
  | @next c _ _ i _ _ _ _ hruns _ ih =>
    have hway := carryOut_way hord now i _ _ hruns
    have hcarried := carryOut_carriesOut hord now i _ _ hruns
    exact List.forall_mem_append.2
      ⟨hcarried.routine hord.atRest hP, ih (inOrder_of_works hway hord)⟩

theorem hearAll_routine {ds : List Disconnection} (hord : (c.ledger asked ds).InOrder)
    (hP : Routine P) :
    Work.Records (hearAll ds) c fun entries _ _ => ∀ e ∈ entries, P e.happening := by
  induction ds generalizing c with
  | nil => exact Work.records_pure.2 (List.forall_mem_nil _)
  | cons d rest ih =>
    simp only [hearAll, Work.records_bind]
    refine ((hear_way hord).and (hear_round hord)).mono ?_
    rintro first _ c₁ ⟨hway, r, hround, rfl⟩
    have hfirst : ∀ e ∈ first, P e.happening :=
      hround.live.forall_happenings fun _ _ _ _ honly => honly.forall_happenings hP.hears
    exact (ih (inOrder_of_works hway hord)).mono fun second _ _ hsecond =>
      List.forall_mem_append.2 ⟨hfirst, hsecond⟩

theorem drainDisconnections_routine (hord : (c.ledger asked []).InOrder) (hP : Routine P) :
    Work.Records drainDisconnections c fun entries _ _ => ∃ ds told,
      entries = ⟨none, .answered .fetchDisconnections ds⟩ :: told ∧ ∀ e ∈ told, P e.happening := by
  refine drainDisconnections_hears.mono ?_
  rintro _ _ _ ⟨ds, told, rfl, hruns⟩
  have hfetches : Step (c.ledger asked []) [⟨none, .answered .fetchDisconnections ds⟩]
      (c.ledger asked ds) :=
    .fetches ds rfl
  exact ⟨ds, told, rfl, hearAll_routine (hfetches.inOrder hord) hP _ _ hruns⟩

theorem reportCounts_routine (hP : Routine P) :
    Work.Records reportCounts c fun entries _ _ => ∀ e ∈ entries, P e.happening := by
  simp only [reportCounts, Work.records_bind, Work.records_get, report_records, List.nil_append]
  exact List.forall_mem_append.2
    ⟨List.forall_mem_singleton.2 (hP.counted _ _ _), List.forall_mem_singleton.2 (hP.waiting _)⟩

theorem promoteHandlers_silent :
    Work.Records promoteHandlers c fun entries _ _ => entries = [] := by
  simp only [promoteHandlers, Work.records_bind, Work.records_get, Work.records_modify,
    Work.records_pure, List.append_nil]

/-! ### Polls -/

/-- Whatever happens when handlers are polled, happens in a poll of one of them, after those before
it were polled. -/
theorem pollHandlers_visits : Work.Records (pollHandlers now) c fun entries _ _ => ∀ e ∈ entries,
    ∃ before h after first r did h', c.registry.live = before ++ h :: after ∧
      (updateAll (Handler.poll now) before).Runs first r ∧ Does (Handler.poll now) h did h' ∧
      first ++ marked h.peer did <+: entries ∧ e ∈ marked h.peer did := by
  simp only [pollHandlers, onRegistry_records, Work.records_bind, updateLive, Work.records_get,
    Work.records_lift, Work.records_set, Work.records_pure, List.nil_append, List.append_nil]
  intro first r hfirst second r' hsecond
  exact updateAll_visits _ _ (updateAll_append hfirst hsecond)

/-- What is no routine happens in a tick only where handlers are polled. -/
theorem Ticks.polls {busy : Bool} (hticks : Ticks c now entries more busy c')
    (hord : c.registry.InOrder c.nextPeer) (hP : Routine P)
    (hfetched : ∀ ds, P (.answered .fetchDisconnections ds)) {e : Entry} (he : e ∈ entries)
    (hnot : ¬P e.happening) :
    ∃ h first did h', c.Visits now first h ∧ Does (Handler.poll now) h did h' ∧
      first ++ marked h.peer did <+: entries ∧ e ∈ marked h.peer did := by
  cases hticks with
  | @intro c₁ c₂ c₃ c₄ c₅ _ carried heard polled promoted reaped counted _ _ _ _ _ hcarries hheard
      hpolled hpromoted
      hreaped hcounted =>
    have hord' : (ledger { c with queue := c.queue.cleared } [] []).InOrder := hord
    have hcarried := hcarries.routine hord' hP
    have hord₁ := inOrder_of_works (hcarries.way hord') hord'
    obtain ⟨ds, told, rfl, htold⟩ := drainDisconnections_routine hord₁ hP _ _ hheard
    have hord₂ := inOrder_of_works (drainDisconnections_way hord₁ _ _ hheard) hord₁
    have hord₃ := inOrder_of_works (pollHandlers_way hord₂ now _ _ hpolled) hord₂
    have hord₄ := inOrder_of_works (promoteHandlers_way _ [] _ _ hpromoted).1 hord₃
    obtain rfl := promoteHandlers_silent _ _ hpromoted
    obtain ⟨r, hreaps, -⟩ := reap_reaps_registry hord₄ _ _ hreaped
    have hcounted := reportCounts_routine hP _ _ hcounted
    simp only [List.mem_append, List.mem_cons, List.not_mem_nil, false_or] at he
    obtain he | (rfl | he) | he | he | he := he
    · exact absurd (hcarried e he) hnot
    · exact absurd (hfetched ds) hnot
    · exact absurd (htold e he) hnot
    · obtain ⟨before, h, after, first, s, did, h', hlive, hfirst, hdoes, hleads, he⟩ :=
        pollHandlers_visits _ _ hpolled e he
      have hreaches : c.Reaches now
          (carried ++ ⟨none, .answered .fetchDisconnections ds⟩ :: told) c₂ :=
        .tick (drainInstructions_iff.2 ⟨rfl, carries_iff.2 ⟨_, hcarries⟩⟩) hheard
      refine ⟨h, _, did, h', ⟨c₂, before, after, _, first, s, hreaches, hlive, hfirst, rfl⟩,
        hdoes, ?_, he⟩
      rw [List.append_assoc, ← List.append_assoc carried]
      exact (List.prefix_append_right_inj _).2 (hleads.trans (List.prefix_append _ _))
    · exact absurd (hreaps.routine hP e he) hnot
    · exact absurd (hcounted e he) hnot

end Controller

end ReplicaHandshake
