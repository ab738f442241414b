import ReplicaHandshake.Proofs.Controller.Presence
import ReplicaHandshake.Proofs.Controller.Routine

/-!
# The conduct of a controller

All that a controller does in a run are deeds of its house, from the start on and in every operation
(`Run.deeds`):  its handlers do one thing at a time, and it says and asks on nobody's behalf what is
formal (`Run.formal`).  So whatever every handler has when it begins, and keeps in its deeds,
everyone has in every run (`Run.everyone_of_deeds`).
-/

namespace ReplicaHandshake.Controller

open Handler Registry Ledger

variable {c c' : Controller} {entries past : List Entry} {now : Instant} {settings : Settings}

/-- Deeds of the house of a controller. -/
abbrev Deeds (c : Controller) (entries : List Entry) (c' : Controller) : Prop :=
  Way House.Deed c.house entries c'.house

theorem deeds_said {x : Happening} (hformal : x.IsFormal) : Deeds c [⟨none, x⟩] c :=
  .single (.speaks _ hformal)

/-! ### Instructions -/

theorem submit_deeds (i : Instruction) :
    Work.Records (submit i) c fun entries _ c' => Deeds c entries c' := by
  simp only [submit, Work.records_bind, Work.records_get, Work.records_modify, report_records,
    Work.records_pure, List.nil_append, List.append_nil]
  exact deeds_said (.instruction ..)

theorem submitAll_deeds (is : List Instruction) :
    Work.Records (submitAll is) c fun entries _ c' => Deeds c entries c' := by
  induction is generalizing c with
  | nil => exact Work.records_pure.2 (.refl _)
  | cons i rest ih =>
    simp only [submitAll, Work.records_bind]
    refine (submit_deeds i).mono ?_
    intro first accepted c₁ hfirst
    cases accepted with
    | true => exact ih.mono fun _ _ _ hrest => hfirst.trans hrest
    | false => simpa using hfirst

theorem CarriesOut.deeds {i : Instruction} (hcarries : CarriesOut now c i entries c')
    (hrest : c.registry.AtRest) :
    Deeds c entries c' := by
  cases hcarries with
  | invalid | active => exact deeds_said (.instruction ..)
  | @adds table did h hvalid _ hdoes =>
    have hcleared := clearDistressed_deed hrest table.tableName c.house
    generalize (c.registry.clearDistressed table.tableName).2 = r at hcleared ⊢
    have hbegun : House.Deed { c.house with handlers := r.handlers } (marked c.nextPeer did)
        { c.house with handlers := r.handlers ++ [h], nextPeer := c.nextPeer.next } :=
      .begins hvalid (hdoes.of_always new_begins)
    have hreorders :=
      House.reorders (s := { c.house with nextPeer := c.nextPeer.next }) (r.handlers_insert h)
    have hway := ((Way.single hcleared).tail hbegun).tail hreorders
    rw [List.nil_append, List.append_nil] at hway
    exact hway.tail (.speaks _ (.instruction ..))
  | @stops h did r hh hround =>
    have hround := stops_of_requests hrest hround
    exact Way.tail (hround.deeds (fun _ _ _ _ honly => deed_of_only honly .stops) c.house)
      (.speaks _ (.instruction ..))
  | forgets =>
    exact (Way.single (clearDistressed_deed hrest _ c.house)).tail (.speaks _ (.instruction ..))

theorem Carries.deeds {is : List Instruction} {more : List PeerId}
    (hcarries : Carries now c is entries more c') {asked : List PeerId}
    (hord : (c.ledger asked []).InOrder) : Deeds c entries c' := by
  induction hcarries generalizing asked with
  | done => exact .refl _
  | @next c _ _ i _ _ _ _ hruns _ ih =>
    have hcarried := carryOut_carriesOut hord now i _ _ hruns
    have hway := carryOut_way hord now i _ _ hruns
    exact (hcarried.deeds hord.atRest).trans (ih (inOrder_of_works hway hord))

/-! ### The rest of a tick -/

theorem hearAll_deeds {ds : List Disconnection} {asked : List PeerId}
    (hord : (c.ledger asked ds).InOrder) :
    Work.Records (hearAll ds) c fun entries _ c' => Deeds c entries c' := by
  induction ds generalizing c with
  | nil => exact Work.records_pure.2 (.refl _)
  | cons d rest ih =>
    simp only [hearAll, Work.records_bind]
    refine ((hear_way hord).and (hear_round hord)).mono ?_
    rintro first _ _ ⟨hway, r, hround, rfl⟩
    have hfirst : Deeds c first { c with registry := r } :=
      hround.deeds (fun _ _ _ _ honly => deed_of_only honly (.hears d.socket)) c.house
    exact (ih (inOrder_of_works hway hord)).mono fun _ _ _ hrest => hfirst.trans hrest

theorem drainDisconnections_deeds {asked : List PeerId} (hord : (c.ledger asked []).InOrder) :
    Work.Records drainDisconnections c fun entries _ c' => Deeds c entries c' := by
  refine drainDisconnections_hears.mono ?_
  rintro _ _ c' ⟨ds, told, rfl, hruns⟩
  have hfetches : Step (c.ledger asked []) [⟨none, .answered .fetchDisconnections ds⟩]
      (c.ledger asked ds) :=
    .fetches ds rfl
  exact (deeds_said (.fetches ds)).trans (hearAll_deeds (hfetches.inOrder hord) _ _ hruns)

theorem pollHandlers_deeds (hrest : c.registry.AtRest) :
    Work.Records (pollHandlers now) c fun entries _ c' => Deeds c entries c' := by
  simp only [pollHandlers, Work.records_bind, onRegistry_records, Work.records_pure,
    List.append_nil]
  refine (updateLive_round fun h _ => always_does (Handler.poll now) h).mono ?_
  intro entries _ r hround
  exact hround.deeds (fun h hh _ _ hdoes => .polled now (hrest.live h hh) hdoes) c.house

theorem promoteHandlers_deeds :
    Work.Records promoteHandlers c fun entries _ c' => Deeds c entries c' := by
  simp only [promoteHandlers, Work.records_bind, Work.records_get, Work.records_modify,
    Work.records_pure, List.append_nil]
  exact .single (promote_deed _ c.house)

theorem reap_deeds {asked : List PeerId} (hord : (c.ledger asked []).InOrder) :
    Work.Records (onRegistry reap) c fun entries _ c' => Deeds c entries c' := by
  refine (reap_reaps_registry hord).mono ?_
  rintro _ _ _ ⟨r, hreaps, rfl⟩
  exact hreaps.deeds c.house

theorem reportCounts_deeds :
    Work.Records reportCounts c fun entries _ c' => Deeds c entries c' := by
  simp only [reportCounts, Work.records_bind, Work.records_get, report_records, List.nil_append]
  exact (deeds_said (.handlerCounts ..)).trans (deeds_said (.pendingInstructions _))

theorem Ticks.deeds {more : List PeerId} {busy : Bool} (hticks : Ticks c now entries more busy c')
    (hord : c.registry.InOrder c.nextPeer) : Deeds c entries c' := by
  cases hticks with
  | intro hcarries hheard hpolled hpromoted hreaped hcounted =>
    have hord₀ : (ledger { c with queue := c.queue.cleared } [] []).InOrder := hord
    have hcarried : Deeds c _ _ := hcarries.deeds hord₀
    have hord₁ := inOrder_of_works (hcarries.way hord₀) hord₀
    have hord₂ := inOrder_of_works (drainDisconnections_way hord₁ _ _ hheard) hord₁
    have hord₃ := inOrder_of_works (pollHandlers_way hord₂ now _ _ hpolled) hord₂
    have hord₄ := inOrder_of_works (promoteHandlers_way _ [] _ _ hpromoted).1 hord₃
    have hheard := drainDisconnections_deeds hord₁ _ _ hheard
    have hpolled := pollHandlers_deeds hord₂.atRest _ _ hpolled
    have hpromoted := promoteHandlers_deeds _ _ hpromoted
    have hreaped := reap_deeds hord₄ _ _ hreaped
    have hcounted := reportCounts_deeds _ _ hcounted
    exact hcarried.trans (hheard.trans (hpolled.trans (hpromoted.trans (hreaped.trans hcounted))))

/-! ### Runs -/

theorem close_deeds (hord : c.registry.InOrder c.nextPeer) :
    Work.Records close c fun entries _ c' => Deeds c entries c' := by
  simp only [close, Dialogue.readClock, Work.records_bind, Work.records_lift, Work.records_modify,
    List.append_nil]
  have hledger : (c.ledger [] []).InOrder := hord
  refine ((stopAll_round hord.atRest).and (stopAll_way hledger)).mono ?_
  rintro _ _ c₁ ⟨⟨voluntary, r, -, hround, rfl⟩, hstops, hstopping⟩
  have hstopped : Deeds c _ { c with registry := r } := hround.deeds (fun _ _ _ _ => .stops) c.house
  have hord₁ := inOrder_of_way hstops hledger
  refine Dialogue.records_call.2 fun now => ?_
  refine (((pollHandlers_deeds hord₁.atRest).and (pollHandlers_way hord₁ now)).and
    (pollHandlers_stopping hord₁ hstopping now)).mono ?_
  rintro _ _ c₂ ⟨⟨hpolled, hpolls⟩, hstopping₂⟩
  have hord₂ := inOrder_of_works hpolls hord₁
  refine ((reap_deeds hord₂).and (reap_reaps_registry hord₂)).mono ?_
  rintro reaped _ _ ⟨hreaped, r', hreaps, rfl⟩
  have hforgets : House.Deed { c₂.house with handlers := r'.handlers } []
      { c₂.house with handlers := [] } := by
    refine .forgets r'.handlers (List.Perm.of_eq (List.append_nil _).symm) fun h hh => ?_
    obtain hh | hh := List.mem_append.1 hh
    · exact not_atWork_stopping (hstopping₂ h (hreaps.stays hord₂.live_peers hh).1)
    · exact not_atWork_of_distressed ((hreaps.atRest hord₂.atRest).distressed h hh)
  have hforgot := Way.tail hreaped hforgets
  rw [List.append_nil] at hforgot
  exact hstopped.trans ((deeds_said (.reads now)).trans (hpolled.trans hforgot))

theorem start_deeds (instanceId : InstanceId) (settings : Settings) :
    (start instanceId settings).Records fun entries r => ∀ c, r = .ok c →
      Way House.Deed (blank instanceId settings.frameBuffer).house entries c.house := by
  unfold start
  split
  · simp
  split
  · simp
  next queue _ =>
    simp only [Dialogue.records_bind]
    refine Dialogue.Records.mono
      (submitAll_deeds (c := { settings, instanceId, queue }) (settings.tables.map .add)) ?_
    rintro entries ⟨fitted, c⟩ hdeeds
    cases fitted with
    | false => simp
    | true =>
      simp only [Bool.not_true, Bool.false_eq_true, if_false]
      split
      · simp
      · simp only [Dialogue.pure_eq, Dialogue.records_done, Except.ok.injEq, List.append_nil]
        rintro _ rfl
        exact hdeeds

theorem instanceId_of_deeds {s s' : House} (hway : Way House.Deed s entries s') :
    s'.instanceId = s.instanceId := by
  induction hway with
  | refl => rfl
  | tail _ hdeed ih =>
    rw [← ih]
    cases hdeed <;> rfl

/-- All that a controller does in a run are deeds. -/
theorem Run.deeds (hrun : Run settings past c) :
    Way House.Deed (blank c.instanceId settings.frameBuffer).house past c.house := by
  have extend : ∀ {past entries : List Entry} {c c' : Controller},
      Way House.Deed (blank c.instanceId settings.frameBuffer).house past c.house →
      Deeds c entries c' →
      Way House.Deed (blank c'.instanceId settings.frameBuffer).house
        (past ++ entries) c'.house := by
    intro past entries c c' hway hmore
    have hsame : c'.instanceId = c.instanceId := instanceId_of_deeds hmore
    rw [hsame]
    exact hway.trans hmore
  induction hrun with
  | @start instanceId _ c hruns =>
    have hway := start_deeds instanceId settings _ _ hruns c rfl
    have hsame : c.instanceId = instanceId := instanceId_of_deeds hway
    rwa [hsame]
  | submit i _ hruns ih => exact extend ih (submit_deeds i _ _ hruns)
  | tick now hrun hruns ih =>
    obtain ⟨more, hticks⟩ := tick_iff.1 hruns
    exact extend ih (hticks.deeds hrun.inOrder)
  | close hrun hruns ih => exact extend ih (close_deeds hrun.inOrder _ _ hruns)

/-- What is said and asked in a run on nobody's behalf is formal. -/
theorem Run.formal (hrun : Run settings past c) {e : Entry} (he : e ∈ past)
    (hnone : e.peer = none) :
    e.happening.IsFormal := by
  have hdeeds : ∀ past s entries s', (∀ e ∈ past, e.peer = none → e.happening.IsFormal) →
      House.Deed s entries s' → ∀ e ∈ past ++ entries, e.peer = none → e.happening.IsFormal :=
    fun _ _ _ _ hpast hdeed => List.forall_mem_append.2 ⟨hpast, fun _ => hdeed.formal⟩
  have hall := hrun.deeds.invariant hdeeds (List.forall_mem_nil _)
  rw [List.nil_append] at hall
  exact hall e he hnone

/-- What every handler has when a controller begins it, and keeps in its deeds, everyone has
in every run. -/
theorem Run.everyone_of_deeds {P : TableSettings → List Happening → Handler → Prop}
    (hrun : Run settings past c)
    (hbegins : ∀ {peer : PeerId} {table : TableSettings} {timeout : Duration} {now : Instant}
      {hs : List Happening} {h : Handler}, table.validate = .ok () →
      Begins (new c.instanceId peer table settings.frameBuffer timeout now) hs h → P table hs h)
    (hdeed : ∀ {table : TableSettings} {past hs : List Happening} {h h' : Handler},
      Life table past h →
      P table past h → Handler.Deed h hs h' → P table (past ++ hs) h') :
        House.Everyone P past c.house :=
  House.everyone_of_deeds rfl hrun.deeds hbegins hdeed

end ReplicaHandshake.Controller
