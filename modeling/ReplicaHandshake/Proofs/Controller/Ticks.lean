import ReplicaHandshake.Proofs.Controller.Order

/-!
# Operations of a controller

Whatever is done with a controller whose registry is in order comes to steps of its ledger
(`submit_way`, `carryOut_way`, `Ticks.way`, `close_way`, `start_way`).

A tick can be taken apart: `Controller.Carries` says that instructions are carried out one after the
other, and which live handlers these ask to stop, and `Controller.Ticks` says the same of a tick.
-/

namespace ReplicaHandshake.Controller

open Handler Registry Ledger

variable {c c' : Controller} {α : Type} {asked : List PeerId} {entries : List Entry}

/-- A controller as far as its handlers are concerned. -/
def ledger (c : Controller) (asked : List PeerId) (waiting : List Disconnection) : Ledger :=
  ⟨c.registry, c.nextPeer, c.instanceId, c.settings.frameBuffer, asked, waiting⟩

@[simp] theorem onRegistry_records {work : Work Registry α}
    {post : List Entry → α → Controller → Prop} :
    Work.Records (onRegistry work) c post ↔
      Work.Records work c.registry fun entries a r => post entries a { c with registry := r } := by
  simp only [onRegistry, Work.records_bind, Work.records_get, Work.records_lift,
    Work.records_modify, Work.records_pure, List.nil_append, List.append_nil]
  rfl

theorem report_records {m : Metric} {post : List Entry → Unit → Controller → Prop} :
    Work.Records (report m : Dialogue Unit) c post ↔ post [⟨none, .reported m⟩] () c := by
  simp [report]

/-! ### Instructions -/

/-- To submit an instruction touches no handler. -/
theorem submit_way (i : Instruction) (asked : List PeerId) (waiting : List Disconnection) :
    Work.Records (submit i) c fun entries _ c' =>
      c'.ledger asked waiting = c.ledger asked waiting ∧
        Way Step (c.ledger asked waiting) entries (c.ledger asked waiting) := by
  simp only [submit, Work.records_bind, Work.records_get, Work.records_modify, report_records,
    Work.records_pure, List.nil_append, List.append_nil]
  exact ⟨rfl, .single (.reports _ _)⟩

theorem addTable_way (table : TableSettings) (now : Instant) (asked : List PeerId)
    (waiting : List Disconnection) :
    Work.Records (addTable table now) c fun entries _ c' =>
      Way Step (c.ledger asked waiting) entries (c'.ledger asked waiting) := by
  have hnothing : Way Step (c.ledger asked waiting) [] (c.ledger asked waiting) := .refl _
  simp only [addTable, Work.records_bind, Work.records_get, List.nil_append]
  cases hvalid : table.validate with
  | error => simpa using hnothing
  | ok =>
    simp only
    split
    · simpa using hnothing
    next hinactive =>
      rw [Bool.not_eq_true] at hinactive
      simp only [Work.records_bind, Work.records_set, Work.records_lift, Work.records_modify,
        Work.records_pure, List.nil_append, List.append_nil]
      refine Dialogue.Records.mono (new_begins.records c.nextPeer) ?_
      rintro _ ⟨_, h⟩ ⟨hs, rfl, hbegins⟩
      exact .single (.adds (b := c.ledger asked waiting) hvalid hinactive hbegins)

/-- The live handlers that an instruction asks to stop. -/
def asks (c : Controller) : Instruction → List PeerId
  | .add _ => []
  | .remove tableName => (c.registry.live.filter (·.tableName = tableName)).map (·.peer)

/-- What a key picks is one handler, where no two have the same one. -/
theorem filter_of_nodup {κ : Type} [DecidableEq κ] {key : Handler → κ} {hs : List Handler}
    (hnodup : (hs.map key).Nodup) {h : Handler} (hh : h ∈ hs) :
    hs.filter (key · = key h) = [h] := by
  induction hs with
  | nil => cases hh
  | cons x rest ih =>
    rw [List.map_cons, List.nodup_cons] at hnodup
    obtain rfl | hh := List.mem_cons.1 hh
    · rw [List.filter_cons, if_pos (decide_eq_true rfl), List.filter_eq_nil_iff.2]
      intro y hy hsame
      exact hnodup.1 (of_decide_eq_true hsame ▸ List.mem_map_of_mem hy)
    · rw [List.filter_cons_of_neg, ih hnodup.2 hh]
      intro hsame
      exact hnodup.1 (of_decide_eq_true hsame ▸ List.mem_map_of_mem hh)

/-- A live handler that is asked to stop does so, and says who it is. -/
theorem stopOnRequest_stops {h : Handler} (hlive : h.phase.isLive) :
    Work.Always stopOnRequest h fun did peer h' => Stops h did h' ∧ peer = h.peer := by
  simp only [stopOnRequest, Work.always_bind, Work.always_get, Work.always_pure, List.append_nil]
  exact (stop_stops hlive).mono fun did _ h' hstops => ⟨hstops, (stops_behaves.name hstops).1⟩

theorem removeTable_way {waiting : List Disconnection} (hord : (c.ledger asked waiting).InOrder)
    (tableName : String) :
    Work.Records (removeTable tableName) c fun entries _ c' =>
      Way Step (c.ledger asked waiting) entries
        (c'.ledger (asked ++ c.asks (.remove tableName)) waiting) := by
  have hwork : ∀ h ∈ c.registry.live, Work.Always stopOnRequest h fun did peer h' =>
      Stops h did h' ∧ peer = h.peer :=
    fun h hh => stopOnRequest_stops (hord.atRest.live h hh).live
  have hone := pairwise_of_nodup hord.live_names tableName
  simp only [removeTable, Work.records_bind, onRegistry_records]
  refine (updateLive?_round hwork hone).mono ?_
  rintro entries stopped r ⟨hround, hfound⟩
  cases stopped with
  | some peer =>
    obtain ⟨h, hh, hname, rfl⟩ := hfound
    obtain rfl := of_decide_eq_true hname
    have hone : c.registry.live.filter (·.tableName = h.tableName) = [h] :=
      filter_of_nodup hord.live_names hh
    have hasks : c.asks (.remove h.tableName) = [h.peer] := by
      rw [asks, hone, List.map_cons, List.map_nil]
    rw [hasks]
    simp only [Work.records_bind, Work.records_modify, Work.records_pure, List.append_nil]
    exact .single (.stops (b := c.ledger asked waiting) hh hround)
  | none =>
    have hnone : ∀ h ∈ c.registry.live, h.tableName ≠ tableName :=
      fun h hh heq => hfound h hh (decide_eq_true heq)
    have hasks : c.asks (.remove tableName) = [] := by
      rw [asks, List.filter_eq_nil_iff.2 hfound, List.map_nil]
    obtain ⟨rfl, rfl⟩ := hround.eq_of_none hfound
    rw [hasks, List.append_nil]
    simp only [Work.records_bind, Work.records_get, Work.records_modify, Work.records_pure,
      List.append_nil]
    exact .single (.forgets (b := c.ledger asked waiting) tableName hnone)

theorem carryOut_way (hord : (c.ledger asked []).InOrder) (now : Instant) (i : Instruction) :
    Work.Records (carryOut now i) c fun entries _ c' =>
      Way Step (c.ledger asked []) entries (c'.ledger (asked ++ c.asks i) []) := by
  cases i with
  | add table =>
    simp only [carryOut, Work.records_bind, report_records, asks, List.append_nil]
    exact (addTable_way table now asked []).mono fun _ _ _ hway => hway.tail (.reports _ _)
  | remove tableName =>
    simp only [carryOut, Work.records_bind, report_records]
    exact (removeTable_way hord tableName).mono fun _ _ _ hway => hway.tail (.reports _ _)

/-- Instructions are carried out in order, and ask these live handlers to stop. -/
inductive Carries (now : Instant) :
    Controller → List Instruction → List Entry → List PeerId → Controller → Prop where
  | done (c : Controller) : Carries now c [] [] [] c
  | next {c c₁ c' : Controller} {i : Instruction} {rest : List Instruction}
      {first second : List Entry} {asked : List PeerId} :
      ((carryOut now i).run c).Runs first ((), c₁) → Carries now c₁ rest second asked c' →
      Carries now c (i :: rest) (first ++ second) (c.asks i ++ asked) c'

theorem carries_iff {now : Instant} {is : List Instruction} :
    ((carryOutAll now is).run c).Runs entries ((), c') ↔
      ∃ asked, Carries now c is entries asked c' := by
  induction is generalizing c entries with
  | nil =>
    show Dialogue.Runs (.done ((), c)) entries ((), c') ↔ _
    rw [Dialogue.runs_done]
    constructor
    · rintro ⟨rfl, heq⟩
      cases heq
      exact ⟨[], .done _⟩
    · rintro ⟨_, hcarries⟩
      cases hcarries
      exact ⟨rfl, rfl⟩
  | cons i rest ih =>
    rw [carryOutAll, Work.runs_bind]
    constructor
    · rintro ⟨first, _, c₁, second, rfl, hfirst, hsecond⟩
      obtain ⟨asked, hcarries⟩ := ih.1 hsecond
      exact ⟨_, .next hfirst hcarries⟩
    · rintro ⟨_, hcarries⟩
      cases hcarries with
      | next hfirst hrest => exact ⟨_, (), _, _, rfl, hfirst, ih.2 ⟨_, hrest⟩⟩

theorem Carries.way {now : Instant} {is : List Instruction} {more : List PeerId}
    (hcarries : Carries now c is entries more c') (hord : (c.ledger asked []).InOrder) :
    Way Step (c.ledger asked []) entries (c'.ledger (asked ++ more) []) := by
  induction hcarries generalizing asked with
  | done =>
    rw [List.append_nil]
    exact .refl _
  | @next _ _ _ i _ _ _ _ hruns _ ih =>
    have hway := carryOut_way hord now i _ _ hruns
    have hord' := inOrder_of_works hway hord
    rw [← List.append_assoc]
    exact hway.trans (ih hord')

/-! ### Disconnections -/

/-- The live handler of its peer hears of a disconnection, and no other one. -/
theorem hear_round {d : Disconnection} (hord : c.registry.InOrder c.nextPeer) :
    Work.Records (hear d) c fun entries _ c' => ∃ r,
      Round (Only (·.peer = d.peer) (Hears d.socket)) c.registry entries r ∧
        c' = { c with registry := r } := by
  have hwork : ∀ h ∈ c.registry.live, Work.Always (onDisconnect d.socket) h fun did _ h' =>
      Hears d.socket h did h' ∧ True := fun h hh =>
    (onDisconnect_hears (hord.atRest.live h hh).live).mono fun _ _ _ hhears => ⟨hhears, trivial⟩
  simp only [hear, Work.records_bind, onRegistry_records, Work.records_pure, List.append_nil]
  refine (updateLive?_round hwork (pairwise_of_nodup hord.live_peers d.peer)).mono ?_
  rintro entries _ r ⟨hround, -⟩
  exact ⟨r, hround, rfl⟩

theorem hear_way {d : Disconnection} {rest : List Disconnection}
    (hord : (c.ledger asked (d :: rest)).InOrder) :
    Work.Records (hear d) c fun entries _ c' =>
      Way Step (c.ledger asked (d :: rest)) entries (c'.ledger asked rest) := by
  refine (hear_round hord).mono ?_
  rintro entries _ _ ⟨r, hround, rfl⟩
  exact .single (.hears (b := c.ledger asked (d :: rest)) rfl hround)

theorem hearAll_way {ds : List Disconnection} (hord : (c.ledger asked ds).InOrder) :
    Work.Records (hearAll ds) c fun entries _ c' =>
      Way Step (c.ledger asked ds) entries (c'.ledger asked []) := by
  induction ds generalizing c with
  | nil => simpa [hearAll] using Way.refl _
  | cons d rest ih =>
    simp only [hearAll, Work.records_bind]
    refine (hear_way hord).mono ?_
    intro first _ c₁ hway
    have hord' := inOrder_of_works hway hord
    exact (ih hord').mono fun _ _ _ => hway.trans

theorem drainDisconnections_way (hord : (c.ledger asked []).InOrder) :
    Work.Records drainDisconnections c fun entries _ c' =>
      Way Step (c.ledger asked []) entries (c'.ledger asked []) := by
  simp only [drainDisconnections, Dialogue.fetchDisconnections, Work.records_bind,
    Work.records_lift, Work.records_pure, List.append_nil]
  refine Dialogue.records_call.2 fun ds => ?_
  have hfetches : Step (c.ledger asked []) [⟨none, .answered .fetchDisconnections ds⟩]
      (c.ledger asked ds) := .fetches ds rfl
  exact (hearAll_way (hfetches.inOrder hord)).mono fun _ _ _ => .head hfetches

/-! ### Polling and moving -/

theorem pollHandlers_way (hord : (c.ledger asked []).InOrder) (now : Instant) :
    Work.Records (pollHandlers now) c fun entries _ c' =>
      Way Step (c.ledger asked []) entries (c'.ledger asked []) := by
  simp only [pollHandlers, Work.records_bind, onRegistry_records, Work.records_pure,
    List.append_nil]
  refine (updateLive_round fun h hh => poll_always (hord.atRest.live h hh).sound).mono ?_
  intro entries _ r hround
  exact .single (.polls (b := c.ledger asked []) rfl hround)

theorem promoteHandlers_way (asked : List PeerId) (waiting : List Disconnection) :
    Work.Records promoteHandlers c fun entries _ c' =>
      Way Step (c.ledger asked waiting) entries (c'.ledger asked waiting) ∧
        ∀ h ∈ c'.registry.initializing, h.phase ≠ .streaming := by
  simp only [promoteHandlers, Work.records_bind, Work.records_get, Work.records_modify,
    Work.records_pure, List.append_nil]
  refine ⟨.single (.promotes _), fun h hh => ?_⟩
  simp only [promote, List.partition_eq_filter_filter, List.mem_filter, Function.comp_apply,
    Bool.not_eq_eq_eq_not, Bool.not_true, decide_eq_false_iff_not] at hh
  exact hh.2

theorem reap_reaps_registry (hord : (c.ledger asked []).InOrder) :
    Work.Records (onRegistry reap) c fun entries _ c' => ∃ r, Reaps c.registry entries r ∧
      c' = { c with registry := r } := by
  rw [onRegistry_records]
  exact (reap_reaps hord.live_peers).mono fun _ _ r hreaps => ⟨r, hreaps, rfl⟩

theorem reportCounts_reports : Work.Records reportCounts c fun entries _ c' =>
    c' = c ∧ ∀ e ∈ entries, ∃ m, e = ⟨none, .reported m⟩ := by
  simp only [reportCounts, Work.records_bind, Work.records_get, report_records, List.nil_append]
  exact ⟨trivial,
    List.forall_mem_append.2
      ⟨List.forall_mem_singleton.2 ⟨_, rfl⟩, List.forall_mem_singleton.2 ⟨_, rfl⟩⟩⟩

theorem reportCounts_way (asked : List PeerId) (waiting : List Disconnection) :
    Work.Records reportCounts c fun entries _ c' => c' = c ∧
      Way Step (c.ledger asked waiting) entries (c.ledger asked waiting) := by
  simp only [reportCounts, Work.records_bind, Work.records_get, report_records, List.nil_append]
  exact ⟨trivial, (Way.single (.reports _ _)).tail (.reports _ _)⟩

/-! ### Ticks -/

/-- A tick, taken apart; its instructions ask these live handlers to stop. -/
inductive Ticks (c : Controller) (now : Instant) :
    List Entry → List PeerId → Bool → Controller → Prop where
  | intro {c₁ c₂ c₃ c₄ c₅ c' : Controller}
      {carried heard polled promoted reaped counted : List Entry} {asked : List PeerId}
      {disconnected busy moved ended : Bool} :
      Carries now { c with queue := c.queue.cleared } c.queue.pending carried asked c₁ →
      (drainDisconnections.run c₁).Runs heard (disconnected, c₂) →
      ((pollHandlers now).run c₂).Runs polled (busy, c₃) →
      (promoteHandlers.run c₃).Runs promoted (moved, c₄) →
      ((onRegistry reap).run c₄).Runs reaped (ended, c₅) →
      (reportCounts.run c₅).Runs counted ((), c') →
      Ticks c now (carried ++ (heard ++ (polled ++ (promoted ++ (reaped ++ counted))))) asked
        (!c.queue.pending.isEmpty || disconnected || busy || moved || ended) c'

theorem drainInstructions_iff {now : Instant} {instructed : Bool} :
    ((drainInstructions now).run c).Runs entries (instructed, c') ↔
      instructed = !c.queue.pending.isEmpty ∧
        ((carryOutAll now c.queue.pending).run { c with queue := c.queue.cleared }).Runs entries
          ((), c') := by
  show ((do
    carryOutAll now c.queue.pending
    return !c.queue.pending.isEmpty : Work Controller Bool).run
      { c with queue := c.queue.cleared }).Runs entries (instructed, c') ↔ _
  rw [Work.runs_bind]
  constructor
  · rintro ⟨first, _, c₁, _, rfl, hfirst, hpure⟩
    obtain ⟨rfl, rfl, rfl⟩ := Work.runs_pure.1 hpure
    rw [List.append_nil]
    exact ⟨rfl, hfirst⟩
  · rintro ⟨rfl, hruns⟩
    exact ⟨entries, (), c', [], (List.append_nil _).symm, hruns, Work.runs_pure.2 ⟨rfl, rfl, rfl⟩⟩

theorem tick_iff {now : Instant} {busy : Bool} :
    ((tick now).run c).Runs entries (busy, c') ↔ ∃ asked, Ticks c now entries asked busy c' := by
  simp only [tick, Work.runs_bind, Work.runs_pure]
  constructor
  · rintro ⟨carried, instructed, c₁, _, rfl, hcarried, heard, disconnected, c₂, _, rfl, hheard,
      polled, polling, c₃, _, rfl, hpolled, promoted, moved, c₄, _, rfl, hpromoted,
      reaped, ended, c₅, _, rfl, hreaped, counted, _, c₆, _, rfl, hcounted, rfl, rfl, rfl⟩
    obtain ⟨rfl, hruns⟩ := drainInstructions_iff.1 hcarried
    obtain ⟨asked, hcarries⟩ := carries_iff.1 hruns
    rw [List.append_nil]
    exact ⟨asked, .intro hcarries hheard hpolled hpromoted hreaped hcounted⟩
  · rintro ⟨asked, hticks⟩
    cases hticks with
    | intro hcarries hheard hpolled hpromoted hreaped hcounted =>
      have hcarried := drainInstructions_iff.2 ⟨rfl, carries_iff.2 ⟨asked, hcarries⟩⟩
      exact ⟨_, _, _, _, rfl, hcarried, _, _, _, _, rfl, hheard, _, _, _, _, rfl, hpolled,
        _, _, _, _, rfl, hpromoted, _, _, _, _, rfl, hreaped, _, (), _, [],
        (List.append_nil _).symm,
        hcounted, rfl, rfl, rfl⟩

/-- A tick comes to steps; then handlers are reaped, and after that nothing is done any more. -/
theorem Ticks.way {now : Instant} {more : List PeerId} {busy : Bool}
    (hticks : Ticks c now entries more busy c') (hord : (c.ledger asked []).InOrder) :
    ∃ (c₁ : Controller) (first reaped counted : List Entry) (r : Registry),
      entries = first ++ (reaped ++ counted) ∧
      Way Step (c.ledger asked []) first (c₁.ledger (asked ++ more) []) ∧
      (∀ h ∈ c₁.registry.initializing, h.phase ≠ .streaming) ∧
      Reaps c₁.registry reaped r ∧ c' = { c₁ with registry := r } ∧
      Way Step (c'.ledger (asked ++ more) []) counted (c'.ledger (asked ++ more) []) := by
  cases hticks with
  | @intro c₁ c₂ c₃ c₄ c₅ _ carried heard polled promoted reaped counted _ _ _ _ _ hcarries
      hheard hpolled
      hpromoted hreaped hcounted =>
    have hcarried := hcarries.way (c := { c with queue := c.queue.cleared }) hord
    have hord₁ := inOrder_of_works hcarried hord
    have hheard := drainDisconnections_way hord₁ _ _ hheard
    have hord₂ := inOrder_of_works hheard hord₁
    have hpolled := pollHandlers_way hord₂ now _ _ hpolled
    have hord₃ := inOrder_of_works hpolled hord₂
    obtain ⟨hpromoted, hdivided⟩ := promoteHandlers_way (asked ++ more) [] _ _ hpromoted
    have hord₄ := inOrder_of_works hpromoted hord₃
    obtain ⟨r, hreaps, heq⟩ := reap_reaps_registry hord₄ _ _ hreaped
    obtain ⟨hsame, hcounted⟩ := reportCounts_way (asked ++ more) [] _ _ hcounted
    subst hsame heq
    exact ⟨c₄, carried ++ (heard ++ (polled ++ promoted)), reaped, counted, r, by simp,
      hcarried.trans (hheard.trans (hpolled.trans hpromoted)), hdivided, hreaps, rfl, hcounted⟩

theorem Ticks.open_way {now : Instant} {more : List PeerId} {busy : Bool}
    (hticks : Ticks c now entries more busy c') (hord : (c.ledger asked []).InOrder) :
    Way OpenStep (c.ledger asked []) entries (c'.ledger (asked ++ more) []) := by
  obtain ⟨c₁, first, reaped, counted, r, rfl, hfirst, -, hreaps, rfl, hcounted⟩ := hticks.way hord
  have hreaped : OpenStep (c₁.ledger (asked ++ more) []) reaped
      (Controller.ledger { c₁ with registry := r } (asked ++ more) []) := .reaps hreaps
  exact (open_of_works hfirst).trans (Way.head hreaped (open_of_works hcounted))

/-! ### Closing -/

theorem mem_voluntary_foldl (hs : List Handler) (r : Registry) (peer : PeerId) :
    peer ∈ (hs.foldl (fun r h => r.markVoluntary h.peer) r).voluntary ↔
      peer ∈ r.voluntary ∨ ∃ h ∈ hs, h.peer = peer := by
  induction hs generalizing r with
  | nil => simp
  | cons h hs ih =>
    rw [List.foldl_cons, ih, markVoluntary, List.mem_insert_iff]
    simp only [List.mem_cons, or_and_right, exists_or, exists_eq_left]
    rw [or_comm (a := peer = h.peer), or_assoc, eq_comm]

/-- To remember whom one has asked to stop touches no handler. -/
theorem foldl_markVoluntary (hs : List Handler) (r : Registry) :
    hs.foldl (fun r h => r.markVoluntary h.peer) r =
      { r with voluntary := (hs.foldl (fun r h => r.markVoluntary h.peer) r).voluntary } := by
  induction hs generalizing r with
  | nil => rfl
  | cons h hs ih => exact ih (r.markVoluntary h.peer)

/-- All live handlers are asked to stop, and this is remembered of each of them. -/
theorem stopAll_round (hrest : c.registry.AtRest) :
    Work.Records (onRegistry stopAll) c fun entries _ c' =>
    ∃ voluntary r, (∀ peer, peer ∈ voluntary ↔ peer ∈ c.registry.voluntary ∨ ∃ h ∈ c.registry.live,
      h.peer = peer) ∧
      Round Stops { c.registry with voluntary } entries r ∧ c' = { c with registry := r } := by
  have hmark := foldl_markVoluntary c.registry.live c.registry
  have hall := mem_voluntary_foldl c.registry.live c.registry
  generalize (c.registry.live.foldl (fun r h => r.markVoluntary h.peer) c.registry).voluntary =
    voluntary
    at hmark hall
  simp only [onRegistry_records, stopAll, Work.records_bind, Work.records_modify,
    Work.records_pure, hmark, List.nil_append, List.append_nil]
  refine (updateLive_round (r := { c.registry with voluntary })
    fun h hh => stop_stops (hrest.live h hh).live).mono ?_
  exact fun entries _ r hround => ⟨voluntary, r, hall, hround, rfl⟩

theorem stopAll_way {waiting : List Disconnection} (hord : (c.ledger asked waiting).InOrder) :
    Work.Records (onRegistry stopAll) c fun entries _ c' =>
      Way AnyStep (c.ledger asked waiting) entries (c'.ledger asked waiting) ∧
        ∀ h ∈ c'.registry.live, h.phase = .stopping := by
  refine (stopAll_round hord.atRest).mono ?_
  rintro entries _ _ ⟨voluntary, r, hall, hround, rfl⟩
  refine ⟨.single
    (.asksAll (b := c.ledger asked waiting) voluntary (fun peer => (hall peer).1) hround),
    fun h' hh' => ?_⟩
  obtain ⟨h, -, did, hdid⟩ := hround.live.origin hh'
  exact hdid.phase

theorem pollHandlers_stopping (hord : (c.ledger asked []).InOrder)
    (hstopping : ∀ h ∈ c.registry.live, h.phase = .stopping) (now : Instant) :
    Work.Records (pollHandlers now) c fun _ _ c' => ∀ h ∈ c'.registry.live, h.phase =
      .stopping := by
  simp only [pollHandlers, Work.records_bind, onRegistry_records, Work.records_pure]
  refine (updateLive_round fun h hh => poll_always (hord.atRest.live h hh).sound).mono ?_
  intro entries _ r hround h' hh'
  obtain ⟨h, hh, did, hdid⟩ := hround.live.origin hh'
  exact moves_behaves.stopping hdid (hstopping h hh)

/-- When a controller is closed, its handlers have stopped, and are forgotten. -/
theorem close_way (hord : (c.ledger asked []).InOrder) :
    Work.Records close c fun entries _ c' =>
      Way AnyStep (c.ledger asked []) entries (c'.ledger asked []) ∧ c'.registry = {} := by
  simp only [close, Dialogue.readClock, Work.records_bind, Work.records_lift, Work.records_modify,
    List.append_nil]
  refine (stopAll_way hord).mono ?_
  rintro _ _ c₁ ⟨hstops, hstopping⟩
  have hord₁ := inOrder_of_way hstops hord
  refine Dialogue.records_call.2 fun now => ?_
  refine ((pollHandlers_way hord₁ now).and (pollHandlers_stopping hord₁ hstopping now)).mono ?_
  rintro _ _ c₂ ⟨hpolls, hstopping₂⟩
  have hord₂ := inOrder_of_works hpolls hord₁
  refine (reap_reaps_registry hord₂).mono ?_
  rintro reaped _ _ ⟨r, hreaps, rfl⟩
  have hkept : ∀ h ∈ r.live, h.phase = .stopping := by
    intro h hh
    rw [hreaps.live] at hh
    exact hstopping₂ h (c₂.registry.live_drained.mem_iff.2 (List.mem_append_right _ hh))
  have hread : AnyStep (c₁.ledger asked []) [⟨none, .answered .readClock now⟩]
      (c₁.ledger asked []) :=
    .readsClock _ now
  have hreaped : AnyStep (c₂.ledger asked []) reaped
      (Controller.ledger { c₂ with registry := r } asked []) :=
    .goesOn (.reaps hreaps)
  have hcloses : AnyStep (Controller.ledger { c₂ with registry := r } asked []) []
      (Controller.ledger { c₂ with registry := {} } asked []) := .closes hkept
  have hend :=
    (hpolls.mono fun _ _ _ h => .goesOn (.works h)).trans (Way.head hreaped (.single hcloses))
  rw [List.append_nil] at hend
  exact ⟨hstops.trans (Way.head hread hend), trivial⟩

/-! ### Starting -/

theorem submitAll_way (is : List Instruction) (asked : List PeerId) (waiting : List Disconnection) :
    Work.Records (submitAll is) c fun entries _ c' =>
      c'.ledger asked waiting = c.ledger asked waiting ∧
        Way Step (c.ledger asked waiting) entries (c.ledger asked waiting) := by
  induction is generalizing c with
  | nil => simpa [submitAll] using Way.refl _
  | cons i rest ih =>
    simp only [submitAll, Work.records_bind]
    refine (submit_way i asked waiting).mono ?_
    rintro entries accepted c₁ ⟨heq, hway⟩
    cases accepted with
    | true =>
      refine ih.mono ?_
      rintro entries' _ c₂ ⟨heq', hway'⟩
      rw [heq] at heq' hway'
      exact ⟨heq', hway.trans hway'⟩
    | false => simpa using ⟨heq, hway⟩

/-- The ledger of a controller that has done nothing. -/
def blank (instanceId : InstanceId) (frameBuffer : Nat) : Ledger :=
  ⟨{}, .first, instanceId, frameBuffer, [], []⟩

/-- A controller starts without handlers. -/
theorem start_way (instanceId : InstanceId) (settings : Settings) :
    (start instanceId settings).Records fun entries r => ∀ c, r = .ok c →
      c.ledger [] [] = blank instanceId settings.frameBuffer ∧
        Way Step (blank instanceId settings.frameBuffer) entries
          (blank instanceId settings.frameBuffer) := by
  unfold start
  split
  · simp
  split
  · simp
  next queue _ =>
    simp only [Dialogue.records_bind]
    refine Dialogue.Records.mono
      (submitAll_way (c := { settings, instanceId, queue }) (settings.tables.map .add) [] []) ?_
    rintro entries ⟨fitted, c⟩ ⟨heq, hway⟩
    cases fitted with
    | false => simp
    | true =>
      simp only [Bool.not_true, Bool.false_eq_true, if_false]
      split
      · simp
      · simp only [Dialogue.pure_eq, Dialogue.records_done, Except.ok.injEq, List.append_nil]
        rintro _ rfl
        exact ⟨heq, hway⟩

end ReplicaHandshake.Controller
