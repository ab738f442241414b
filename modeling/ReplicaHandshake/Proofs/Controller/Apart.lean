import ReplicaHandshake.Proofs.Controller.Ticks
import ReplicaHandshake.Proofs.Handler.Receipts

/-!
# Work apart from the queue

Most of what a controller does leaves its queue of instructions alone, and reports nothing about
instructions (`Controller.Apart`).  To carry out an instruction is work apart from the queue as
well, but for the receipt at its end (`carryOut_settles`).  Nor does that work depend on what is
waiting: whatever that is, the same comes of it (`carryOut_blind`).
-/

namespace ReplicaHandshake

open Handler Registry Ledger

/-! ### Rounds -/

section Each

variable {R : Handler → List Happening → Handler → Prop} {hs hs' : List Handler}
  {entries : List Entry}

theorem Each.noReceipts (h : Each R hs entries hs') (hR : ∀ h did h', R h did h' → NoReceipts did) :
    NoReceipts (happenings entries) := by
  induction h with
  | nil => exact noReceipts_nil
  | cons hdid _ ih =>
    rw [happenings_append, happenings_marked]
    exact (hR _ _ _ hdid).append ih

theorem Registry.Round.noReceipts {r r' : Registry} (h : Round R r entries r')
    (hR : ∀ h did h', R h did h' → NoReceipts did) : NoReceipts (happenings entries) :=
  h.live.noReceipts hR

theorem noReceipts_of_only {test : Handler → Bool} (hR : ∀ h did h', R h did h' → NoReceipts did) :
    ∀ h did h', Only test R h did h' → NoReceipts did := by
  intro h did h' hdid
  obtain ⟨-, hdid⟩ | ⟨-, rfl, -⟩ := hdid.cases
  · exact hR h did h' hdid
  · exact noReceipts_nil

theorem Handler.Behaves.noReceipts (hR : Behaves R) : ∀ h did h', R h did h' → NoReceipts did :=
  fun _ _ _ hdid => noReceipts_of_way (hR.way hdid)

end Each

namespace Controller

variable {c c' c'' : Controller} {entries entries' : List Entry} {α β : Type}

/-- The queue is left alone, and nothing is reported about instructions. -/
structure Apart (c : Controller) (entries : List Entry) (c' : Controller) : Prop where
  queue : c'.queue = c.queue
  quiet : NoReceipts (happenings entries)

theorem Apart.refl (c : Controller) : Apart c [] c :=
  ⟨rfl, noReceipts_nil⟩

theorem Apart.trans (h : Apart c entries c') (h' : Apart c' entries' c'') :
    Apart c (entries ++ entries') c'' where
  queue := h'.queue.trans h.queue
  quiet := by
    rw [happenings_append]
    exact h.quiet.append h'.quiet

theorem onRegistry_apart {work : Work Registry α}
    (hwork : Work.Records work c.registry fun entries _ _ => NoReceipts (happenings entries)) :
    Work.Records (onRegistry work) c fun entries _ c' => Apart c entries c' := by
  rw [onRegistry_records]
  exact hwork.mono fun _ _ _ hquiet => ⟨rfl, hquiet⟩

/-! ### Instructions -/

theorem addTable_apart (table : TableSettings) (now : Instant) :
    Work.Records (addTable table now) c fun entries _ c' => Apart c entries c' := by
  simp only [addTable, Work.records_bind, Work.records_get, List.nil_append]
  cases table.validate with
  | error => simpa using Apart.refl c
  | ok =>
    simp only
    split
    · simpa using Apart.refl c
    · simp only [Work.records_bind, Work.records_set, Work.records_lift, Work.records_modify,
        Work.records_pure, List.nil_append, List.append_nil]
      refine Dialogue.Records.mono (new_begins.records c.nextPeer) ?_
      rintro _ ⟨_, h⟩ ⟨did, rfl, hbegins⟩
      exact ⟨rfl, by rw [happenings_marked]; exact hbegins.noReceipts⟩

theorem removeTable_apart (hord : c.registry.InOrder c.nextPeer) (tableName : String) :
    Work.Records (removeTable tableName) c fun entries _ c' => Apart c entries c' := by
  have hwork : ∀ h ∈ c.registry.live, Work.Always stopOnRequest h fun did peer h' =>
      Stops h did h' ∧ peer = h.peer :=
    fun h hh => stopOnRequest_stops (hord.atRest.live h hh).live
  simp only [removeTable, Work.records_bind, onRegistry_records]
  refine (updateLive?_round hwork (pairwise_of_nodup hord.live_names tableName)).mono ?_
  rintro entries stopped r ⟨hround, -⟩
  have hquiet := hround.noReceipts (noReceipts_of_only stops_behaves.noReceipts)
  cases stopped with
  | some peer =>
    simp only [Work.records_bind, Work.records_modify, Work.records_pure, List.append_nil]
    exact ⟨rfl, hquiet⟩
  | none =>
    simp only [Work.records_bind, Work.records_get, Work.records_modify, Work.records_pure,
      List.append_nil]
    exact ⟨rfl, hquiet⟩

/-- What is reported about an instruction. -/
def receipt (i : Instruction) (outcome : String) : Entry :=
  ⟨none, .reported (.instruction i.kind outcome)⟩

/-- The label of an instruction that was carried out. -/
def effect (applied : Bool) : String :=
  if applied then "applied" else "ignored"

theorem receipt_settles {work : Work Controller Bool} {i : Instruction}
    (hwork : Work.Records work c fun entries _ c' => Apart c entries c') :
    Work.Records
      (do
        let applied ← work
        report (.instruction i.kind (if applied then "applied" else "ignored")))
      c fun entries _ c' => ∃ did applied, entries = did ++ [receipt i (effect applied)] ∧
        Apart c did c' := by
  simp only [Work.records_bind, report_records]
  exact hwork.mono fun did applied _ hapart => ⟨did, applied, rfl, hapart⟩

/-- To carry out an instruction is work apart from the queue, with a receipt at its end. -/
theorem carryOut_settles (hord : c.registry.InOrder c.nextPeer) (now : Instant) (i : Instruction) :
    Work.Records (carryOut now i) c fun entries _ c' =>
      ∃ did applied, entries = did ++ [receipt i (effect applied)] ∧ Apart c did c' := by
  cases i with
  | add table => exact receipt_settles (addTable_apart table now)
  | remove tableName => exact receipt_settles (removeTable_apart hord tableName)

/-! ### Whatever is waiting -/

/-- Work that is the same whatever is waiting. -/
def Blind (work : Work Controller α) : Prop :=
  ∀ c q, work.run { c with queue := q } = (fun r => (r.1, { r.2 with queue := q })) <$> work.run c

theorem Blind.bind {work : Work Controller α} {next : α → Work Controller β} (hwork : Blind work)
    (hnext : ∀ a, Blind (next a)) : Blind (work >>= next) := by
  intro c q
  rw [StateT.run_bind, StateT.run_bind, hwork, bind_map_left, map_bind]
  exact bind_congr fun r => hnext r.1 r.2 q

theorem Blind.runs {work : Work Controller α} (hwork : Blind work) {a : α} (q : InstructionQueue)
    (hruns : (work.run c).Runs entries (a, c')) :
    (work.run { c with queue := q }).Runs entries (a, { c' with queue := q }) := by
  rw [hwork, map_eq_pure_bind]
  exact Dialogue.runs_bind.2 ⟨entries, _, [], (List.append_nil _).symm, hruns, .done _⟩

theorem Blind.queue {work : Work Controller α} (hwork : Blind work) {a : α}
    (hruns : (work.run c).Runs entries (a, c')) : c'.queue = c.queue := by
  have hsame := hwork c c.queue
  rw [show ({ c with queue := c.queue } : Controller) = c from rfl, map_eq_pure_bind] at hsame
  rw [hsame] at hruns
  obtain ⟨_, r, _, -, -, hdone⟩ := Dialogue.runs_bind.1 hruns
  obtain ⟨-, heq⟩ := Dialogue.runs_done.1 hdone
  rw [(Prod.mk.inj heq).2]

theorem report_blind (m : Metric) : Blind (report m : Dialogue Unit) :=
  fun _ _ => rfl

theorem addTable_blind (table : TableSettings) (now : Instant) : Blind (addTable table now) := by
  intro c q
  simp only [addTable, StateT.run_bind, StateT.run_get, pure_bind]
  cases table.validate with
  | error => rfl
  | ok =>
    simp only
    split
    · rfl
    · simp only [bind_pure_comp, StateT.run_bind, StateT.run_set, Dialogue.pure_eq,
        StateT.run_monadLift, monadLift_self, StateT.run_map, StateT.run_modify, bind_assoc,
        Dialogue.done_bind, map_bind,
        Functor.map_map]
      rfl

theorem removeTable_blind (tableName : String) : Blind (removeTable tableName) := by
  intro c q
  simp only [removeTable, onRegistry, bind_pure_comp, bind_assoc, bind_map_left, StateT.run_bind,
  StateT.run_get, Dialogue.pure_eq, StateT.run_monadLift, monadLift_self, StateT.run_modify,
    Dialogue.done_bind, map_bind]
  refine bind_congr fun r => ?_
  rcases r with ⟨_ | peer, r⟩ <;> rfl

theorem carryOut_blind (now : Instant) (i : Instruction) : Blind (carryOut now i) := by
  cases i with
  | add table => exact (addTable_blind table now).bind fun _ => report_blind _
  | remove tableName => exact (removeTable_blind tableName).bind fun _ => report_blind _

theorem Carries.queue {now : Instant} {is : List Instruction} {asked : List PeerId}
    (hcarries : Carries now c is entries asked c') : c'.queue = c.queue := by
  induction hcarries with
  | done => rfl
  | next hruns _ ih => rw [ih, (carryOut_blind _ _).queue hruns]

/-! ### The rest of a tick -/

theorem hear_apart (hord : c.registry.InOrder c.nextPeer) (d : Disconnection) :
    Work.Records (hear d) c fun entries _ c' => Apart c entries c' := by
  refine (hear_round hord).mono ?_
  rintro entries _ _ ⟨r, hround, rfl⟩
  exact ⟨rfl, hround.noReceipts (noReceipts_of_only (hears_behaves d.socket).noReceipts)⟩

theorem hearAll_apart (ds : List Disconnection) (hord : c.registry.InOrder c.nextPeer) :
    Work.Records (hearAll ds) c fun entries _ c' => Apart c entries c' := by
  induction ds generalizing c with
  | nil => simpa [hearAll] using Apart.refl c
  | cons d rest ih =>
    simp only [hearAll, Work.records_bind]
    have hledger : (c.ledger [] [d]).InOrder := hord
    refine ((hear_apart hord d).and (hear_way hledger)).mono ?_
    rintro first _ c₁ ⟨hfirst, hway⟩
    have hord₁ := inOrder_of_works hway hledger
    exact (ih hord₁).mono fun _ _ _ => hfirst.trans

theorem drainDisconnections_apart (hord : c.registry.InOrder c.nextPeer) :
    Work.Records drainDisconnections c fun entries _ c' => Apart c entries c' := by
  simp only [drainDisconnections, Dialogue.fetchDisconnections, Work.records_bind,
    Work.records_lift, Work.records_pure, List.append_nil]
  refine Dialogue.records_call.2 fun ds => ?_
  have hfetched : Apart c [⟨none, .answered .fetchDisconnections ds⟩] c :=
    ⟨rfl, noReceipts_single rfl⟩
  exact (hearAll_apart ds hord).mono fun _ _ _ => hfetched.trans

theorem pollHandlers_apart (hord : c.registry.InOrder c.nextPeer) (now : Instant) :
    Work.Records (pollHandlers now) c fun entries _ c' => Apart c entries c' := by
  simp only [pollHandlers, Work.records_bind, Work.records_pure, List.append_nil]
  refine onRegistry_apart (Work.Records.mono
    (updateLive_round fun h hh => poll_always (hord.atRest.live h hh).sound) ?_)
  exact fun _ _ _ hround => hround.noReceipts moves_behaves.noReceipts

theorem promoteHandlers_apart :
    Work.Records promoteHandlers c fun entries _ c' => Apart c entries c' := by
  simp only [promoteHandlers, Work.records_bind, Work.records_get, Work.records_modify,
    Work.records_pure, List.nil_append]
  exact ⟨rfl, noReceipts_nil⟩

theorem noReceipts_of_settles {hs : List Handler} {r r' : Registry} (h : Settles hs r entries r') :
    NoReceipts (happenings entries) := by
  rw [h.entries]
  intro x hx
  obtain ⟨e, he, rfl⟩ := List.mem_map.1 hx
  obtain ⟨h, -, he⟩ := List.mem_flatMap.1 he
  obtain ⟨y, hy, rfl⟩ := List.mem_map.1 he
  exact (noReceipts_single rfl).cons rfl y hy

theorem reap_apart (hord : c.registry.InOrder c.nextPeer) :
    Work.Records (onRegistry reap) c fun entries _ c' => Apart c entries c' :=
  onRegistry_apart
    ((reap_reaps hord.live_peers).mono fun _ _ _ hreaps => noReceipts_of_settles hreaps)

theorem reportCounts_apart :
    Work.Records reportCounts c fun entries _ c' => Apart c entries c' := by
  simp only [reportCounts, Work.records_bind, Work.records_get, report_records, List.nil_append]
  exact ⟨rfl, (noReceipts_single rfl).cons rfl⟩

/-- The rest of a tick, after its instructions. -/
inductive Drives (c : Controller) (now : Instant) : List Entry → Controller → Prop where
  | intro {c₁ c₂ c₃ c₄ c' : Controller} {heard polled promoted reaped counted : List Entry}
      {disconnected busy moved ended : Bool} :
      (drainDisconnections.run c).Runs heard (disconnected, c₁) →
      ((pollHandlers now).run c₁).Runs polled (busy, c₂) →
      (promoteHandlers.run c₂).Runs promoted (moved, c₃) →
      ((onRegistry reap).run c₃).Runs reaped (ended, c₄) →
      (reportCounts.run c₄).Runs counted ((), c') →
      Drives c now (heard ++ (polled ++ (promoted ++ (reaped ++ counted)))) c'

theorem Ticks.drives {now : Instant} {asked : List PeerId} {busy : Bool}
    (hticks : Ticks c now entries asked busy c') :
    ∃ c₁ carried driven, entries = carried ++ driven ∧
      Carries now { c with queue := c.queue.cleared } c.queue.pending carried asked c₁ ∧
      Drives c₁ now driven c' := by
  cases hticks with
  | intro hcarries hheard hpolled hpromoted hreaped hcounted =>
    exact ⟨_, _, _, rfl, hcarries, .intro hheard hpolled hpromoted hreaped hcounted⟩

/-- The rest of a tick is work apart from the queue, and leaves the registry in order. -/
theorem Drives.apart {now : Instant} (hdrives : Drives c now entries c')
    (hord : c.registry.InOrder c.nextPeer) :
    Apart c entries c' ∧ c'.registry.InOrder c'.nextPeer := by
  cases hdrives with
  | @intro c₁ c₂ c₃ c₄ _ _ _ _ _ _ _ _ _ _ hheard hpolled hpromoted hreaped hcounted =>
    have hledger : (c.ledger [] []).InOrder := hord
    have hord₁ := inOrder_of_works (drainDisconnections_way hledger _ _ hheard) hledger
    have hord₂ := inOrder_of_works (pollHandlers_way hord₁ now _ _ hpolled) hord₁
    have hord₃ := inOrder_of_works (promoteHandlers_way [] [] _ _ hpromoted).1 hord₂
    have hapart₄ := reap_apart hord₃ _ _ hreaped
    obtain ⟨r, hreaps, heq⟩ := reap_reaps_registry hord₃ _ _ hreaped
    have hord₄ : c₄.registry.InOrder c₄.nextPeer := by
      have hreaped : AnyStep (c₃.ledger [] []) _
          (Controller.ledger { c₃ with registry := r } [] []) :=
        .goesOn (.reaps hreaps)
      rw [show c₄ = _ from heq]
      exact hreaped.inOrder hord₃
    have hcounted' := reportCounts_apart _ _ hcounted
    obtain ⟨hsame, -⟩ := reportCounts_way [] [] _ _ hcounted
    refine ⟨?_, by rw [show c' = _ from hsame]; exact hord₄⟩
    exact (drainDisconnections_apart hord _ _ hheard).trans <|
      (pollHandlers_apart hord₁ now _ _ hpolled).trans <|
      (promoteHandlers_apart _ _ hpromoted).trans <| hapart₄.trans hcounted'

/-! ### Closing -/

theorem stopAll_apart (hord : c.registry.InOrder c.nextPeer) :
    Work.Records (onRegistry stopAll) c fun entries _ c' => Apart c entries c' := by
  have hmark := foldl_markVoluntary c.registry.live c.registry
  generalize (c.registry.live.foldl (fun r h => r.markVoluntary h.peer) c.registry).voluntary =
    voluntary at hmark
  refine onRegistry_apart ?_
  simp only [stopAll, Work.records_bind, Work.records_modify, Work.records_pure, hmark,
    List.nil_append, List.append_nil]
  refine (updateLive_round (r := { c.registry with voluntary })
    fun h hh => stop_stops (hord.atRest.live h hh).live).mono ?_
  exact fun _ _ _ hround => hround.noReceipts stops_behaves.noReceipts

theorem close_apart (hord : c.registry.InOrder c.nextPeer) :
    Work.Records close c fun entries _ c' => Apart c entries c' := by
  simp only [close, Dialogue.readClock, Work.records_bind, Work.records_lift, Work.records_modify,
    List.append_nil]
  have hledger : (c.ledger [] []).InOrder := hord
  refine ((stopAll_apart hord).and (stopAll_way hledger)).mono ?_
  rintro _ _ c₁ ⟨hstopped, hstops, -⟩
  have hord₁ := inOrder_of_way hstops hledger
  refine Dialogue.records_call.2 fun now => ?_
  refine ((pollHandlers_apart hord₁ now).and (pollHandlers_way hord₁ now)).mono ?_
  rintro _ _ c₂ ⟨hpolled, hpolls⟩
  refine (reap_apart (inOrder_of_works hpolls hord₁)).mono ?_
  intro _ _ c₃ hreaped
  have hread : Apart c₁ [⟨none, .answered .readClock now⟩] c₁ := ⟨rfl, noReceipts_single rfl⟩
  have hall := hstopped.trans (hread.trans (hpolled.trans hreaped))
  exact ⟨hall.queue, hall.quiet⟩

end Controller

end ReplicaHandshake
