import ReplicaHandshake.Proofs.Controller.Routine

/-!
# What instructions do

An instruction is applied or ignored (`Controller.Applies`).  A table is added if its settings are
valid and it has no live handler, and removed if it has any handler, live or parked.  What an
applied instruction makes of the controller is said by `Controller.Applied`; an ignored one changes
nothing.  Instructions of a tick are carried out one after the other, each on what the others have
left (`Controller.Outcomes`).

Until the handlers are reaped a live handler stays, and one that has been asked to stop is
stopping.  So to add a table twice, or to remove it twice, is as good as once
(`Outcome.add_again`, `Outcome.remove_again`).
-/

namespace ReplicaHandshake

open Handler Registry Ledger

/-! ### Registries -/

namespace Registry

variable {r : Registry} {tableName : String}

theorem clearDistressed_iff :
    (r.clearDistressed tableName).1 = true ↔ ∃ h ∈ r.distressed, h.tableName = tableName := by
  simp only [clearDistressed, decide_eq_true_eq, ne_eq, List.length_filter_eq_length_iff,
    Classical.not_forall, decide_not, Bool.not_eq_true', decide_eq_false_iff_not, Classical.not_not,
    exists_prop]

theorem clearDistressed_eq_self (hnone : ∀ h ∈ r.distressed, h.tableName ≠ tableName) :
    (r.clearDistressed tableName).2 = r := by
  have hsame : r.distressed.filter (·.tableName ≠ tableName) = r.distressed :=
    List.filter_eq_self.2 fun h hh => decide_eq_true (hnone h hh)
  unfold clearDistressed
  rw [hsame]

theorem InOrder.isActive_iff {next : PeerId} (hord : r.InOrder next) :
    r.isActive tableName = true ↔ ∃ h ∈ r.live, h.tableName = tableName := by
  rw [isActive, List.contains_iff_mem, hord.active.mem_iff, List.mem_map]

end Registry

/-- A live handler, when it was asked to stop. -/
def Handler.halted (h : Handler) : Handler :=
  if h.phase = .stopping then h else h.stopped

theorem Handler.Stops.eq_halted {h h' : Handler} {hs : List Happening} (hstops : Stops h hs h') :
    h' = h.halted := by
  cases hstops with
  | stops _ hphase => exact (if_neg hphase).symm
  | isStopping hphase => exact (if_pos hphase).symm

namespace Controller

variable {c c' : Controller} {now : Instant} {i j : Instruction} {is : List Instruction}
  {past entries : List Entry} {asked more : List PeerId} {settings : Settings}

/-! ### What comes of an instruction -/

/-- Whether an instruction is applied. -/
def Applies (c : Controller) : Instruction → Prop
  | .add table => table.validate = .ok () ∧ ∀ h ∈ c.registry.live, h.tableName ≠ table.tableName
  | .remove tableName => ∃ h ∈ c.registry.handlers, h.tableName = tableName

/-- What an applied instruction makes of a controller.  A handler begins under the next peer, in
place of the parked one of its table; or the live handler of the table stops, and it is remembered
that it was asked to; or the parked one is forgotten. -/
inductive Applied (now : Instant) (c : Controller) :
    Instruction → List Entry → Controller → Prop where
  | adds {table : TableSettings} {did : List Happening} {h : Handler} :
      Begins (Handler.new c.instanceId c.nextPeer table c.settings.frameBuffer c.handshakeTimeout
        now) did h →
      h.peer = c.nextPeer → h.tableName = table.tableName →
      Applied now c (.add table) (marked c.nextPeer did)
        { c with
          nextPeer := c.nextPeer.next
          registry :=
            { c.registry with
              active := table.tableName :: c.registry.active
              initializing := c.registry.initializing ++ [h]
              distressed := c.registry.distressed.filter (·.tableName ≠ table.tableName) } }
  | stops {h h' : Handler} {did : List Happening} : h ∈ c.registry.live → Stops h did h' →
      h'.phase = .stopping →
      Applied now c (.remove h.tableName) (marked h.peer did)
        { c with
          registry :=
            { c.registry.mapLive fun x => if x.tableName = h.tableName then h' else x with
              voluntary := c.registry.voluntary.insert h.peer } }
  | forgets {tableName : String} : (∀ h ∈ c.registry.live, h.tableName ≠ tableName) →
      Applied now c (.remove tableName) []
        { c with
          registry :=
            { c.registry with distressed :=
              c.registry.distressed.filter (·.tableName ≠ tableName) } }

/-- What comes of an instruction: it is applied, and takes its effect, or it is ignored, and
changes nothing. -/
inductive Outcome (now : Instant) (c : Controller) (i : Instruction) :
    List Entry → Controller → Prop where
  | applied {told : List Entry} {c' : Controller} : c.Applies i → Applied now c i told c' →
      Outcome now c i (told ++ [⟨none, .reported (.instruction i.kind "applied")⟩]) c'
  | ignored : ¬c.Applies i → Outcome now c i [⟨none, .reported (.instruction i.kind "ignored")⟩] c

theorem CarriesOut.outcome (hcarries : CarriesOut now c i entries c')
    (hord : c.registry.InOrder c.nextPeer) :
    Outcome now c i entries c' := by
  cases hcarries with
  | invalid hinvalid =>
    refine .ignored fun happlies => ?_
    rw [happlies.1] at hinvalid
    cases hinvalid
  | active _ hactive =>
    obtain ⟨h, hh, hname⟩ := hord.isActive_iff.1 hactive
    exact .ignored fun happlies => happlies.2 h hh hname
  | @adds table did h hvalid hinactive hdoes =>
    have hbegins := hdoes.of_always new_begins
    obtain ⟨hpeer, hname, -⟩ := hbegins.spec
    have hnone : ∀ h ∈ c.registry.live, h.tableName ≠ table.tableName := by
      intro h hh hsame
      rw [hord.isActive_iff.2 ⟨h, hh, hsame⟩] at hinactive
      cases hinactive
    have hnew : h.tableName ∉ c.registry.active := by
      rw [hname, ← List.contains_iff_mem, ← isActive, hinactive]
      exact Bool.false_ne_true
    have hactive : c.registry.active.insert h.tableName = table.tableName :: c.registry.active := by
      rw [List.insert_of_not_mem hnew, hname]
    have hregistry : (c.registry.clearDistressed table.tableName).2.insert h = { c.registry with
        active := table.tableName :: c.registry.active
        initializing := c.registry.initializing ++ [h]
        distressed := c.registry.distressed.filter (·.tableName ≠ table.tableName) } :=
      congrArg (Registry.mk · _ _ _ _) hactive
    rw [hregistry]
    exact .applied ⟨hvalid, hnone⟩ (.adds hbegins hpeer hname)
  | @stops h told r hh hround =>
    have hround := stops_of_requests hord.atRest hround
    have hone := pairwise_of_nodup hord.live_names h.tableName
    obtain ⟨did, h', hstops, rfl⟩ := hround.live.of_one hone hh (decide_eq_true rfl)
    have hregistry : r = c.registry.mapLive fun x => if x.tableName = h.tableName then
        h' else x := by
      rw [hround.eq_mapLive fun x _ x' honly => honly.eq_ite fun hdid => hdid.eq_halted]
      refine mapLive_congr fun x hx => ?_
      simp only [decide_eq_true_eq]
      split
      next hsame =>
        obtain rfl := eq_of_nodup_map hord.live_names hh hx hsame
        exact hstops.eq_halted.symm
      next => rfl
    subst hregistry
    exact .applied ⟨h, List.mem_append_left _ hh, rfl⟩ (.stops hh hstops hstops.phase)
  | @forgets tableName hnone =>
    by_cases hparked : ∃ h ∈ c.registry.distressed, h.tableName = tableName
    · rw [if_pos (clearDistressed_iff.2 hparked)]
      obtain ⟨h, hh, hname⟩ := hparked
      have happlies : c.Applies (.remove tableName) := ⟨h, List.mem_append_right _ hh, hname⟩
      exact .applied happlies (.forgets hnone)
    · have hunparked : ∀ h ∈ c.registry.distressed, h.tableName ≠ tableName :=
        fun h hh hname => hparked ⟨h, hh, hname⟩
      rw [if_neg fun hcleared => hparked (clearDistressed_iff.1 hcleared),
        clearDistressed_eq_self hunparked]
      refine .ignored fun happlies => ?_
      obtain ⟨h, hh, hname⟩ := happlies
      exact (List.mem_append.1 hh).elim (hnone h · hname) (hunparked h · hname)

/-! ### One after the other -/

/-- The next peer is larger than all of whom anything has happened, or a handler is kept. -/
structure Unissued (past : List Entry) (c : Controller) : Prop where
  past : ∀ peer, history peer past ≠ [] → peer.number < c.nextPeer.number
  handlers : ∀ h ∈ c.registry.handlers, h.peer.number < c.nextPeer.number

/-- Instructions are carried out one after the other, each on what the others have left. -/
inductive Outcomes (now : Instant) :
    List Entry → Controller → List Instruction → List Entry → Controller → Prop where
  | done (past : List Entry) (c : Controller) : Outcomes now past c [] [] c
  | next {past first second : List Entry} {c c₁ c' : Controller} {i : Instruction}
      {rest : List Instruction} :
      Unissued past c → Outcome now c i first c₁ → Outcomes now (past ++ first) c₁ rest second c' →
      Outcomes now past c (i :: rest) (first ++ second) c'

theorem unissued_of_kept (hkept : Kept past (c.ledger asked [])) : Unissued past c where
  past peer hsome := Classical.byContradiction fun hissued =>
    hsome (hkept.chronicle.unborn peer (Nat.le_of_not_lt hissued))
  handlers := hkept.chronicle.issued

theorem Carries.outcomes (hcarries : Carries now c is entries more c')
    (hkept : Kept past (c.ledger asked [])) :
    Outcomes now past c is entries c' := by
  induction hcarries generalizing past asked with
  | done => exact .done past _
  | @next c c₁ c' i rest first second more hruns _ ih =>
    have hway := any_of_open (open_of_works (carryOut_way hkept.inOrder now i _ _ hruns))
    have hkept₁ := (hkept.along (I := fun _ _ => True) (fun _ _ _ hstep => hstep) hway
      (fun _ _ _ _ _ _ _ => trivial) trivial).1
    have houtcome := (carryOut_carriesOut hkept.inOrder now i _ _ hruns).outcome hkept.inOrder
    exact .next (unissued_of_kept hkept) houtcome (ih hkept₁)

theorem Carries.invariant {I : Controller → Prop} (hcarries : Carries now c is entries more c')
    (hord : (c.ledger asked []).InOrder) (hI : ∀ c i entries c', c.registry.InOrder c.nextPeer →
      Outcome now c i entries c' → I c → I c') (hbefore : I c) : I c' := by
  induction hcarries generalizing asked with
  | done => exact hbefore
  | @next c c₁ c' i rest first second more hruns _ ih =>
    have hord₁ := inOrder_of_works (carryOut_way hord now i _ _ hruns) hord
    exact ih hord₁
      (hI _ _ _ _ hord ((carryOut_carriesOut hord now i _ _ hruns).outcome hord) hbefore)

/-! ### The same again -/

variable {tableName : String}

/-- The table has a live handler. -/
def HasTable (tableName : String) (c : Controller) : Prop :=
  ∃ h ∈ c.registry.live, h.tableName = tableName

/-- The live handler of the table is stopping, and it is remembered that it was asked to. -/
def IsLeaving (tableName : String) (c : Controller) : Prop :=
  ∃ h ∈ c.registry.live, h.tableName = tableName ∧ h.phase = .stopping ∧
    h.peer ∈ c.registry.voluntary

/-- A live handler stays live for its table, and as it is if it is stopping. -/
theorem Applied.live (happlied : Applied now c i entries c') (hord : c.registry.InOrder c.nextPeer)
    {x : Handler} (hx : x ∈ c.registry.live) :
    ∃ x' ∈ c'.registry.live, x'.tableName = x.tableName ∧ (x.phase = .stopping → x' = x) := by
  cases happlied with
  | adds =>
    refine ⟨x, ?_, rfl, fun _ => rfl⟩
    exact (List.mem_append.1 hx).elim (fun hx => List.mem_append_left _ (List.mem_append_left _ hx))
      (List.mem_append_right _)
  | forgets => exact ⟨x, hx, rfl, fun _ => rfl⟩
  | @stops h h' did hh hstops =>
    have hlive : ∀ voluntary, Registry.live
        { c.registry.mapLive fun x => if x.tableName = h.tableName then h' else x with
        voluntary } = c.registry.live.map fun x => if x.tableName = h.tableName then h' else x :=
      fun _ => live_mapLive
    refine ⟨if x.tableName = h.tableName then h' else x, hlive _ ▸ List.mem_map_of_mem hx, ?_⟩
    split
    next hsame =>
      obtain rfl := eq_of_nodup_map hord.live_names hh hx hsame
      exact ⟨(stops_behaves.name hstops).2, fun hphase => hstops.eq_halted.trans (if_pos hphase)⟩
    next => exact ⟨rfl, fun _ => rfl⟩

theorem Applied.voluntary (happlied : Applied now c i entries c') :
    ∀ peer ∈ c.registry.voluntary, peer ∈ c'.registry.voluntary := by
  cases happlied with
  | adds | forgets => exact fun _ => id
  | stops => exact fun _ => List.mem_insert_of_mem

theorem Outcome.hasTable (houtcome : Outcome now c i entries c')
    (hord : c.registry.InOrder c.nextPeer) (htable : c.HasTable tableName) :
    c'.HasTable tableName := by
  cases houtcome with
  | ignored => exact htable
  | applied _ happlied =>
    obtain ⟨x, hx, hname⟩ := htable
    obtain ⟨x', hx', hsame, -⟩ := happlied.live hord hx
    exact ⟨x', hx', hsame.trans hname⟩

theorem Outcome.isLeaving (houtcome : Outcome now c i entries c')
    (hord : c.registry.InOrder c.nextPeer) (hleaving : c.IsLeaving tableName) :
    c'.IsLeaving tableName := by
  cases houtcome with
  | ignored => exact hleaving
  | applied _ happlied =>
    obtain ⟨x, hx, hname, hphase, hasked⟩ := hleaving
    obtain ⟨x', hx', -, hsame⟩ := happlied.live hord hx
    obtain rfl := hsame hphase
    exact ⟨x', hx', hname, hphase, happlied.voluntary _ hasked⟩

theorem Outcome.hasTable_of_add {table : TableSettings}
    (houtcome : Outcome now c (.add table) entries c') (happlies : c.Applies (.add table)) :
    c'.HasTable table.tableName := by
  cases houtcome with
  | ignored hnot => exact absurd happlies hnot
  | applied _ happlied =>
    cases happlied with
    | @adds _ _ h _ _ hname =>
      exact ⟨h, List.mem_append_left _ (List.mem_append_right _ (List.mem_singleton_self h)), hname⟩

theorem Outcome.isLeaving_of_remove (houtcome : Outcome now c (.remove tableName) entries c')
    (hlive : c.HasTable tableName) : c'.IsLeaving tableName := by
  obtain ⟨x, hx, hname⟩ := hlive
  cases houtcome with
  | ignored hnot => exact absurd ⟨x, List.mem_append_left _ hx, hname⟩ hnot
  | applied _ happlied =>
    cases happlied with
    | forgets hnone => exact absurd hname (hnone x hx)
    | @stops h h' _ hh hstops hphase =>
      obtain ⟨hpeer, hsame⟩ := stops_behaves.name hstops
      have hmem : h' ∈ (c.registry.mapLive fun x => if x.tableName = h.tableName then
          h' else x).live := by
        rw [live_mapLive]
        exact List.mem_map.2 ⟨h, hh, if_pos rfl⟩
      exact ⟨h', hmem, hsame, hphase, hpeer ▸ List.mem_insert_self⟩

/-- To add a table that has a live handler changes nothing. -/
theorem Outcome.add_again {table : TableSettings} (houtcome : Outcome now c (.add table) entries c')
    (htable : c.HasTable table.tableName) :
    c' = c ∧ entries = [⟨none, .reported (.instruction "add" "ignored")⟩] := by
  obtain ⟨x, hx, hname⟩ := htable
  cases houtcome with
  | ignored => exact ⟨rfl, rfl⟩
  | applied happlies => exact absurd hname (happlies.2 x hx)

/-- To remove a table that is leaving changes nothing. -/
theorem Outcome.remove_again (houtcome : Outcome now c (.remove tableName) entries c')
    (hord : c.registry.InOrder c.nextPeer) (hleaving : c.IsLeaving tableName) :
    c' = c ∧ entries = [⟨none, .reported (.instruction "remove" "applied")⟩] := by
  obtain ⟨x, hx, hname, hphase, hasked⟩ := hleaving
  cases houtcome with
  | ignored hnot => exact absurd ⟨x, List.mem_append_left _ hx, hname⟩ hnot
  | applied _ happlied =>
    cases happlied with
    | forgets hnone => exact absurd hname (hnone x hx)
    | @stops h h' did hh hstops =>
      obtain rfl := eq_of_nodup_map hord.live_names hh hx hname
      cases hstops with
      | stops _ hphase' => exact absurd hphase hphase'
      | isStopping =>
        have hsame : (c.registry.mapLive fun y => if y.tableName = x.tableName then x else y) =
            c.registry :=
          mapLive_id fun y hy => by
            split
            next hsame => exact (eq_of_nodup_map hord.live_names hx hy hsame).symm
            next => rfl
        rw [hsame, List.insert_of_mem hasked]
        exact ⟨rfl, rfl⟩

/-- An instruction repeats an earlier one: a table is to be added that was added, or one to be
removed whose live handler was asked to stop. -/
inductive Repeats (c : Controller) : Instruction → Instruction → Prop where
  | add {table table' : TableSettings} : c.Applies (.add table) →
      table'.tableName = table.tableName →
      Repeats c (.add table) (.add table')
  | remove {tableName : String} : c.HasTable tableName →
    Repeats c (.remove tableName) (.remove tableName)

/-- The instructions of a tick are carried out one after the other, each on what the others have
left.  An instruction is applied, and takes its effect, or it is ignored, and changes nothing; the
peer under which a handler begins is larger than all before.  To repeat an instruction in the same
tick changes nothing either. -/
theorem Run.carries_out_instructions (hrun : Run settings past c) :
    (∀ now entries instructed c', ((drainInstructions now).run c).Runs entries (instructed, c') →
      Outcomes now past { c with queue := c.queue.cleared } c.queue.pending entries c') ∧
    ∀ now before first c₁ i second c₂ between third c₃ j fourth c₄,
      ((carryOutAll now before).run { c with queue := c.queue.cleared }).Runs first ((), c₁) →
      ((carryOut now i).run c₁).Runs second ((), c₂) →
      ((carryOutAll now between).run c₂).Runs third ((), c₃) →
      ((carryOut now j).run c₃).Runs fourth ((), c₄) → Repeats c₁ i j →
      c₄ = c₃ ∧ ∃ said, fourth = [⟨none, .reported (.instruction j.kind said)⟩] := by
  obtain ⟨asked, hkept, -⟩ := hrun.knows
  refine ⟨fun now entries instructed c' hruns => ?_, ?_⟩
  · obtain ⟨-, hcarried⟩ := drainInstructions_iff.1 hruns
    obtain ⟨more, hcarries⟩ := carries_iff.1 hcarried
    have hcleared : Kept past (ledger { c with queue := c.queue.cleared } asked []) :=
      ⟨hkept.inOrder, hkept.chronicle⟩
    exact hcarries.outcomes hcleared
  · intro now before first c₁ i second c₂ between third c₃ j fourth c₄ hbefore hi
      hbetween hj hrepeats
    obtain ⟨more₁, hbefore⟩ := carries_iff.1 hbefore
    obtain ⟨more₃, hbetween⟩ := carries_iff.1 hbetween
    have hord₁ :=
      inOrder_of_works (hbefore.way (c := { c with queue := c.queue.cleared }) hkept.inOrder)
        hkept.inOrder
    have hord₂ := inOrder_of_works (carryOut_way hord₁ now i _ _ hi) hord₁
    have hord₃ := inOrder_of_works (hbetween.way hord₂) hord₂
    have hi := (carryOut_carriesOut hord₁ now i _ _ hi).outcome hord₁
    have hj := (carryOut_carriesOut hord₃ now j _ _ hj).outcome hord₃
    cases hrepeats with
    | add happlies hname =>
      have htable := hbetween.invariant hord₂ (fun _ _ _ _ hord houtcome => houtcome.hasTable hord)
        (hi.hasTable_of_add happlies)
      rw [← hname] at htable
      obtain ⟨hsame, hsaid⟩ := hj.add_again htable
      exact ⟨hsame, _, hsaid⟩
    | remove htable =>
      have hleaving :=
        hbetween.invariant hord₂ (fun _ _ _ _ hord houtcome => houtcome.isLeaving hord)
        (hi.isLeaving_of_remove htable)
      obtain ⟨hsame, hsaid⟩ := hj.remove_again hord₃ hleaving
      exact ⟨hsame, _, hsaid⟩

section Rehearsal

open Rehearsal

/-- The table is to be added and removed, both more than once. -/
def insistent : Performance World :=
  ((((rehearsedOpening.goOn world (submit (.add rehearsedTable))).goOn world
    (submit (.add rehearsedTable))).goOn world (submit (.remove "t"))).goOn world
    (submit (.remove "t"))).goOn world (submit (.add rehearsedTable))

theorem insistent_run : Run .small insistent.past insistent.controller := by
  have hopening : Performance.start? world 0 .small rehearsedWorld = some rehearsedOpening :=
    (Option.some_get _).symm
  have hrun := Performance.of_start? hopening
  exact Performance.run_submit
    (Performance.run_submit (Performance.run_submit (Performance.run_submit
    (Performance.run_submit hrun _) _) _) _) _

/-- The instructions that wait are carried out. -/
def insistentDrain : (Bool × Controller) × World × List Entry :=
  ((drainInstructions 0).run insistent.controller).perform world insistent.outside

/-- The first of them is carried out. -/
def addedOnce : (Unit × Controller) × World × List Entry :=
  ((carryOut 0 (.add rehearsedTable)).run
    { insistent.controller with queue := insistent.controller.queue.cleared }).perform world
      insistent.outside

/-- The second of them is carried out. -/
def addedTwice : (Unit × Controller) × World × List Entry :=
  ((carryOut 0 (.add rehearsedTable)).run addedOnce.1.2).perform world addedOnce.2.1

/-- The table is added once, and is leaving then; one peer is issued. -/
theorem instructions_rehearsed :
    Outcomes 0 insistent.past { insistent.controller with queue :=
      insistent.controller.queue.cleared }
      insistent.controller.queue.pending insistentDrain.2.2 insistentDrain.1.2 ∧
    insistent.controller.queue.pending =
      [.add rehearsedTable, .add rehearsedTable, .remove "t", .remove "t", .add rehearsedTable] ∧
    insistentDrain.1.2.registry.live.map (fun h => (h.peer, h.phase)) = [(.first, .stopping)] ∧
    insistentDrain.1.2.nextPeer = PeerId.first.next ∧ addedTwice.1.2 = addedOnce.1.2 := by
  have hdrains : ∀ p : Performance World, Run .small p.past p.controller →
      Outcomes 0 p.past { p.controller with queue := p.controller.queue.cleared }
        p.controller.queue.pending
        (((drainInstructions 0).run p.controller).perform world p.outside).2.2
        (((drainInstructions 0).run p.controller).perform world p.outside).1.2 := fun p hrun =>
    hrun.carries_out_instructions.1 0 _ _ _
      (Dialogue.perform_runs world ((drainInstructions 0).run p.controller) p.outside)
  refine ⟨?_, by decide +kernel, by decide +kernel, by decide +kernel, ?_⟩
  · unfold insistentDrain
    exact hdrains insistent insistent_run
  have happlies : Applies { insistent.controller with queue := insistent.controller.queue.cleared }
      (.add rehearsedTable) :=
    ⟨rfl, by decide +kernel⟩
  have hfirst := Dialogue.perform_runs world ((carryOut 0 (.add rehearsedTable)).run
    { insistent.controller with queue := insistent.controller.queue.cleared }) insistent.outside
  have hsecond :=
    Dialogue.perform_runs world ((carryOut 0 (.add rehearsedTable)).run addedOnce.1.2) addedOnce.2.1
  exact (insistent_run.carries_out_instructions.2 0 [] [] _ _ _ _ [] [] _ _ _ _ (.done _) hfirst
    (.done _) hsecond
    (.add happlies rfl)).1

end Rehearsal

end Controller

end ReplicaHandshake
