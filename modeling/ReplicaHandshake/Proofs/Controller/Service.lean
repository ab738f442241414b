import ReplicaHandshake.Proofs.Controller.Intake
import ReplicaHandshake.Proofs.Controller.Performed

/-!
# How instructions are served

What a step of an intake does to the instructions is said by two equations: what waits and what is
accepted is what is taken and what waits then (`Scene.Step.pending`), and what is held and what is
taken is what is carried out and what is held then (`Scene.Step.held`).  So of all that was accepted
nothing is lost, nothing comes twice, and the order is kept (`Intake.served`).

Every call and every instruction that is carried out gives one receipt (`Scene.Step.tally`); nothing
else does, since all other work is apart from the queue.  A call that has not returned yet still
owes its receipt, and so does the instruction that the controller holds; when all are over, the
counters are even (`Orderly.even`).
-/

namespace ReplicaHandshake.Controller

open Handler Registry Ledger

variable {c c' : Controller} {entries : List Entry} {settings : Settings}
  {past moments : List Moment} {s s' : Scene}

/-! ### Starting -/

theorem submitAll_fits (is : List Instruction) :
    Work.Records (submitAll is) c fun entries fitted c' =>
      (fitted = true ↔ c.queue.pending.length + is.length ≤ c.queue.capacity) ∧
      (fitted = true → entries = is.map (receipt · (answer true)) ∧
        c'.queue.capacity = c.queue.capacity ∧ c'.queue.pending = c.queue.pending ++ is) := by
  induction is generalizing c with
  | nil =>
    have hfits := c.queue.length_le
    simpa [submitAll] using hfits
  | cons i rest ih =>
    simp only [submitAll, Work.records_bind]
    refine (submit_records i).mono ?_
    rintro _ accepted _ ⟨rfl, haccepted, rfl⟩
    cases accepted with
    | true =>
      have hpending := InstructionQueue.pending_push haccepted.symm
      refine (ih (c := { c with queue := (c.queue.push i).2 })).mono ?_
      rintro second fitted c' ⟨hfits, hall⟩
      simp only [hpending, InstructionQueue.capacity_push, List.length_append,
        List.length_singleton, List.append_assoc] at hfits hall
      refine ⟨?_, fun hfitted => ?_⟩
      · rw [hfits, List.length_cons, Nat.add_comm rest.length, Nat.add_assoc]
      · obtain ⟨rfl, hcapacity, hpending'⟩ := hall hfitted
        exact ⟨rfl, hcapacity, hpending'⟩
    | false =>
      have hfull : ¬c.queue.pending.length < c.queue.capacity := fun hroom => by
        rw [InstructionQueue.push_eq_true_iff.2 hroom] at haccepted
        cases haccepted
      simp only [Bool.false_eq_true, if_false, Work.records_pure, List.length_cons, false_iff,
        false_implies, and_true]
      omega

theorem instructionCapacity_pos (hvalid : settings.validate = .ok ()) :
    1 ≤ settings.instructionCapacity := by
  unfold Settings.validate at hvalid
  split at hvalid
  · cases hvalid
  · omega

theorem allocate_eq_ok {capacity : Nat} {queue : InstructionQueue}
    (hfits : InstructionQueue.allocate capacity = .ok queue) : queue = .empty capacity := by
  unfold InstructionQueue.allocate Crash.unlessFits at hfits
  split at hfits <;> cases hfits
  rfl

/-- A controller that has started has room for its tables, and they wait in order. -/
theorem start_queues (instanceId : InstanceId) (settings : Settings) :
    (start instanceId settings).Records fun entries r => ∀ c, r = .ok c →
      1 ≤ settings.instructionCapacity ∧ c.queue.capacity = settings.instructionCapacity ∧
      c.queue.pending = settings.tables.map .add ∧
      entries = (settings.tables.map Instruction.add).map (receipt · (answer true)) := by
  unfold start
  split
  · simp
  next hvalid =>
  split
  · simp
  next queue hfits =>
    obtain rfl := allocate_eq_ok hfits
    have hpos := instructionCapacity_pos hvalid
    simp only [Dialogue.records_bind]
    refine Dialogue.Records.mono (submitAll_fits (settings.tables.map .add)
      (c := { settings, instanceId, queue := .empty settings.instructionCapacity })) ?_
    rintro entries ⟨fitted, c⟩ ⟨-, hall⟩
    cases fitted with
    | false => simp
    | true =>
      obtain ⟨rfl, hcapacity, hpending⟩ := hall rfl
      simp only [Bool.not_true, Bool.false_eq_true, if_false]
      split
      · simp
      · simp only [Dialogue.pure_eq, Dialogue.records_done, Except.ok.injEq, List.append_nil]
        rintro _ rfl
        refine ⟨hpos, ?_, hpending, trivial⟩
        rw [hcapacity]
        exact Nat.max_eq_left hpos

/-- A controller starts, if its settings are valid, no part of it is too large and its
tables have room. -/
theorem start_succeeds (instanceId : InstanceId) {queue : InstructionQueue} {timeout : Duration}
    (hvalid : settings.validate = .ok ())
    (hfits : InstructionQueue.allocate settings.instructionCapacity = .ok queue)
    (htimeout : settings.handshakeTimeoutDuration = .ok timeout)
    (hroom : settings.tables.length ≤ settings.instructionCapacity) :
    (start instanceId settings).Records fun _ r => ∃ c, r = .ok c := by
  obtain rfl := allocate_eq_ok hfits
  unfold start
  simp only [hvalid, hfits, htimeout, Dialogue.records_bind]
  refine Dialogue.Records.mono (submitAll_fits (settings.tables.map .add)
    (c := { settings, instanceId, queue := .empty settings.instructionCapacity })) ?_
  rintro entries ⟨fitted, c⟩ ⟨hfitted, -⟩
  obtain rfl : fitted = true := by
    rw [hfitted, List.length_map]
    simp only [InstructionQueue.empty, List.length_nil]
    omega
  simp

/-! ### Instructions in moments -/

namespace Deed

/-- The instructions that are accepted with a deed. -/
def accepted : Deed → List Instruction
  | started tables => tables.map .add
  | called i true => [i]
  | _ => []

/-- The instructions that are refused with a deed. -/
def refused : Deed → List Instruction
  | called i false => [i]
  | _ => []

/-- The instructions that are taken out of the queue with a deed. -/
def taken : Deed → List Instruction
  | took i => [i]
  | _ => []

/-- The instructions that have been carried out with a deed. -/
def carriedOut : Deed → List Instruction
  | carried i => [i]
  | _ => []

end Deed

/-- The instructions of these moments, in order. -/
def instructions (part : Deed → List Instruction) (moments : List Moment) : List Instruction :=
  moments.flatMap fun m => part m.deed

section

variable (part : Deed → List Instruction)

@[simp] theorem instructions_nil : instructions part [] = [] := rfl

@[simp] theorem instructions_cons (m : Moment) (moments : List Moment) :
    instructions part (m :: moments) = part m.deed ++ instructions part moments :=
  List.flatMap_cons

theorem instructions_eq (moments : List Moment) :
    instructions part moments = (moments.map (·.deed)).flatMap part := by
  rw [instructions, List.flatMap_map]

@[simp] theorem instructions_append (first second : List Moment) :
    instructions part (first ++ second) = instructions part first ++ instructions part second :=
  List.flatMap_append

end

/-- How many of these instructions are of a kind. -/
def ofKind (kind : String) (is : List Instruction) : Nat :=
  is.countP (·.kind = kind)

@[simp] theorem ofKind_append (kind : String) (is js : List Instruction) :
    ofKind kind (is ++ js) = ofKind kind is + ofKind kind js :=
  List.countP_append

@[simp] theorem ofKind_nil (kind : String) : ofKind kind [] = 0 := rfl

@[simp] theorem ofKind_single (kind : String) (i : Instruction) :
    ofKind kind [i] = if i.kind = kind then 1 else 0 := by
  simp [ofKind, List.countP_cons]

/-- How often something was reported about instructions of a kind. -/
def tally (kind outcome : String) (entries : List Entry) : Nat :=
  (metricsOf entries).count (.instruction kind outcome)

@[simp] theorem tally_nil (kind outcome : String) : tally kind outcome [] = 0 := rfl

@[simp] theorem tally_append (kind outcome : String) (first second : List Entry) :
    tally kind outcome (first ++ second) =
      tally kind outcome first + tally kind outcome second := by
  rw [tally, metricsOf, List.filterMap_append, List.count_append]
  rfl

theorem tally_of_noReceipts {kind outcome : String} (hquiet : NoReceipts (happenings entries)) :
    tally kind outcome entries = 0 := by
  rw [tally, List.count_eq_zero]
  intro hmem
  obtain ⟨e, he, hmetric⟩ := List.mem_filterMap.1 hmem
  have hnone := hquiet e.happening (List.mem_map_of_mem he)
  split at hmetric
  next heq =>
    cases hmetric
    rw [heq] at hnone
    cases hnone
  next => cases hmetric

@[simp] theorem tally_receipt (kind outcome : String) (i : Instruction) (o : String) :
    tally kind outcome [receipt i o] = if i.kind = kind ∧ o = outcome then 1 else 0 := by
  simp [tally, metricsOf, receipt, List.count_singleton]

theorem tally_receipts (kind outcome o : String) (is : List Instruction) :
    tally kind outcome (is.map (receipt · o)) = if o = outcome then ofKind kind is else 0 := by
  induction is with
  | nil => simp
  | cons i rest ih =>
    rw [List.map_cons, ← List.singleton_append, tally_append, tally_receipt,
      ih, ← List.singleton_append (l := rest), ofKind_append, ofKind_single]
    by_cases ho : o = outcome <;> simp [ho]

/-- The calls about instructions of a kind that have this answer, and have not reported it yet. -/
def owed (kind : String) (accepted : Bool) (returning : List (Instruction × Bool)) : Nat :=
  returning.countP fun r => r.1.kind = kind ∧ r.2 = accepted

@[simp] theorem owed_nil (kind : String) (accepted : Bool) : owed kind accepted [] = 0 := rfl

@[simp] theorem owed_cons (kind : String) (accepted : Bool) (i : Instruction) (b : Bool)
    (rest : List (Instruction × Bool)) :
    owed kind accepted ((i, b) :: rest) = owed kind accepted rest + if i.kind = kind ∧
      b = accepted then 1 else 0 := by
  simp [owed, List.countP_cons]

@[simp] theorem owed_append (kind : String) (accepted : Bool)
    (first second : List (Instruction × Bool)) :
    owed kind accepted (first ++ second) = owed kind accepted first + owed kind accepted second :=
  List.countP_append

/-! ### Steps -/

theorem Scene.Step.single (hstep : Step s moments s') : ∃ m, moments = [m] := by
  cases hstep <;> exact ⟨_, rfl⟩

theorem Scene.Step.inOrder (hstep : Step s moments s')
    (hord : s.controller.registry.InOrder s.controller.nextPeer) :
    s'.controller.registry.InOrder s'.controller.nextPeer := by
  cases hstep with
  | calls | returns | begins | takes | exhausts => exact hord
  | carries hruns =>
    have hledger : (Controller.ledger _ [] []).InOrder := hord
    exact inOrder_of_works (carryOut_way hledger _ _ _ _ hruns) hledger
  | ends hdrives => exact (hdrives.apart hord).2
  | closes hruns =>
    have hledger : (Controller.ledger _ [] []).InOrder := hord
    rw [(close_way hledger _ _ hruns).2]
    exact inOrder_empty _

/-- What waits, and what is accepted, is what is taken, and what waits then. -/
theorem Scene.Step.pending (hstep : Step s moments s')
    (hord : s.controller.registry.InOrder s.controller.nextPeer) :
    s'.controller.queue.capacity = s.controller.queue.capacity ∧
    s.controller.queue.pending ++ instructions Deed.accepted moments =
      instructions Deed.taken moments ++ s'.controller.queue.pending := by
  cases hstep with
  | calls c stage returning i =>
    refine ⟨InstructionQueue.capacity_push .., ?_⟩
    cases haccepted : (c.queue.push i).1 with
    | true => simp [Deed.accepted, Deed.taken, InstructionQueue.pending_push haccepted]
    | false => simp [Deed.accepted, Deed.taken, InstructionQueue.push_eq_self haccepted]
  | returns | begins | exhausts => exact ⟨rfl, List.append_nil _⟩
  | takes hpop =>
    obtain ⟨hpending, hcapacity⟩ := InstructionQueue.pop?_eq_some_iff.1 hpop
    exact ⟨hcapacity, by simp [Deed.accepted, Deed.taken, hpending]⟩
  | carries hruns =>
    have hqueue := (carryOut_blind _ _).queue hruns
    exact ⟨congrArg _ hqueue, by simp [Deed.accepted, Deed.taken, hqueue]⟩
  | ends hdrives =>
    have hqueue := (hdrives.apart hord).1.queue
    exact ⟨congrArg _ hqueue, by simp [Deed.accepted, Deed.taken, hqueue]⟩
  | closes hruns =>
    have hqueue := (close_apart hord _ _ hruns).queue
    simp only at hqueue
    exact ⟨congrArg _ hqueue, by simp [Deed.accepted, Deed.taken, hqueue]⟩

/-- What is held, and what is taken, is what is carried out, and what is held then. -/
theorem Scene.Step.held (hstep : Step s moments s') :
    s.stage.held ++ instructions Deed.taken moments =
      instructions Deed.carriedOut moments ++ s'.stage.held := by
  cases hstep with
  | calls | returns => exact List.append_nil _
  | begins | takes | carries | exhausts | ends | closes => rfl

theorem answer_eq (accepted : Bool) :
    (answer accepted = "accepted" ↔ accepted = true) ∧
      (answer accepted = "rejected" ↔ accepted = false) ∧
      answer accepted ≠ "applied" ∧ answer accepted ≠ "ignored" := by
  cases accepted <;> simp [answer]

/-- What is reported in a step. -/
theorem Scene.Step.tally (hstep : Step s moments s')
    (hord : s.controller.registry.InOrder s.controller.nextPeer) (kind : String) :
    tally kind "accepted" (entriesOf moments) + owed kind true s'.returning =
      owed kind true s.returning + ofKind kind (instructions Deed.accepted moments) ∧
    tally kind "rejected" (entriesOf moments) + owed kind false s'.returning =
      owed kind false s.returning + ofKind kind (instructions Deed.refused moments) ∧
    tally kind "applied" (entriesOf moments) + tally kind "ignored" (entriesOf moments) =
      ofKind kind (instructions Deed.carriedOut moments) := by
  have apart : ∀ {c c' : Controller} {entries : List Entry} (outcome : String), Apart c entries c' →
      Controller.tally kind outcome entries = 0 :=
    fun _ h => tally_of_noReceipts h.quiet
  cases hstep with
  | calls c stage returning i =>
    cases (c.queue.push i).1
    all_goals simp [Deed.accepted, Deed.refused, Deed.carriedOut]
  | returns c stage before after i accepted =>
    simp only [entriesOf_cons, entriesOf_nil, List.append_nil, tally_receipt, answer_eq,
      owed_append, owed_cons, instructions_cons, instructions_nil, Deed.accepted, Deed.refused,
      Deed.carriedOut, ofKind_nil, and_false,
      if_false, Nat.add_zero, and_true]
    exact ⟨by ac_rfl, by ac_rfl⟩
  | begins | takes | exhausts => simp [Deed.accepted, Deed.refused, Deed.carriedOut]
  | carries hruns =>
    obtain ⟨did, applied, rfl, hapart⟩ := carryOut_settles hord _ _ _ _ hruns
    cases applied
    all_goals simp [Deed.accepted, Deed.refused, Deed.carriedOut, apart _ hapart, effect]
  | ends hdrives =>
    simp [Deed.accepted, Deed.refused, Deed.carriedOut, apart _ (hdrives.apart hord).1]
  | closes hruns =>
    simp [Deed.accepted, Deed.refused, Deed.carriedOut, apart _ (close_apart hord _ _ hruns)]

/-- A controller does not tick, or is through with the instructions of its tick. -/
def Stage.isThrough : Stage → Bool
  | idle | driving _ => true
  | taking _ | holding _ _ => false

/-- A controller is through with its instructions only after it has found none. -/
theorem Scene.Step.through {m : Moment} (hstep : Step s [m] s') (hthrough : s'.stage.isThrough) :
    m.deed ≠ .begun ∧
      (s.stage.isThrough ∨ s.controller.queue.pending = [] ∧ s.stage.held = []) := by
  cases hstep with
  | calls | returns => exact ⟨Deed.noConfusion, .inl hthrough⟩
  | begins | takes | carries => cases hthrough
  | exhausts hpop => exact ⟨Deed.noConfusion, .inr ⟨InstructionQueue.pop?_eq_none_iff.1 hpop, rfl⟩⟩
  | ends | closes => exact ⟨Deed.noConfusion, .inl rfl⟩

/-! ### Intakes -/

theorem Intake.inOrder (hintake : Intake settings past s) :
    s.controller.registry.InOrder s.controller.nextPeer := by
  induction hintake with
  | start hruns => exact (Run.start hruns).inOrder
  | goesOn _ hstep ih => exact hstep.inOrder ih

theorem Intake.capacity (hintake : Intake settings past s) :
    1 ≤ settings.instructionCapacity ∧
      s.controller.queue.capacity = settings.instructionCapacity := by
  induction hintake with
  | start hruns =>
    obtain ⟨hpos, hcapacity, -⟩ := start_queues _ _ _ _ hruns _ rfl
    exact ⟨hpos, hcapacity⟩
  | goesOn hintake hstep ih => exact ⟨ih.1, (hstep.pending hintake.inOrder).1.trans ih.2⟩

theorem Intake.initial (hintake : Intake settings past s) :
    settings.tables.map .add <+: instructions Deed.accepted past := by
  induction hintake with
  | start => simp [Deed.accepted]
  | goesOn _ _ ih =>
    rw [instructions_append]
    exact ih.trans (List.prefix_append ..)

/-- What was accepted was taken or waits. -/
theorem Intake.pending (hintake : Intake settings past s) :
    instructions Deed.accepted past =
      instructions Deed.taken past ++ s.controller.queue.pending := by
  induction hintake with
  | start hruns =>
    obtain ⟨-, -, hpending, -⟩ := start_queues _ _ _ _ hruns _ rfl
    simp [Deed.accepted, Deed.taken, hpending]
  | goesOn hintake hstep ih =>
    rw [instructions_append, instructions_append, ih, List.append_assoc, List.append_assoc,
      (hstep.pending hintake.inOrder).2]

/-- What was taken was carried out or is held. -/
theorem Intake.held (hintake : Intake settings past s) :
    instructions Deed.taken past = instructions Deed.carriedOut past ++ s.stage.held := by
  induction hintake with
  | start => rfl
  | goesOn _ hstep ih =>
    rw [instructions_append, instructions_append, ih, List.append_assoc,
      List.append_assoc, hstep.held]

theorem Intake.served (hintake : Intake settings past s) :
    instructions Deed.accepted past =
      instructions Deed.carriedOut past ++ s.stage.held ++ s.controller.queue.pending := by
  rw [hintake.pending, hintake.held]

/-- When a tick is through with its instructions, all that was accepted before it began has
been carried out. -/
theorem Intake.prompt (hintake : Intake settings past s) {before after : List Moment}
    {begun : Moment} (hpast : past = before ++ begun :: after) (hbegun : begun.deed = .begun)
    (hthrough : s.stage.isThrough) :
    instructions Deed.accepted before <+: instructions Deed.carriedOut past := by
  induction hintake generalizing after with
  | start =>
    have hmem : begun ∈ before ++ begun :: after := List.mem_append_right _ List.mem_cons_self
    rw [← hpast, List.mem_singleton] at hmem
    rw [hmem] at hbegun
    cases hbegun
  | @goesOn past moments s s' hintake hstep ih =>
    obtain ⟨m, rfl⟩ := hstep.single
    obtain ⟨hother, hbefore⟩ := hstep.through hthrough
    obtain rfl | ⟨front, last, rfl⟩ := after.eq_nil_or_concat
    · obtain ⟨-, rfl⟩ := List.append_inj' hpast rfl |>.imp_right List.singleton_inj.1
      exact absurd hbegun hother
    · rw [List.concat_eq_append, ← List.cons_append, ← List.append_assoc] at hpast
      obtain ⟨hpast, -⟩ := List.append_inj' hpast rfl
      rw [instructions_append]
      obtain hbefore | ⟨hpending, hheld⟩ := hbefore
      · exact (ih hpast hbefore).trans (List.prefix_append ..)
      · have hserved := hintake.served
        rw [hpending, hheld, List.append_nil, List.append_nil] at hserved
        rw [← hserved, hpast, instructions_append, List.append_assoc]
        exact List.prefix_append ..

/-- The counters of instructions agree with what became of them. -/
theorem Intake.tallies (hintake : Intake settings past s) (kind : String) :
    tally kind "accepted" (entriesOf past) + owed kind true s.returning =
      ofKind kind (instructions Deed.accepted past) ∧
    tally kind "rejected" (entriesOf past) + owed kind false s.returning =
      ofKind kind (instructions Deed.refused past) ∧
    tally kind "applied" (entriesOf past) + tally kind "ignored" (entriesOf past) =
      ofKind kind (instructions Deed.carriedOut past) := by
  induction hintake with
  | start hruns =>
    obtain ⟨-, -, -, rfl⟩ := start_queues _ _ _ _ hruns _ rfl
    simp [-List.map_map, tally_receipts, Deed.accepted, Deed.refused, Deed.carriedOut,
      owed, answer_eq]
  | goesOn hintake hstep ih =>
    obtain ⟨haccepted, hrefused, hcarried⟩ := hstep.tally hintake.inOrder kind
    simp only [entriesOf_append, tally_append, instructions_append, ofKind_append]
    omega

/-! ### How instructions are served -/

/-- To submit an instruction now is answered with yes exactly if there is room, and then it waits
behind all others; where the answer is no, nothing changes. -/
def Answers (settings : Settings) (c : Controller) : Prop :=
  ∀ i entries accepted c', ((submit i).run c).Runs entries (accepted, c') →
    (accepted = true ↔ c.queue.pending.length < settings.instructionCapacity) ∧
    (accepted = true → c'.queue.pending = c.queue.pending ++ [i] ∧
      c' = { c with queue := c'.queue }) ∧
    (accepted = false → c' = c)

theorem answers_of_capacity (hcapacity : c.queue.capacity = settings.instructionCapacity) :
    Answers settings c := by
  intro i entries accepted c' hruns
  obtain ⟨-, rfl, rfl⟩ := submit_records i _ _ hruns
  refine ⟨by rw [InstructionQueue.push_eq_true_iff,
    hcapacity], fun haccepted => ?_, fun hrefused => ?_⟩
  · exact ⟨InstructionQueue.pending_push haccepted, rfl⟩
  · rw [InstructionQueue.push_eq_self hrefused]

/-- A call is answered as if it were made there and then. -/
theorem Scene.Step.called {i : Instruction} {accepted : Bool}
    (hstep : Step s [⟨.called i accepted, entries⟩] s') :
    ∃ whole, ((submit i).run s.controller).Runs whole (accepted, s'.controller) := by
  cases hstep with
  | calls c =>
    obtain ⟨whole, ⟨accepted, c'⟩, hruns⟩ := Dialogue.exists_runs ((submit i).run c)
    obtain ⟨-, rfl, rfl⟩ := submit_records i _ _ hruns
    exact ⟨whole, hruns⟩

/-- How instructions fare. -/
structure Orderly (settings : Settings) (past : List Moment) (s : Scene) : Prop where
  answers : Answers settings s.controller
  called : ∀ i accepted entries s', Scene.Step s [⟨.called i accepted, entries⟩] s' →
    ∃ whole, ((submit i).run s.controller).Runs whole (accepted, s'.controller)
  bounded : 1 ≤ settings.instructionCapacity ∧
    s.controller.queue.pending.length ≤ settings.instructionCapacity
  initial : settings.tables.map .add <+: instructions Deed.accepted past
  /-- What was accepted has been carried out, or is being carried out, or waits, in this order. -/
  served : instructions Deed.accepted past =
    instructions Deed.carriedOut past ++ s.stage.held ++ s.controller.queue.pending
  /-- After a tick all that was accepted before it began has been carried out. -/
  prompt : ∀ before begun after, past = before ++ begun :: after → begun.deed = .begun →
    s.stage.isThrough →
    instructions Deed.accepted before <+: instructions Deed.carriedOut past
  /-- The counters say what was accepted, refused and carried out, but for the calls that have
  yet to report. -/
  reported : ∀ kind,
    tally kind "accepted" (entriesOf past) + owed kind true s.returning =
      ofKind kind (instructions Deed.accepted past) ∧
    tally kind "rejected" (entriesOf past) + owed kind false s.returning =
      ofKind kind (instructions Deed.refused past) ∧
    tally kind "applied" (entriesOf past) + tally kind "ignored" (entriesOf past) =
      ofKind kind (instructions Deed.carriedOut past)
  /-- Whatever is accepted is applied or ignored, or about to be. -/
  balanced : ∀ kind, tally kind "accepted" (entriesOf past) + owed kind true s.returning =
    tally kind "applied" (entriesOf past) + tally kind "ignored" (entriesOf past) +
      ofKind kind s.stage.held + ofKind kind s.controller.queue.pending
  /-- When all calls and ticks are over, the counters are even. -/
  even : s.stage = .idle → s.returning = [] → ∀ kind,
    tally kind "accepted" (entriesOf past) = tally kind "applied" (entriesOf past) +
      tally kind "ignored" (entriesOf past) + ofKind kind s.controller.queue.pending ∧
    tally kind "rejected" (entriesOf past) = ofKind kind (instructions Deed.refused past)

theorem Intake.balanced (hintake : Intake settings past s) (kind : String) :
    tally kind "accepted" (entriesOf past) + owed kind true s.returning =
      tally kind "applied" (entriesOf past) + tally kind "ignored" (entriesOf past) +
        ofKind kind s.stage.held + ofKind kind s.controller.queue.pending := by
  obtain ⟨haccepted, -, hcarried⟩ := hintake.tallies kind
  rw [haccepted, hcarried, hintake.served, ofKind_append, ofKind_append]

theorem Intake.orderly (hintake : Intake settings past s) : Orderly settings past s where
  answers := answers_of_capacity hintake.capacity.2
  called _ _ _ _ := Scene.Step.called
  bounded := ⟨hintake.capacity.1, hintake.capacity.2 ▸ s.controller.queue.length_le⟩
  initial := hintake.initial
  served := hintake.served
  prompt _ _ _ := hintake.prompt
  reported := hintake.tallies
  balanced := hintake.balanced
  even hidle hreturned kind := by
    have haccepted := hintake.balanced kind
    have hrejected := (hintake.tallies kind).2.1
    rw [hreturned] at haccepted hrejected
    rw [hidle] at haccepted
    exact ⟨haccepted, hrejected⟩

/-- A controller starts if there is room for its tables; all that it does is an intake; and in every
intake, whoever submits instructions and whenever, they are served in order, each one once, and the
counters say so. -/
theorem serves_instructions (settings : Settings) :
    (∀ instanceId queue timeout, settings.validate = .ok () →
      InstructionQueue.allocate settings.instructionCapacity = .ok queue →
      settings.handshakeTimeoutDuration = .ok timeout →
      settings.tables.length ≤ settings.instructionCapacity →
      (∃ entries c, (start instanceId settings).Runs entries (.ok c)) ∧
        (start instanceId settings).Records fun _ r => ∃ c, r = .ok c) ∧
    (∀ past c, Run settings past c →
      ∃ moments, Intake settings moments ⟨c, .idle, []⟩ ∧ entriesOf moments = past) ∧
    ∀ past s, Intake settings past s → Orderly settings past s := by
  refine ⟨fun instanceId queue timeout hvalid hfits htimeout hroom => ?_, fun _ _ hrun =>
    hrun.intake,
    fun _ _ hintake => hintake.orderly⟩
  have hsucceeds := start_succeeds instanceId hvalid hfits htimeout hroom
  obtain ⟨entries, r, hruns⟩ := Dialogue.exists_runs (start instanceId settings)
  obtain ⟨c, rfl⟩ := hsucceeds entries r hruns
  exact ⟨⟨entries, c, hruns⟩, hsucceeds⟩

/-- Settings with a single place in the queue, and a table that takes it. -/
def narrow : Settings :=
  { Settings.small with instructionCapacity := 1, tables := [rehearsedTable] }

theorem exists_carries (c : Controller) (now : Instant) (i : Instruction)
    (returning : List (Instruction × Bool)) :
    ∃ entries c', Scene.Step ⟨c, .holding now i, returning⟩ [⟨.carried i, entries⟩]
      ⟨c', .taking now, returning⟩ ∧
      c'.queue = c.queue := by
  obtain ⟨entries, ⟨⟨⟩, c'⟩, hruns⟩ := Dialogue.exists_runs ((carryOut now i).run c)
  exact ⟨entries, c', .carries hruns, (carryOut_blind now i).queue hruns⟩

theorem exists_ends (c : Controller) (now : Instant) (returning : List (Instruction × Bool)) :
    ∃ entries c', Scene.Step ⟨c, .driving now, returning⟩
      [⟨.ended, entries⟩] ⟨c', .idle, returning⟩ := by
  obtain ⟨_, ⟨_, c₁⟩, hheard⟩ := Dialogue.exists_runs (drainDisconnections.run c)
  obtain ⟨_, ⟨_, c₂⟩, hpolled⟩ := Dialogue.exists_runs ((pollHandlers now).run c₁)
  obtain ⟨_, ⟨_, c₃⟩, hpromoted⟩ := Dialogue.exists_runs (promoteHandlers.run c₂)
  obtain ⟨_, ⟨_, c₄⟩, hreaped⟩ := Dialogue.exists_runs ((onRegistry reap).run c₃)
  obtain ⟨_, ⟨⟨⟩, c'⟩, hcounted⟩ := Dialogue.exists_runs (reportCounts.run c₄)
  exact ⟨_, c', .ends (.intro hheard hpolled hpromoted hreaped hcounted)⟩

/-- Someone asks to remove the table at once, and there is no room; while the table is being
added there is. -/
def rush : List Deed :=
  [.started [rehearsedTable], .called (.remove "t") false, .begun, .took (.add rehearsedTable),
    .called (.remove "t") true, .carried (.add rehearsedTable), .took (.remove "t"), .carried
      (.remove "t"),
    .exhausted, .ended, .returned (.remove "t") true, .returned (.remove "t") false]

theorem exists_rush {c : Controller} (hstart : (start ⟨1⟩ narrow).Runs entries (.ok c)) :
    ∃ past s, Intake narrow past s ∧ s.stage = .idle ∧ s.returning = [] ∧
      past.map (·.deed) = rush := by
  obtain ⟨-, hcapacity, hpending, -⟩ := start_queues _ _ _ _ hstart c rfl
  have hrefused : (c.queue.push (.remove "t")).1 = false := by
    rw [← Bool.not_eq_true, InstructionQueue.push_eq_true_iff, hcapacity, hpending]
    decide
  have h₁ := (Intake.start hstart).goesOn (.calls c .idle [] (.remove "t"))
  rw [InstructionQueue.push_eq_self hrefused, hrefused] at h₁
  have h₂ := h₁.goesOn (.begins c (0 : Nat) _)
  have hfree : 0 < c.queue.capacity := hcapacity ▸ Nat.one_pos
  have hpop : c.queue.pop? = some (.add rehearsedTable, c.queue.cleared) :=
    InstructionQueue.pop?_eq_some_iff.2 ⟨hpending, rfl⟩
  have h₃ := h₂.goesOn (.takes hpop)
  have haccepted : (c.queue.cleared.push (.remove "t")).1 = true :=
    InstructionQueue.push_eq_true_iff.2 hfree
  have hwaits := InstructionQueue.pending_push haccepted
  have h₄ := h₃.goesOn (.calls _ _ _ (.remove "t"))
  rw [haccepted] at h₄
  obtain ⟨first, c₁, hcarries, hqueue⟩ := exists_carries
    { c with queue := (c.queue.cleared.push (.remove "t")).2 } (0 : Nat) (.add rehearsedTable) _
  have h₅ := h₄.goesOn hcarries
  have hpop₁ : c₁.queue.pop? = some (.remove "t", c₁.queue.cleared) :=
    InstructionQueue.pop?_eq_some_iff.2 ⟨by rw [hqueue]; exact hwaits, rfl⟩
  have h₆ := h₅.goesOn (.takes hpop₁)
  obtain ⟨second, c₂, hcarries₁, hqueue₁⟩ :=
    exists_carries { c₁ with queue := c₁.queue.cleared } (0 : Nat)
    (.remove "t") _
  have h₇ := h₆.goesOn hcarries₁
  have hnone : c₂.queue.pop? = none := InstructionQueue.pop?_eq_none_iff.2 (by rw [hqueue₁]; rfl)
  have h₈ := h₇.goesOn (.exhausts hnone)
  obtain ⟨driven, c₃, hends⟩ := exists_ends c₂ (0 : Nat) _
  have h₉ := (h₈.goesOn hends).goesOn (.returns c₃ .idle [] _ (.remove "t") true)
  exact ⟨_, _, h₉.goesOn (.returns c₃ .idle [] [] (.remove "t") false), rfl, rfl, rfl⟩

/-- Of two calls to remove the table the first is refused, as there is no room; the second is made
while the table is being added, and is carried out by the same tick. -/
theorem service_rehearsed : ∃ entries c, Run narrow entries c ∧
    (∃ moments, Intake narrow moments ⟨c, .idle, []⟩ ∧ entriesOf moments = entries) ∧
    ∃ past s, Intake narrow past s ∧ s.stage = .idle ∧ s.returning = [] ∧ past.map (·.deed) = rush ∧
      s.controller.queue.pending = [] ∧ tally "add" "accepted" (entriesOf past) = 1 ∧
      tally "remove" "accepted" (entriesOf past) = 1 ∧
        tally "remove" "rejected" (entriesOf past) = 1 := by
  obtain ⟨hstarts, hruns, horderly⟩ := serves_instructions narrow
  obtain ⟨⟨entries, c, hstart⟩, -⟩ := hstarts ⟨1⟩ (.empty 1) (.ofSeconds 5) rfl rfl rfl (by decide)
  obtain ⟨past, s, hintake, hidle, hreturned, hdeeds⟩ := exists_rush hstart
  have hkept := horderly past s hintake
  have hparts : ∀ part, instructions part past = rush.flatMap part := by
    intro part
    rw [instructions_eq, hdeeds]
  have hserved := hkept.served
  have haccepted := fun kind => (hkept.reported kind).1
  have hrejected := (hkept.reported "remove").2.1
  simp only [hparts, hidle, hreturned, owed_nil, Nat.add_zero] at hserved haccepted hrejected
  refine ⟨entries, c, .start hstart, hruns entries c (.start hstart), past, s, hintake, hidle,
    hreturned, hdeeds, ?_, ?_, ?_, ?_⟩
  · exact List.append_cancel_left (hserved.symm.trans (List.append_nil _).symm)
  · rw [haccepted]
    decide
  · rw [haccepted]
    decide
  · rw [hrejected]
    decide

end ReplicaHandshake.Controller
