import ReplicaHandshake.Proofs.Controller.Apart
import ReplicaHandshake.Proofs.Controller.Run

/-!
# The intake of instructions

Anyone may submit instructions at any time, also while the controller is ticking.  A `Scene` is a
controller at some point of its work (`Stage`), and the calls that are under way; a `Scene.Step` is
what is done at once:

* a call puts its instruction into the queue, or is refused, and reports that later,
  before it returns;
* a tick takes one instruction out of the queue and carries it out, until it finds the queue empty,
  and does the rest of its work then.

The steps of the callers and those of the controller come in any order.  What does not touch the
queue is one step:  a call that falls into it might as well come before.

Each step leaves a `Moment` behind.  An operation that no call falls into is made of these steps as
well (`submit_scenes`, `tick_scenes`), so every run of a controller is an intake (`Run.intake`).
-/

namespace ReplicaHandshake.Controller

open Handler Registry Ledger

variable {c c' : Controller} {entries : List Entry}

/-! ### Scenes -/

/-- Where a controller is in its work. -/
inductive Stage where
  | idle
  /-- In a tick, about to take the next instruction. -/
  | taking (now : Instant)
  /-- In a tick, about to carry out an instruction that was taken. -/
  | holding (now : Instant) (i : Instruction)
  /-- In a tick that has found the queue empty. -/
  | driving (now : Instant)

/-- The instruction that was taken and not carried out yet. -/
def Stage.held : Stage → List Instruction
  | holding _ i => [i]
  | _ => []

/-- A controller at work, and its callers. -/
structure Scene where
  controller : Controller
  stage : Stage
  /-- The calls that have been answered and have not reported it yet. -/
  returning : List (Instruction × Bool)

/-- What is done at once. -/
inductive Deed where
  /-- The controller was started with these tables. -/
  | started (tables : List TableSettings)
  /-- A call was answered. -/
  | called (i : Instruction) (accepted : Bool)
  /-- A call has reported its answer, and is over. -/
  | returned (i : Instruction) (accepted : Bool)
  /-- A tick has begun. -/
  | begun
  /-- An instruction was taken out of the queue. -/
  | took (i : Instruction)
  /-- The instruction that was taken has been carried out. -/
  | carried (i : Instruction)
  /-- The queue was found empty. -/
  | exhausted
  /-- A tick is over. -/
  | ended
  /-- The controller was closed. -/
  | closed
deriving DecidableEq

/-- A deed, and the entries that it leaves behind. -/
structure Moment where
  deed : Deed
  entries : List Entry

/-- All that these moments leave behind. -/
def entriesOf (moments : List Moment) : List Entry :=
  moments.flatMap (·.entries)

@[simp] theorem entriesOf_nil : entriesOf [] = [] := rfl

@[simp] theorem entriesOf_cons (m : Moment) (moments : List Moment) :
    entriesOf (m :: moments) = m.entries ++ entriesOf moments := List.flatMap_cons

@[simp] theorem entriesOf_append (first second : List Moment) :
    entriesOf (first ++ second) = entriesOf first ++ entriesOf second := List.flatMap_append

/-- The label of a call that was answered. -/
def answer (accepted : Bool) : String :=
  if accepted then "accepted" else "rejected"

/-- One step of the controller or of a caller. -/
inductive Scene.Step : Scene → List Moment → Scene → Prop where
  | calls (c : Controller) (stage : Stage) (returning : List (Instruction × Bool))
      (i : Instruction) :
      Step ⟨c, stage, returning⟩ [⟨.called i (c.queue.push i).1, []⟩]
        ⟨{ c with queue := (c.queue.push i).2 }, stage, (i, (c.queue.push i).1) :: returning⟩
  | returns (c : Controller) (stage : Stage) (before after : List (Instruction × Bool))
      (i : Instruction) (accepted : Bool) :
      Step ⟨c, stage, before ++ (i, accepted) :: after⟩
        [⟨.returned i accepted, [receipt i (answer accepted)]⟩]
        ⟨c, stage, before ++ after⟩
  | begins (c : Controller) (now : Instant) (returning : List (Instruction × Bool)) :
      Step ⟨c, .idle, returning⟩ [⟨.begun, []⟩] ⟨c, .taking now, returning⟩
  | takes {c : Controller} {now : Instant} {returning : List (Instruction × Bool)} {i : Instruction}
      {queue : InstructionQueue} : c.queue.pop? = some (i, queue) →
      Step ⟨c, .taking now, returning⟩ [⟨.took i, []⟩] ⟨{ c with queue }, .holding now i, returning⟩
  | carries {c c' : Controller} {now : Instant} {returning : List (Instruction × Bool)}
      {i : Instruction}
      {entries : List Entry} : ((carryOut now i).run c).Runs entries ((), c') →
      Step ⟨c, .holding now i, returning⟩ [⟨.carried i, entries⟩] ⟨c', .taking now, returning⟩
  | exhausts {c : Controller} {now : Instant} {returning : List (Instruction × Bool)} :
      c.queue.pop? = none →
      Step ⟨c, .taking now, returning⟩ [⟨.exhausted, []⟩] ⟨c, .driving now, returning⟩
  | ends {c c' : Controller} {now : Instant} {returning : List (Instruction × Bool)}
      {entries : List Entry} :
      Drives c now entries c' →
      Step ⟨c, .driving now, returning⟩ [⟨.ended, entries⟩] ⟨c', .idle, returning⟩
  | closes {c c' : Controller} {returning : List (Instruction × Bool)} {entries : List Entry} :
      (close.run c).Runs entries ((), c') →
      Step ⟨c, .idle, returning⟩ [⟨.closed, entries⟩] ⟨c', .idle, returning⟩

/-- What a controller and its callers have come to since its start, and in which moments. -/
inductive Intake (settings : Settings) : List Moment → Scene → Prop where
  | start {instanceId : InstanceId} {entries : List Entry} {c : Controller} :
      (start instanceId settings).Runs entries (.ok c) →
      Intake settings [⟨.started settings.tables, entries⟩] ⟨c, .idle, []⟩
  | goesOn {past moments : List Moment} {s s' : Scene} :
      Intake settings past s → Scene.Step s moments s' → Intake settings (past ++ moments) s'

theorem Intake.of_way {settings : Settings} {past moments : List Moment} {s s' : Scene}
    (hintake : Intake settings past s) (hway : Way Scene.Step s moments s') :
    Intake settings (past ++ moments) s' :=
  hway.invariant (fun _ _ _ _ hintake hstep => hintake.goesOn hstep) hintake

/-! ### Calls and ticks as steps -/

theorem submit_records (i : Instruction) : Work.Records (submit i) c fun entries accepted c' =>
    entries = [receipt i (answer accepted)] ∧ accepted = (c.queue.push i).1 ∧
      c' = { c with queue := (c.queue.push i).2 } := by
  simp only [submit, Work.records_bind, Work.records_get, Work.records_modify, report_records,
    Work.records_pure, List.nil_append, List.append_nil]
  exact ⟨rfl, trivial, trivial⟩

/-- A call that nothing falls into is answered, and reports it. -/
theorem submit_scenes {i : Instruction} {accepted : Bool} (stage : Stage)
    (returning : List (Instruction × Bool))
    (hruns : ((submit i).run c).Runs entries (accepted, c')) :
    Way Scene.Step ⟨c, stage, returning⟩ [⟨.called i accepted, []⟩, ⟨.returned i accepted, entries⟩]
      ⟨c', stage, returning⟩ := by
  obtain ⟨rfl, rfl, rfl⟩ := submit_records i _ _ hruns
  have hcalls := Scene.Step.calls c stage returning i
  exact (Way.single hcalls).tail (.returns _ stage [] returning i _)

/-- The moments in which a tick takes these instructions and carries them out. -/
inductive Serves : List Instruction → List Moment → Prop where
  | nil : Serves [] []
  | cons {i : Instruction} {rest : List Instruction} {moments : List Moment}
      (entries : List Entry) :
      Serves rest moments → Serves (i :: rest) (⟨.took i, []⟩ :: ⟨.carried i, entries⟩ :: moments)

theorem carries_scenes {now : Instant} {is : List Instruction} {asked : List PeerId}
    (queue : InstructionQueue) (returning : List (Instruction × Bool))
    (hcarries : Carries now c is entries asked c') (hpending : queue.pending = is) :
    ∃ moments, Serves is moments ∧ entriesOf moments = entries ∧
      Way Scene.Step ⟨{ c with queue }, .taking now, returning⟩ moments
        ⟨{ c' with queue := queue.cleared }, .taking now, returning⟩ := by
  induction hcarries generalizing queue with
  | done c =>
    rw [← InstructionQueue.eq_cleared hpending]
    exact ⟨[], .nil, rfl, .refl _⟩
  | @next c c₁ c' i rest first second asked hruns _ ih =>
    have hlength : rest.length ≤ queue.capacity := by
      have := queue.length_le
      rw [hpending, List.length_cons] at this
      omega
    let left : InstructionQueue := ⟨queue.capacity, rest, hlength⟩
    have hpop : queue.pop? = some (i, left) := InstructionQueue.pop?_eq_some_iff.2 ⟨hpending, rfl⟩
    obtain ⟨moments, hserves, hentries, hway⟩ := ih left rfl
    have htakes : Scene.Step ⟨{ c with queue }, .taking now, returning⟩ [⟨.took i, []⟩]
        ⟨{ c with queue := left }, .holding now i, returning⟩ := .takes hpop
    have hcarried : Scene.Step ⟨{ c with queue := left }, .holding now i, returning⟩
        [⟨.carried i, first⟩]
        ⟨{ c₁ with queue := left }, .taking now, returning⟩ :=
          .carries ((carryOut_blind now i).runs left hruns)
    exact ⟨_, hserves.cons first, by simp [hentries], .head htakes (.head hcarried hway)⟩

/-- A tick that nothing falls into takes what is waiting, carries it out and does its rest. -/
theorem tick_scenes {now : Instant} {busy : Bool} (returning : List (Instruction × Bool))
    (hruns : ((tick now).run c).Runs entries (busy, c')) :
    ∃ served driven, Serves c.queue.pending served ∧ entries = entriesOf served ++ driven ∧
      Way Scene.Step ⟨c, .idle, returning⟩
        (⟨.begun, []⟩ :: (served ++ [⟨.exhausted, []⟩, ⟨.ended, driven⟩]))
        ⟨c', .idle, returning⟩ := by
  obtain ⟨asked, hticks⟩ := tick_iff.1 hruns
  obtain ⟨c₁, carried, driven, rfl, hcarries, hdrives⟩ := hticks.drives
  have hqueue : c₁.queue = c.queue.cleared := hcarries.queue
  obtain ⟨served, hserves, rfl, hserved⟩ := carries_scenes c.queue returning hcarries rfl
  rw [← hqueue] at hserved
  have hnone : c₁.queue.pop? = none := InstructionQueue.pop?_eq_none_iff.2 (by rw [hqueue]; rfl)
  have hbegins := Scene.Step.begins c now returning
  have hexhausts : Scene.Step ⟨c₁, .taking now, returning⟩
      [⟨.exhausted, []⟩] ⟨c₁, .driving now, returning⟩ :=
    .exhausts hnone
  have hends : Scene.Step ⟨c₁, .driving now, returning⟩ [⟨.ended, driven⟩] ⟨c', .idle, returning⟩ :=
    .ends hdrives
  exact ⟨served, driven, hserves, rfl,
    .head hbegins (hserved.trans (.head hexhausts (.single hends)))⟩

/-- Every run of a controller is an intake, in which no call falls into a tick. -/
theorem Run.intake {settings : Settings} {past : List Entry} (hrun : Run settings past c) :
    ∃ moments, Intake settings moments ⟨c, .idle, []⟩ ∧ entriesOf moments = past := by
  induction hrun with
  | start hruns => exact ⟨_, .start hruns, by simp⟩
  | submit i _ hruns ih =>
    obtain ⟨moments, hintake, rfl⟩ := ih
    exact ⟨_, hintake.of_way (submit_scenes .idle [] hruns), by simp⟩
  | tick now _ hruns ih =>
    obtain ⟨moments, hintake, rfl⟩ := ih
    obtain ⟨served, driven, -, rfl, hway⟩ := tick_scenes [] hruns
    exact ⟨_, hintake.of_way hway, by simp⟩
  | close _ hruns ih =>
    obtain ⟨moments, hintake, rfl⟩ := ih
    exact ⟨_, hintake.goesOn (.closes hruns), by simp⟩

end ReplicaHandshake.Controller
