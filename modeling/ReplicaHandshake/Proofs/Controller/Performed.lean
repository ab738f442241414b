import ReplicaHandshake.Proofs.Controller.OpenRun
import ReplicaHandshake.Rehearsal.World

/-!
# Performed runs

What a controller does with an environment is a run (`Performance.of_start?`,
`Performance.run_tick`).  So a rehearsal shows that a run comes to a certain state: in `rehearsed` a
table is brought up that has two masters.  The bytes of the first come in pieces and run over the
start of the data stream, and the multiplexer refuses the first socket that it is offered.  In
`dropped` the first socket is dropped later on, and in `removed` the table is removed after that.
-/

namespace ReplicaHandshake

namespace Happening

/-- The note that was written. -/
def note? : Happening → Option Note
  | noted n => some n
  | _ => none

/-- The metric that was reported. -/
def metric? : Happening → Option Metric
  | reported m => some m
  | _ => none

theorem eq_of_metric? {x : Happening} {m : Metric} (h : x.metric? = some m) : x = .reported m := by
  unfold metric? at h
  split at h <;> cases h
  rfl

/-- What is among the metrics was reported at some point. -/
theorem split_of_metric {hs : List Happening} {m : Metric}
    (hmetric : m ∈ hs.filterMap (·.metric?)) :
    ∃ before after, hs = before ++ .reported m :: after := by
  obtain ⟨x, hx, hmetric⟩ := List.mem_filterMap.1 hmetric
  rw [eq_of_metric? hmetric] at hx
  exact List.append_of_mem hx

theorem eq_of_note? {x : Happening} {n : Note} (h : x.note? = some n) : x = .noted n := by
  unfold note? at h
  split at h <;> cases h
  rfl

/-- The handoff that the multiplexer took, and the peer for which it did. -/
def handoff? : Happening → Option (PeerId × Handoff)
  | answered (.offerSocket peer handoff) true => some (peer, handoff)
  | _ => none

theorem eq_of_handoff? {x : Happening} {peer : PeerId} {handoff : Handoff}
    (h : x.handoff? = some (peer, handoff)) : x = .answered (.offerSocket peer handoff) true := by
  unfold handoff? at h
  split at h <;> cases h
  rfl

end Happening

namespace Controller

/-- A controller with its outside, and what has happened since its start. -/
structure Performance (σ : Type) where
  controller : Controller
  outside : σ
  past : List Entry

theorem Carries.asks_nobody {now : Instant} {c c' : Controller} {is : List Instruction}
    {entries : List Entry} {more : List PeerId} (hcarries : Carries now c is entries more c')
    (hadds : ∀ i ∈ is, i.kind = "add") :
    more = [] := by
  induction hcarries with
  | done => rfl
  | @next _ _ _ i _ _ _ _ _ _ ih =>
    obtain ⟨hi, hrest⟩ := List.forall_mem_cons.1 hadds
    rw [ih hrest, List.append_nil]
    cases i with
    | add => rfl
    | remove => simp [Instruction.kind] at hi

theorem Carries.asks_one {now : Instant} {c c' : Controller} {i : Instruction}
    {entries : List Entry} {more : List PeerId} (hcarries : Carries now c [i] entries more c') :
    more = c.asks i := by
  cases hcarries with
  | next _ hrest =>
    cases hrest
    exact List.append_nil _

theorem Ticks.carries {now : Instant} {c c' : Controller} {entries : List Entry}
    {more : List PeerId} {busy : Bool} (hticks : Ticks c now entries more busy c') : ∃ carried c₁,
      Carries now { c with queue := c.queue.cleared } c.queue.pending carried more c₁ := by
  cases hticks with
  | intro hcarries => exact ⟨_, _, hcarries⟩

namespace Performance

variable {σ α : Type} {settings : Settings}

/-- Start a controller. -/
def start? (env : Dialogue.Environment σ) (instanceId : InstanceId) (settings : Settings)
    (outside : σ) : Option (Performance σ) :=
  match (Controller.start instanceId settings).perform env outside with
  | (.ok controller, outside, past) => some { controller, outside, past }
  | (.error _, _, _) => none

/-- Let the controller do a piece of work. -/
def goOn (env : Dialogue.Environment σ) (work : Work Controller α) (p : Performance σ) :
    Performance σ :=
  let ((_, controller), outside, entries) := (work.run p.controller).perform env p.outside
  { controller, outside, past := p.past ++ entries }

/-- Make so many ticks. -/
def ticks (env : Dialogue.Environment σ) (now : Instant) : Nat → Performance σ → Performance σ
  | 0, p => p
  | n + 1, p => (p.ticks env now n).goOn env (tick now)

theorem open_of_start? {env : Dialogue.Environment σ} {instanceId : InstanceId} {outside : σ}
    {p : Performance σ} (hstart : start? env instanceId settings outside = some p) :
    OpenRun settings p.past p.controller [] := by
  have hruns := Dialogue.perform_runs env (Controller.start instanceId settings) outside
  unfold start? at hstart
  split at hstart
  next heq =>
    cases hstart
    rw [heq] at hruns
    exact .start hruns
  next => cases hstart

theorem of_start? {env : Dialogue.Environment σ} {instanceId : InstanceId} {outside : σ}
    {p : Performance σ} (hstart : start? env instanceId settings outside = some p) :
    Run settings p.past p.controller :=
  (open_of_start? hstart).run

theorem run_submit {env : Dialogue.Environment σ} {p : Performance σ}
    (hrun : Run settings p.past p.controller) (i : Instruction) :
    Run settings (p.goOn env (submit i)).past (p.goOn env (submit i)).controller :=
  .submit i hrun (Dialogue.perform_runs env ((submit i).run p.controller) p.outside)

theorem run_tick {env : Dialogue.Environment σ} {p : Performance σ}
    (hrun : Run settings p.past p.controller) (now : Instant) :
    Run settings (p.goOn env (tick now)).past (p.goOn env (tick now)).controller :=
  .tick now hrun (Dialogue.perform_runs env ((tick now).run p.controller) p.outside)

theorem run_ticks {env : Dialogue.Environment σ} {p : Performance σ}
    (hrun : Run settings p.past p.controller) (now : Instant) (n : Nat) :
    Run settings (p.ticks env now n).past (p.ticks env now n).controller := by
  induction n with
  | zero => exact hrun
  | succ n ih => exact run_tick ih now

/-- Let something happen outside, of which the controller does not know. -/
def meanwhile (change : σ → σ) (p : Performance σ) : Performance σ :=
  { p with outside := change p.outside }

theorem run_meanwhile {p : Performance σ} (hrun : Run settings p.past p.controller)
    (change : σ → σ) :
    Run settings (p.meanwhile change).past (p.meanwhile change).controller :=
  hrun

theorem open_submit {env : Dialogue.Environment σ} {p : Performance σ} {asked : List PeerId}
    (hrun : OpenRun settings p.past p.controller asked) (i : Instruction) :
    OpenRun settings (p.goOn env (submit i)).past (p.goOn env (submit i)).controller asked :=
  hrun.goesOn (.submit i (Dialogue.perform_runs env ((submit i).run p.controller) p.outside))

theorem open_tick {env : Dialogue.Environment σ} {p : Performance σ} {asked more : List PeerId}
    (hrun : OpenRun settings p.past p.controller asked) (now : Instant)
    (hasks : ∀ entries more' c,
      Carries now { p.controller with queue := p.controller.queue.cleared }
      p.controller.queue.pending entries more' c → more' = more) :
    OpenRun settings (p.goOn env (tick now)).past (p.goOn env (tick now)).controller
      (asked ++ more) := by
  have hruns := Dialogue.perform_runs env ((tick now).run p.controller) p.outside
  obtain ⟨more', hticks⟩ := tick_iff.1 hruns
  obtain ⟨carried, c₁, hcarries⟩ := hticks.carries
  exact hasks _ _ _ hcarries ▸ hrun.goesOn (.tick now hticks)

theorem open_ticks {env : Dialogue.Environment σ} {p : Performance σ} {asked : List PeerId}
    (hrun : OpenRun settings p.past p.controller asked) (now : Instant) (n : Nat)
    (hadds : ∀ k < n, ∀ i ∈ (p.ticks env now k).controller.queue.pending, i.kind = "add") :
    OpenRun settings (p.ticks env now n).past (p.ticks env now n).controller asked := by
  induction n with
  | zero => exact hrun
  | succ n ih =>
    have hrun := ih fun k hk => hadds k (Nat.lt_succ_of_lt hk)
    have htick : OpenRun settings (p.ticks env now (n + 1)).past
        (p.ticks env now (n + 1)).controller
        (asked ++ []) :=
      open_tick hrun now fun _ _ _ hcarries => hcarries.asks_nobody (hadds n n.lt_succ_self)
    rwa [List.append_nil] at htick

/-- The first live handler is polled when the controller has drained what was waiting. -/
theorem visits_first {env : Dialogue.Environment σ} {p : Performance σ} {now : Instant}
    {h : Handler} {after : List Handler}
    (hlive : ((p.goOn env (drainInstructions now)).goOn env
      drainDisconnections).controller.registry.live =
      h :: after) :
    ∃ entries, ((p.goOn env (drainInstructions now)).goOn env drainDisconnections).past =
      p.past ++ entries ∧ p.controller.Visits now entries h := by
  have hinstructions :=
    Dialogue.perform_runs env ((drainInstructions now).run p.controller) p.outside
  have hdisconnections := Dialogue.perform_runs env
    (drainDisconnections.run (p.goOn env (drainInstructions now)).controller)
    (p.goOn env (drainInstructions now)).outside
  refine ⟨_, List.append_assoc .., _, [], after, _, [], _, .tick hinstructions hdisconnections,
    hlive, .done _, ?_⟩
  exact (List.append_nil _).symm

end Performance

/-! ### A rehearsal -/

section Rehearsal

open Rehearsal

/-- A table with two masters. -/
def rehearsedTable : TableSettings :=
  ⟨"t", [⟨"127.0.0.1", 1⟩, ⟨"127.0.0.1", 2⟩]⟩

/-- What a master says of the table. -/
def rehearsedInfo (rowCount : UInt64) : TableInfo where
  masterTableId := 7
  rowCount := rowCount
  structureVersion := 3
  tableName := "t"

def rehearsedStart : StartOfReplicationStream where
  masterTableId := 7
  metadata := [1, 2]
  symbols := [3]

/-- Two masters; behind their frames more bytes follow. -/
def rehearsedWorld : World where
  network :=
    { masters :=
        [(1,
            { inbound := [.segment (Frame.bytes (.tableInfo (rehearsedInfo 5)) ++
                Frame.bytes (.startOfReplicationStream rehearsedStart) ++ [42, 43])]
              readLimit := some 20 }),
          (2, { inbound := [.segment (Frame.bytes (.tableInfo (rehearsedInfo 9)) ++ [44])] })] }
  multiplexer := { refusedSockets := 1 }

def rehearsedOpening : Performance World :=
  (Performance.start? world 0 .small rehearsedWorld).get (by decide +kernel)

/-- The table is added, and the controller makes so many ticks. -/
def rehearsed (n : Nat) : Performance World :=
  (rehearsedOpening.goOn world (submit (.add rehearsedTable))).ticks world 0 n

theorem rehearsed_run (n : Nat) : Run .small (rehearsed n).past (rehearsed n).controller := by
  have hopening : Performance.start? world 0 .small rehearsedWorld = some rehearsedOpening :=
    (Option.some_get _).symm
  exact Performance.run_ticks (Performance.run_submit (Performance.of_start? hopening) _) 0 n

theorem rehearsed_open : OpenRun .small (rehearsed 4).past (rehearsed 4).controller [] := by
  have hopening : Performance.start? world 0 .small rehearsedWorld = some rehearsedOpening :=
    (Option.some_get _).symm
  exact Performance.open_ticks (Performance.open_submit (Performance.open_of_start? hopening) _) 0 4
    (by decide +kernel)

/-- When the table streams the first socket is dropped; after that the controller makes
so many ticks. -/
def dropped (n : Nat) : Performance World :=
  ((rehearsed 4).meanwhile (·.drop ⟨.first, ⟨1⟩⟩)).ticks world 0 n

theorem dropped_open {n : Nat}
    (hidle : ∀ k < n, ∀ i ∈ (dropped k).controller.queue.pending, i.kind = "add") :
    OpenRun .small (dropped n).past (dropped n).controller [] := by
  have hrun : OpenRun .small ((rehearsed 4).meanwhile (·.drop ⟨.first, ⟨1⟩⟩)).past
      ((rehearsed 4).meanwhile (·.drop ⟨.first, ⟨1⟩⟩)).controller [] := rehearsed_open
  exact Performance.open_ticks hrun 0 n hidle

/-- As before, but the table is removed while its handler is stopping already. -/
def removed : Performance World :=
  ((dropped 1).goOn world (submit (.remove "t"))).goOn world (tick 0)

theorem removed_open : OpenRun .small removed.past removed.controller [.first] := by
  have hpending : ((dropped 1).goOn world (submit (.remove "t"))).controller.queue.pending =
      [.remove "t"] := by
    decide +kernel
  have hasks : asks { ((dropped 1).goOn world (submit (.remove "t"))).controller with
      queue := ((dropped 1).goOn world (submit (.remove "t"))).controller.queue.cleared }
        (.remove "t") =
      [.first] := by
    decide +kernel
  have hdropped : OpenRun .small (dropped 1).past (dropped 1).controller [] :=
    dropped_open (by decide +kernel)
  refine Performance.open_tick (Performance.open_submit hdropped _) 0 fun _ _ _ hcarries => ?_
  rw [hpending] at hcarries
  rw [hcarries.asks_one, hasks]

end Rehearsal

end Controller

end ReplicaHandshake
