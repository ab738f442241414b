import ReplicaHandshake.Controller.Basic
import ReplicaHandshake.Rehearsal.Change

/-!
# Rehearsing a controller

A scenario is a controller with its outside, and steps that change the outside, submit instructions,
let time pass and ticks be made.  The clock of a scenario starts at zero and stands still between
steps that set it.  A controller that was run to its end is gone, but its queue still takes
instructions.
-/

namespace ReplicaHandshake.Rehearsal

/-- A step of a scenario. -/
inductive ScenarioStep where
  | master (port : UInt16) (changes : List MasterChange)
  | store (changes : List StoreChange)
  | multiplexer (changes : List MultiplexerChange)
  | submit (i : Instruction)
  | tick (clock : Option Instant) (count : Nat)
  /-- Tick until a tick finds nothing to do. -/
  | settle
  /-- The multiplexer drops a socket, if it holds it, and reports that. -/
  | disconnect (d : Disconnection)
  /-- The multiplexer reports a socket as dropped. -/
  | notify (d : Disconnection)
  | close
  | run (ending : Ending)
  | outboxes (port : UInt16)
  | find (tableName : String)
deriving DecidableEq, Repr

/-- What came of a step. -/
inductive ScenarioOutcome where
  | nothing
  | answered (yes : Bool)
  | ticked (busy : List Bool)
  | settled (busyTicks : Nat)
  | outboxes (sockets : List (List Frame × Bytes))
  | found (handler : Option HandlerStatus) (isDistressed : Bool) (liveCount : Nat)

/-- A scenario in progress. -/
structure Scenario where
  stage : Stage Controller
  clock : Instant := 0
  /-- Whether the controller was run to its end. -/
  ended : Bool := false

/-- How many ticks are made at most until one finds nothing to do. -/
def mostSettlingTicks : Nat := 64

/-- How many ticks a controller may make until it ends. -/
def mostRunningTicks : Nat := 1000000

namespace Scenario

/-- Start a controller; the metrics that were reported come with an error, too. -/
def start (instanceId : InstanceId) (settings : Settings) :
    Except (StartError × List Metric) Scenario :=
  let (result, world, entries) := (Controller.start instanceId settings).perform world {}
  let metrics := metricsOf entries
  match result with
  | .ok subject => .ok { stage := { subject, world, metrics := metrics.toArray } }
  | .error e => .error (e, metrics)

/-- Do work on the controller. -/
def perform {α : Type} (s : Scenario) (work : Work Controller α) : α × Scenario :=
  let (a, stage) := s.stage.perform work
  (a, { s with stage })

/-- Change the outside. -/
def changeWorld (s : Scenario) (f : World → World) : Scenario :=
  { s with stage := s.stage.changeWorld f }

/-- Make so many ticks. -/
def tickTimes (s : Scenario) : Nat → List Bool × Scenario
  | 0 => ([], s)
  | n + 1 =>
    let (busy, s) := s.perform (Controller.tick s.clock)
    let (rest, s) := s.tickTimes n
    (busy :: rest, s)

/-- Tick until a tick finds nothing to do; the answer is the number of ticks that did. -/
def settle (s : Scenario) : Nat → Nat × Scenario
  | 0 => (0, s)
  | n + 1 =>
    let (busy, s) := s.perform (Controller.tick s.clock)
    if busy then
      let (k, s) := s.settle n
      (k + 1, s)
    else (0, s)

/-- What the controller shows, unless it is gone. -/
def status? (s : Scenario) : Option ControllerStatus :=
  if s.ended then none else some s.stage.subject.status

/-- Do a step that needs the controller. -/
def withController (s : Scenario) (f : Scenario → ScenarioOutcome × Scenario) :
    ScenarioOutcome × Scenario :=
  if s.ended then (.nothing, s) else f s

/-- Do a step.  The calls seen before are forgotten. -/
def step (s : Scenario) (step : ScenarioStep) : ScenarioOutcome × Scenario :=
  let s := s.changeWorld fun w => { w with events := [] }
  match step with
  | .master port changes => (.nothing, { s with stage := s.stage.changeMaster port changes })
  | .store changes =>
    (.nothing, s.changeWorld fun w => { w with store := changes.foldl Store.change w.store })
  | .multiplexer changes =>
    (.nothing, s.changeWorld fun w =>
      { w with multiplexer := changes.foldl Multiplexer.change w.multiplexer })
  | .submit i =>
    let (accepted, s) := s.perform (Controller.submit i)
    (.answered accepted, s)
  | .tick clock count =>
    let s := { s with clock := clock.getD s.clock }
    s.withController fun s =>
      let (busy, s) := s.tickTimes count
      (.ticked busy, s)
  | .settle =>
    s.withController fun s =>
      let (k, s) := s.settle mostSettlingTicks
      (.settled k, s)
  | .disconnect d => (.nothing, s.changeWorld (·.drop d))
  | .notify d => (.nothing, s.changeWorld (·.disconnected d))
  | .close =>
    s.withController fun s =>
      let (_, s) := s.perform Controller.close
      (.nothing, s)
  | .run ending =>
    s.withController fun s =>
      let s := s.changeWorld fun w => { w with ending }
      let (_, s) := s.perform (Controller.run mostRunningTicks)
      (.nothing, { s with ended := true })
  | .outboxes port => (.outboxes (s.stage.outboxes port), s)
  | .find tableName =>
    s.withController fun s =>
      let status := s.stage.subject.status
      (.found (status.handler? tableName) (status.isDistressed tableName) status.liveCount, s)

end Scenario

end ReplicaHandshake.Rehearsal
