import ReplicaHandshake.Controller.Registry
import ReplicaHandshake.Instruction

/-!
# Controllers

A `Controller` owns all handlers and drives them.  Each *tick* does a bounded amount of work that
never waits:

1. the waiting instructions are carried out;
2. the disconnections that the multiplexer reported are heard;
3. every live handler makes one step;
4. handlers that have been through the handoff are moved;
5. drained handlers are brought to their end.

A tick says whether anything happened.  A controller is *run* by ticks until it is asked to end; it
rests whenever a tick finds nothing to do.
-/

namespace ReplicaHandshake

/-- Why a controller did not start. -/
inductive StartError where
  | refused (failure : Failure)
  | crashed (crash : Crash)
deriving DecidableEq, Repr

/-- The owner of all handlers. -/
structure Controller where
  settings : Settings
  instanceId : InstanceId
  queue : InstructionQueue
  registry : Registry := {}
  /-- How long a handler may take before it hands off; the settings have it as a text. -/
  handshakeTimeout : Duration := ⟨0⟩
  /-- The identity of the next handler. -/
  nextPeer : PeerId := .first
deriving DecidableEq, Repr

namespace Controller

/-- Do work on the registry. -/
def onRegistry {α : Type} (work : Work Registry α) : Work Controller α := do
  let (a, registry) ← (work.run (← get).registry : Dialogue _)
  modify fun c => { c with registry }
  return a

/-- What is shown of a controller. -/
def status (c : Controller) : ControllerStatus :=
  c.registry.status c.queue.pending.length

/-! ### Instructions -/

/-- Put an instruction into the queue; the answer says whether there was room. -/
def submit (i : Instruction) : Work Controller Bool := do
  let (accepted, queue) := (← get).queue.push i
  modify fun c => { c with queue }
  report (.instruction i.kind (if accepted then "accepted" else "rejected"))
  return accepted

/-- Submit instructions, up to the first one for which there is no room. -/
def submitAll : List Instruction → Work Controller Bool
  | [] => return true
  | i :: rest => do
    if ← submit i then submitAll rest else return false

/-- The failure of settings that have more tables than the queue has places. -/
def tooManyTables (settings : Settings) : Failure :=
  .settings (s!"{settings.tables.length} initial tables exceed instruction_queue_capacity " ++
    s!"{settings.instructionCapacity}")

/-- A controller with valid settings; its tables wait to be added in the first tick. -/
def start (instanceId : InstanceId) (settings : Settings) :
    Dialogue (Except StartError Controller) := do
  match settings.validate with
  | .error f => return .error (.refused f)
  | .ok _ =>
    match InstructionQueue.allocate settings.instructionCapacity with
    | .error crash => return .error (.crashed crash)
    | .ok queue =>
      let c : Controller := { settings, instanceId, queue }
      let (fitted, c) ← (submitAll (settings.tables.map .add)).run c
      if !fitted then return .error (.refused (tooManyTables settings))
      match settings.handshakeTimeoutDuration with
      | .error crash => return .error (.crashed crash)
      | .ok handshakeTimeout => return .ok { c with handshakeTimeout }

/-- Start to replicate a table, unless its settings are not valid or it has a live handler; the
answer says whether that was done.  A handler of the table that came to a bad end is forgotten. -/
def addTable (table : TableSettings) (now : Instant) : Work Controller Bool := do
  let c ← get
  match table.validate with
  | .error _ => return false
  | .ok _ =>
    if c.registry.isActive table.tableName then return false
    let registry := (c.registry.clearDistressed table.tableName).2
    set { c with registry, nextPeer := c.nextPeer.next }
    let h := Handler.new c.instanceId c.nextPeer table c.settings.frameBuffer
      c.handshakeTimeout now
    let (_, h) ← (Handler.start.run h).onBehalfOf c.nextPeer
    modify fun c => { c with registry := c.registry.insert h }
    return true

/-- The work of stopping a handler on request; the answer is its peer. -/
def stopOnRequest : Work Handler PeerId := do
  Handler.stop
  return (← get).peer

/-- Stop to replicate a table, or forget its handler that came to a bad end; the answer says whether
there was one. -/
def removeTable (tableName : String) : Work Controller Bool := do
  let stopped ← onRegistry
    (Registry.updateLive? (·.tableName = tableName) stopOnRequest)
  match stopped with
  | some peer =>
    modify fun c => { c with registry := c.registry.markVoluntary peer }
    return true
  | none =>
    let (cleared, registry) := (← get).registry.clearDistressed tableName
    modify fun c => { c with registry }
    return cleared

/-- Carry out an instruction. -/
def carryOut (now : Instant) (i : Instruction) : Work Controller Unit := do
  let applied ← match i with
    | .add table => addTable table now
    | .remove tableName => removeTable tableName
  report (.instruction i.kind (if applied then "applied" else "ignored"))

/-- Carry out instructions in order. -/
def carryOutAll (now : Instant) : List Instruction → Work Controller Unit
  | [] => return
  | i :: rest => do
    carryOut now i
    carryOutAll now rest

/-- Carry out all waiting instructions; the answer says whether there were any. -/
def drainInstructions (now : Instant) : Work Controller Bool := do
  let waiting := (← get).queue.pending
  modify fun c => { c with queue := c.queue.cleared }
  carryOutAll now waiting
  return !waiting.isEmpty

/-! ### Disconnections -/

/-- Hear a disconnection; only the live handler of its peer is concerned. -/
def hear (d : Disconnection) : Work Controller Unit := do
  let _ ← onRegistry (Registry.updateLive? (·.peer = d.peer) (Handler.onDisconnect d.socket))

/-- Hear disconnections in order. -/
def hearAll : List Disconnection → Work Controller Unit
  | [] => return
  | d :: rest => do
    hear d
    hearAll rest

/-- Hear all disconnections that wait; the answer says whether there were any. -/
def drainDisconnections : Work Controller Bool := do
  let waiting ← (Dialogue.fetchDisconnections : Dialogue _)
  hearAll waiting
  return !waiting.isEmpty

/-! ### Ticks -/

/-- Let every live handler make one step. -/
def pollHandlers (now : Instant) : Work Controller Bool := do
  let busy ← onRegistry (Registry.updateLive (Handler.poll now))
  return busy.any id

/-- Move the handlers that have been through the handoff. -/
def promoteHandlers : Work Controller Bool := do
  let (promoted, registry) := (← get).registry.promote
  modify fun c => { c with registry }
  return promoted

/-- Report how many handlers and instructions there are. -/
def reportCounts : Work Controller Unit := do
  let c ← get
  let r := c.registry
  report (.handlerCounts r.initializing.length r.streaming.length r.distressed.length)
  report (.pendingInstructions c.queue.pending.length)

/-- Do a bounded amount of work; the answer says whether anything happened. -/
def tick (now : Instant) : Work Controller Bool := do
  let instructed ← drainInstructions now
  let disconnected ← drainDisconnections
  let polled ← pollHandlers now
  let promoted ← promoteHandlers
  let reaped ← onRegistry Registry.reap
  reportCounts
  return instructed || disconnected || polled || promoted || reaped

/-- Stop all handlers, ask the multiplexer once to let go of what it holds, and forget them all.
Instructions keep waiting. -/
def close : Work Controller Unit := do
  onRegistry Registry.stopAll
  let now ← (Dialogue.readClock : Dialogue _)
  let _ ← pollHandlers now
  let _ ← onRegistry Registry.reap
  modify fun c => { c with registry := {} }

/-- Tick until the program is asked to end, and close then; rest for `idle` after each tick that
found nothing to do.  There are at most `fuel` ticks; the answer says whether they were enough. -/
def runResting (idle : Duration) : (fuel : Nat) → Work Controller Bool
  | 0 => return false
  | fuel + 1 => do
    if ← Dialogue.askedToEnd then
      close
      return true
    let now ← (Dialogue.readClock : Dialogue _)
    if ← tick now then runResting idle fuel
    else
      match ← Dialogue.rest idle with
      | .timeout | .asked false => runResting idle fuel
      | .abandoned | .asked true =>
        close
        return true

/-- Tick until the program is asked to end, and close then; or crash at once, if the time to rest
cannot be read. -/
def run (fuel : Nat) : Work Controller (Except Crash Bool) := do
  match (← get).settings.idleIntervalDuration with
  | .error crash => return .error crash
  | .ok idle => return .ok (← runResting idle fuel)

end Controller

end ReplicaHandshake
