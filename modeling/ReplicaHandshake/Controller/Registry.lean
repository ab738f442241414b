import ReplicaHandshake.Handler.Handoff

/-!
# The registry of handlers

A `Registry` keeps the handlers of a controller in three lists: those that are on their way to the
handoff, those that have been through it, and those that came to a bad end and wait for someone to
look after them.  The names of the tables with a live handler are kept apart, and so are the peers
that were asked to stop.
-/

namespace ReplicaHandshake

/-- The handlers of a controller. -/
structure Registry where
  /-- The tables with a live handler. -/
  active : List String := []
  initializing : List Handler := []
  streaming : List Handler := []
  distressed : List Handler := []
  /-- The peers that were asked to stop. -/
  voluntary : List PeerId := []
deriving DecidableEq, Repr

/-- Let work change the first handler that a test picks; the answer is that of the work. -/
def updateFirst {α : Type} (test : Handler → Bool) (work : Work Handler α) :
    List Handler → Dialogue (Option α × List Handler)
  | [] => return (none, [])
  | h :: rest => do
    if test h then
      let (a, h) ← (work.run h).onBehalfOf h.peer
      return (some a, h :: rest)
    else
      let (a, rest) ← updateFirst test work rest
      return (a, h :: rest)

/-- Let work change all handlers, in order; the answers are those of the work. -/
def updateAll {α : Type} (work : Work Handler α) : List Handler → Dialogue (List α × List Handler)
  | [] => return ([], [])
  | h :: rest => do
    let (a, h) ← (work.run h).onBehalfOf h.peer
    let (as, rest) ← updateAll work rest
    return (a :: as, h :: rest)

namespace Registry

/-- The live handlers. -/
def live (r : Registry) : List Handler :=
  r.initializing ++ r.streaming

/-- Whether a table has a live handler. -/
def isActive (r : Registry) (tableName : String) : Bool :=
  r.active.contains tableName

/-- Add a handler. -/
def insert (r : Registry) (h : Handler) : Registry :=
  { r with active := r.active.insert h.tableName, initializing := r.initializing ++ [h] }

/-- Remember that a peer was asked to stop. -/
def markVoluntary (r : Registry) (peer : PeerId) : Registry :=
  { r with voluntary := r.voluntary.insert peer }

/-- Forget the handlers of a table that came to a bad end; the answer says whether
there were any. -/
def clearDistressed (r : Registry) (tableName : String) : Bool × Registry :=
  let distressed := r.distressed.filter (·.tableName ≠ tableName)
  (distressed.length ≠ r.distressed.length, { r with distressed })

/-- Let work change the first live handler that a test picks. -/
def updateLive? {α : Type} (test : Handler → Bool) (work : Work Handler α) :
    Work Registry (Option α) := do
  let r ← get
  let (a, initializing) ← updateFirst test work r.initializing
  match a with
  | some a =>
    set { r with initializing }
    return some a
  | none =>
    let (a, streaming) ← updateFirst test work r.streaming
    set { r with streaming }
    return a

/-- Let work change all live handlers. -/
def updateLive {α : Type} (work : Work Handler α) : Work Registry (List α) := do
  let r ← get
  let (as, initializing) ← updateAll work r.initializing
  let (bs, streaming) ← updateAll work r.streaming
  set { r with initializing, streaming }
  return as ++ bs

/-- Move the handlers that have just been through the handoff; the answer says whether there were
any. -/
def promote (r : Registry) : Bool × Registry :=
  let (promoted, initializing) := r.initializing.partition (·.phase = .streaming)
  (!promoted.isEmpty, { r with initializing, streaming := r.streaming ++ promoted })

/-- Bring a drained handler to its end.  It is forgotten if it was asked to stop, and kept for
someone to look after otherwise. -/
def settle (h : Handler) : Work Registry Unit := do
  let r ← get
  let isVoluntary := r.voluntary.contains h.peer
  set { r with
    voluntary := r.voluntary.filter (· ≠ h.peer), active := r.active.filter (· ≠ h.tableName) }
  let (phase, h) ← ((Handler.finish isVoluntary).run h).onBehalfOf h.peer
  if phase = .distressed then
    (report (.handlerOutcome h.tableName "distressed")).onBehalfOf h.peer
    modify fun r => { r with distressed := r.distressed ++ [h] }
  else
    (report (.handlerOutcome h.tableName "stopped")).onBehalfOf h.peer

/-- Bring handlers to their end, one after the other. -/
def settleAll : List Handler → Work Registry Unit
  | [] => return
  | h :: rest => do
    settle h
    settleAll rest

/-- Bring all drained handlers to their end; the answer says whether there were any. -/
def reap : Work Registry Bool := do
  let r ← get
  let (drained₁, initializing) := r.initializing.partition (·.isDrained)
  let (drained₂, streaming) := r.streaming.partition (·.isDrained)
  set { r with initializing, streaming }
  settleAll (drained₁ ++ drained₂)
  return !(drained₁ ++ drained₂).isEmpty

/-- Ask all live handlers to stop. -/
def stopAll : Work Registry Unit := do
  modify fun r => r.live.foldl (fun r h => r.markVoluntary h.peer) r
  let _ ← updateLive Handler.stop

/-- What is shown of the handlers. -/
def status (r : Registry) (pendingInstructions : Nat) : ControllerStatus where
  initializing := r.initializing.map Handler.status
  streaming := r.streaming.map Handler.status
  distressed := r.distressed.map Handler.status
  pendingInstructions := pendingInstructions

end Registry

end ReplicaHandshake
