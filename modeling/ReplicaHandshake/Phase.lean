/-!
# Phases of a handler

A handler brings one table into replication.  Its phases form a path with one branch at the end:

* `initializing`: connecting to every master and asking it for the table;
* `awaitingRendezvous`: all connected, some masters have not answered;
* `requestingStream`: all have answered, the first master has been asked for the stream;
* `handingOff`: the table's writer and the connections are being handed to the multiplexer;
* `streaming`: the multiplexer holds everything;
* `stopping`: what is still open is being released;
* `stopped` and `distressed`: over, as was asked for or otherwise.

Every phase before `stopping` may also turn to `stopping`.  `Phase.next` lists the phases that may
follow; `Phase.canMoveTo` is the test.
-/

namespace ReplicaHandshake

/-- A phase of a handler. -/
inductive Phase where
  | initializing
  | awaitingRendezvous
  | requestingStream
  | handingOff
  | streaming
  | stopping
  | stopped
  | distressed
deriving DecidableEq, Repr

namespace Phase

/-- The phases that may follow a phase. -/
def next : Phase → List Phase
  | initializing => [awaitingRendezvous, stopping]
  | awaitingRendezvous => [requestingStream, stopping]
  | requestingStream => [handingOff, stopping]
  | handingOff => [streaming, stopping]
  | streaming => [stopping]
  | stopping => [stopped, distressed]
  | stopped => []
  | distressed => []

/-- Whether a phase may follow another one. -/
def canMoveTo (old new : Phase) : Bool :=
  old.next.contains new

/-- Whether a phase is the last one. -/
def isTerminal : Phase → Bool
  | stopped | distressed => true
  | _ => false

/-- Whether a handler in this phase still holds something or waits for it. -/
def isLive (phase : Phase) : Bool :=
  !phase.isTerminal

/-- Whether the multiplexer does not hold everything yet. -/
def isHandshaking : Phase → Bool
  | initializing | awaitingRendezvous | requestingStream | handingOff => true
  | _ => false

/-- The name of a phase in messages and metric labels. -/
def name : Phase → String
  | initializing => "Initializing"
  | awaitingRendezvous => "AwaitingRendezvous"
  | requestingStream => "RequestingStream"
  | handingOff => "HandingOff"
  | streaming => "Streaming"
  | stopping => "Stopping"
  | stopped => "Stopped"
  | distressed => "Distressed"

theorem canMoveTo_iff {old new : Phase} : old.canMoveTo new = true ↔ new ∈ old.next := by
  simp [canMoveTo]

theorem next_eq_nil_iff {phase : Phase} : phase.next = [] ↔ phase.isTerminal = true := by
  cases phase <;> simp [next, isTerminal]

end Phase

end ReplicaHandshake
