import ReplicaHandshake.Time.Duration

/-!
# Metrics

What the program reports about itself while it runs.  A `Metric` is one report; its labels are free
texts, and the ones that the program uses are fixed where it reports.
-/

namespace ReplicaHandshake

/-- A report. -/
inductive Metric where
  /-- An instruction of a kind was `accepted`, `rejected`, `applied` or `ignored`. -/
  | instruction (kind outcome : String)
  /-- A connection for a table was `connected`, `closed`, or `failed` to be set up. -/
  | connectionEvent (table event : String)
  /-- A frame of a kind was put into an outbound buffer. -/
  | frameSent (kind : String)
  /-- A frame of a kind was taken out of an inbound buffer. -/
  | frameReceived (kind : String)
  /-- A handler turned to a phase. -/
  | phaseEntered (phase : String)
  /-- The handler of a table came to its end. -/
  | handlerOutcome (table outcome : String)
  /-- A handler failed. -/
  | failure (kind : String)
  /-- Something has to be offered to the multiplexer again. -/
  | handoffRetry (target : String)
  /-- A table was created in the local store. -/
  | tableCreated (table : String)
  /-- A handler needed so long from its start to the end of its handoff. -/
  | handshakeDuration (table : String) (duration : Duration)
  /-- So many handlers are in each set now. -/
  | handlerCounts (initializing streaming distressed : Nat)
  /-- So many instructions are waiting now. -/
  | pendingInstructions (count : Nat)
deriving DecidableEq, Repr

end ReplicaHandshake
