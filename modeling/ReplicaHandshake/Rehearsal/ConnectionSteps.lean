import ReplicaHandshake.Connection.Transfer
import ReplicaHandshake.Rehearsal.Change

/-!
# Rehearsing one connection

The operations of a single connection as steps of a rehearsal, in any order.
-/

namespace ReplicaHandshake.Rehearsal

/-- A step on a connection. -/
inductive ConnectionStep where
  | master (changes : List MasterChange)
  | connect
  | poll
  | request (request : RequestReplicationStream)
  /-- Offer the socket to a multiplexer that takes it, or does not. -/
  | transfer (accept : Bool)
  | close
  | outboxes
deriving DecidableEq, Repr

/-- What came of a step. -/
inductive ConnectionOutcome where
  | nothing
  | succeeded
  | polled (poll : ConnectionPoll)
  | transferred (done : Bool) (offered : Option Handoff)
  | closed (owned : Bool)
  | outboxes (sockets : List (List Frame × Bytes))
  | failed (failure : Failure)

/-- The outcome of a task. -/
def ConnectionOutcome.ofExcept {α : Type} (f : α → ConnectionOutcome) :
    Except Failure α → ConnectionOutcome
  | .ok a => f a
  | .error failure => .failed failure

/-- What was offered last among the calls that were seen. -/
def lastOffer (events : List Event) : Option Handoff :=
  events.foldl (fun last e => match e with
    | .socketOffered _ handoff _ => some handoff
    | _ => last) none

/-- The calls other than offers of sockets. -/
def withoutOffers (events : List Event) : List Event :=
  events.filter fun e => match e with
    | .socketOffered .. => false
    | _ => true

namespace Stage

/-- Do a step on a connection. The calls seen before are forgotten. -/
def connectionStep (s : Stage Connection) (step : ConnectionStep) :
    ConnectionOutcome × Stage Connection :=
  let s := s.changeWorld fun w => { w with events := [] }
  match step with
  | .master changes => (.nothing, s.changeMaster s.subject.endpoint.port changes)
  | .connect =>
    let (r, s) := s.perform Connection.connect.perform
    (.ofExcept (fun _ => .succeeded) r, s)
  | .poll =>
    let (r, s) := s.perform Connection.poll.perform
    (.ofExcept .polled r, s)
  | .request request =>
    let (r, s) := s.perform (Connection.requestStream request).perform
    (.ofExcept (fun _ => .succeeded) r, s)
  | .transfer accept =>
    let refused := if accept then 0 else 1
    let s := s.changeWorld fun w =>
      { w with multiplexer := w.multiplexer.change (.refuseSockets refused) }
    let (r, s) := s.perform Connection.tryTransfer.perform
    let offered := lastOffer s.world.events
    let s := s.changeWorld fun w => { w with events := withoutOffers w.events }
    (.ofExcept (.transferred · offered) r, s)
  | .close =>
    let (owned, s) := s.perform Connection.close
    (.closed owned, s)
  | .outboxes => (.outboxes (s.outboxes s.subject.endpoint.port), s)

end Stage

end ReplicaHandshake.Rehearsal
