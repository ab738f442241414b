import ReplicaHandshake.Frame.Outbound

/-!
# Scripts for writes

In a rehearsal the other side of a connection follows a script.  A script for writes says of one
call after the other how many bytes it takes or how it fails; a call that is interrupted is made
again, and so uses up the next step as well.
-/

namespace ReplicaHandshake.Rehearsal

/-- What one call of a write does. -/
inductive WriteStep where
  | accept (most : Nat)
  | fail (e : SystemError)
deriving DecidableEq, Repr

/-- Answer a write from a script.  `atEnd` answers when the script is over; it is told how often the
call has been interrupted. -/
def answerWrite (offered : Nat) (atEnd : Nat → WriteAnswer offered) :
    (interruptions : Nat) → List WriteStep → WriteAnswer offered × List WriteStep
  | k, [] => (atEnd k, [])
  | k, .accept most :: rest => (.accept k offered most, rest)
  | k, .fail e :: rest =>
    if h : e.kind = .interrupted then answerWrite offered atEnd (k + 1) rest
    else (.refuse k offered e h, rest)

/-- What a connection has seen of a flush. -/
structure FlushRecord where
  script : List WriteStep
  sent : Bytes := []
  calls : Nat := 0

/-- Take a write as the script says; when it is over, the connection would have to wait. -/
def FlushRecord.write (data : Bytes) : StateM FlushRecord (WriteAnswer data.length) := do
  let r ← get
  let (answer, script) := answerWrite data.length
    (fun k => .refuse k data.length (.bare .wouldBlock) (by decide)) 0 r.script
  let taken := match answer.result with
    | .ok n => data.take n.1
    | .error _ => []
  set { script, sent := r.sent ++ taken, calls := r.calls + answer.interruptions + 1 : FlushRecord }
  return answer

/-- Flush a buffer into a connection that follows a script. -/
def flush (b : OutboundBuffer) (script : List WriteStep) :
    (Except SystemError Bool × OutboundBuffer) × FlushRecord :=
  (b.flush FlushRecord.write).run { script }

end ReplicaHandshake.Rehearsal
