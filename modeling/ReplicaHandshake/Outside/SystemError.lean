import ReplicaHandshake.Outside.ErrorNumber

/-!
# Errors of sockets

A socket refuses with a `SystemError`: a bare *kind*, a kind with a text of its own, or an error
number of the operating system.  The program looks at few of the kinds.  While a connection is
being set up, `SystemError.connectClass` tells the errors that report progress from those that
report a failure; on an open connection, `wouldBlock` and `interrupted` are no failures either.
-/

namespace ReplicaHandshake

/-- What went wrong, roughly. -/
inductive ErrorKind where
  | wouldBlock
  | interrupted
  | connectionRefused
  | connectionReset
  | connectionAborted
  | notConnected
  | brokenPipe
  | timedOut
  | unexpectedEof
  | permissionDenied
  | addrInUse
  | addrNotAvailable
  | invalidInput
  | invalidData
  | other
  | writeZero
  | notFound
  | alreadyExists
  | uncategorized
deriving DecidableEq, Repr

/-- The text of a bare kind. -/
def ErrorKind.message : ErrorKind → String
  | wouldBlock => "operation would block"
  | interrupted => "operation interrupted"
  | connectionRefused => "connection refused"
  | connectionReset => "connection reset"
  | connectionAborted => "connection aborted"
  | notConnected => "not connected"
  | brokenPipe => "broken pipe"
  | timedOut => "timed out"
  | unexpectedEof => "unexpected end of file"
  | permissionDenied => "permission denied"
  | addrInUse => "address in use"
  | addrNotAvailable => "address not available"
  | invalidInput => "invalid input parameter"
  | invalidData => "invalid data"
  | other => "other error"
  | writeZero => "write zero"
  | notFound => "entity not found"
  | alreadyExists => "entity already exists"
  | uncategorized => "uncategorized error"

/-- The kind that an error number belongs to. -/
def ErrorNumber.kind (number : ErrorNumber) : ErrorKind :=
  if number = wouldBlock then .wouldBlock
  else if number = interrupted then .interrupted
  else if number = 1 ∨ number = 13 then .permissionDenied
  else if number = 2 then .notFound
  else if number = 17 then .alreadyExists
  else if number = 22 then .invalidInput
  else if number = 32 then .brokenPipe
  else if number = 98 then .addrInUse
  else if number = 99 then .addrNotAvailable
  else if number = 103 then .connectionAborted
  else if number = 104 then .connectionReset
  else if number = 107 then .notConnected
  else if number = 110 then .timedOut
  else if number = 111 then .connectionRefused
  else .uncategorized

/-- An error of a socket. -/
inductive SystemError where
  | bare (kind : ErrorKind)
  | worded (kind : ErrorKind) (text : String)
  | numbered (number : ErrorNumber)
deriving DecidableEq, Repr

/-- How an error of a connecting socket is to be taken. -/
inductive ConnectClass where
  | alreadyConnected
  | inProgress
  | failed
deriving DecidableEq, Repr

namespace SystemError

/-- The kind of an error. -/
def kind : SystemError → ErrorKind
  | bare kind => kind
  | worded kind _ => kind
  | numbered number => number.kind

/-- The wording of an error. -/
def message : SystemError → String
  | bare kind => kind.message
  | worded _ text => text
  | numbered number => s!"{number.text} (os error {number})"

/-- Whether an error only says that the call would have to wait. -/
def isTransient (e : SystemError) : Bool :=
  e.kind = .wouldBlock || e.kind = .interrupted

/-- An error of a connecting socket is no failure if its number says that the socket is connected
or still connecting, or if the call would only have had to wait. -/
def connectClass (e : SystemError) : ConnectClass :=
  match e with
  | numbered number =>
    if number = ErrorNumber.alreadyConnected then .alreadyConnected
    else if number = ErrorNumber.inProgress ∨ number = ErrorNumber.alreadyInProgress then
      .inProgress
    else if e.isTransient then .inProgress
    else .failed
  | _ => if e.isTransient then .inProgress else .failed

end SystemError

end ReplicaHandshake
