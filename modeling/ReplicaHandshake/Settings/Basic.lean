import ReplicaHandshake.Address.Endpoint
import ReplicaHandshake.Crash
import ReplicaHandshake.Time.DurationText

/-!
# Settings

What a controller is configured with: the sizes of its instruction queue and of its frame buffers,
two durations, and the tables to start with.  The durations are kept as they were written; a text
that is no duration counts as the default (`handshakeTimeoutDuration`, `idleIntervalDuration`), and
one that overflows is a crash.
`Settings.validate` refuses what a controller cannot run with, and `TableSettings.validate` what a
table cannot be replicated with.
-/

namespace ReplicaHandshake

/-- A table to replicate and the masters that serve it; the first one negotiates the stream. -/
structure TableSettings where
  tableName : String
  masters : List Endpoint
deriving DecidableEq, Repr

/-- A table needs a name, a master, and literals as addresses. -/
def TableSettings.validate (t : TableSettings) : Except Failure Unit :=
  if t.tableName = "" then .error (.settings "table_name must not be empty")
  else if t.masters = [] then
    .error (.settings s!"table '{t.tableName}' has no master endpoints")
  else t.masters.forM fun master => do let _ ← master.socketAddress

/-- The settings of a controller. -/
structure Settings where
  instructionCapacity : Nat := 64
  frameBuffer : Nat := 1048576
  handshakeTimeout : String := "30s"
  idleInterval : String := "10ms"
  tables : List TableSettings := []
deriving DecidableEq, Repr

namespace Settings

/-- Small settings for rehearsals. -/
def small : Settings where
  instructionCapacity := 8
  frameBuffer := 65536
  handshakeTimeout := "5s"
  idleInterval := "1ms"

/-- The duration of a text, or a default for a text that is unreadable. -/
def durationOr (default : Duration) (text : String) : Except Crash Duration :=
  match Duration.ofText text with
  | .ok d => .ok d
  | .error .unreadable => .ok default
  | .error .overflow => .error .durationOverflow

/-- How long a handler may take before it hands off. -/
def handshakeTimeoutDuration (s : Settings) : Except Crash Duration :=
  durationOr (.ofSeconds 30) s.handshakeTimeout

/-- How long a controller rests after it found nothing to do. -/
def idleIntervalDuration (s : Settings) : Except Crash Duration :=
  durationOr (.ofMilliseconds 10) s.idleInterval

/-- A controller needs room for an instruction, frame buffers of a size that a frame can declare,
and valid tables. -/
def validate (s : Settings) : Except Failure Unit :=
  if s.instructionCapacity = 0 then
    .error (.settings "instruction_queue_capacity must be greater than zero")
  else if s.frameBuffer < leastFrameBuffer then
    .error (.settings
      s!"frame_buffer_size must be at least {leastFrameBuffer} bytes, got {s.frameBuffer}")
  else if greatestWord32 < s.frameBuffer then
    .error (.settings s!"frame_buffer_size must fit a u32 frame length, got {s.frameBuffer}")
  else s.tables.forM TableSettings.validate

end Settings

end ReplicaHandshake
