import ReplicaHandshake.Settings.Basic
import ReplicaHandshake.Text.Json.Parser
import ReplicaHandshake.Text.Json.Quoted

/-!
# Settings as text

Settings are written as a record of the data format (see `Json`), and so are their tables and the
endpoints of those.  A field that is missing keeps its default where it has one.  Sizes are numbers
that fit a word of eight bytes, ports are numbers that fit a word of two.  `Settings.text` writes a
settings record without blanks, its fields in order.
-/

namespace ReplicaHandshake

/-- The value of a field that has to be there. -/
def required {α : Type} (read : Json → Option α) : Option Json → Option α
  | some value => read value
  | none => none

/-- The value of a field that has a default. -/
def optional {α : Type} (default : α) (read : Json → Option α) : Option Json → Option α
  | some value => read value
  | none => some default

namespace Endpoint

/-- The endpoint that a value stands for. -/
def ofJson? (value : Json) : Option Endpoint := do
  match ← value.fields? ["address", "port"] with
  | [address, port] =>
    return { address := ← required Json.text? address
             port := (← required (Json.natural? (LittleEndian.size 2)) port).toUInt16 }
  | _ => none

/-- An endpoint as text. -/
def record (e : Endpoint) : String :=
  "\x7b\"address\":" ++ Json.quoted e.address ++ ",\"port\":" ++ toString e.port ++ "\x7d"

end Endpoint

namespace TableSettings

/-- The table that a value stands for. -/
def ofJson? (value : Json) : Option TableSettings := do
  match ← value.fields? ["table_name", "masters"] with
  | [name, masters] =>
    return { tableName := ← required Json.text? name
             masters := ← (← required Json.items? masters).mapM Endpoint.ofJson? }
  | _ => none

/-- A table as text. -/
def record (t : TableSettings) : String :=
  "\x7b\"table_name\":" ++ Json.quoted t.tableName ++ ",\"masters\":[" ++
    ",".intercalate (t.masters.map Endpoint.record) ++ "]\x7d"

end TableSettings

namespace Settings

/-- The settings that a value stands for. -/
def ofJson? (value : Json) : Option Settings := do
  let default : Settings := {}
  let size := Json.natural? (LittleEndian.size 8)
  match ← value.fields? ["instruction_queue_capacity", "frame_buffer_size", "handshake_timeout",
      "idle_interval", "tables"] with
  | [capacity, buffer, timeout, interval, tables] =>
    return { instructionCapacity := ← optional default.instructionCapacity size capacity
             frameBuffer := ← optional default.frameBuffer size buffer
             handshakeTimeout := ← optional default.handshakeTimeout Json.text? timeout
             idleInterval := ← optional default.idleInterval Json.text? interval
             tables := ← (← optional [] Json.items? tables).mapM TableSettings.ofJson? }
  | _ => none

/-- The settings that a text stands for. -/
def ofText? (text : String) : Option Settings :=
  (Json.ofText? text).bind ofJson?

/-- Settings as text. -/
def text (s : Settings) : String :=
  "\x7b\"instruction_queue_capacity\":" ++ toString s.instructionCapacity ++
    ",\"frame_buffer_size\":" ++ toString s.frameBuffer ++
    ",\"handshake_timeout\":" ++ Json.quoted s.handshakeTimeout ++
    ",\"idle_interval\":" ++ Json.quoted s.idleInterval ++
    ",\"tables\":[" ++ ",".intercalate (s.tables.map TableSettings.record) ++ "]\x7d"

end Settings

end ReplicaHandshake
