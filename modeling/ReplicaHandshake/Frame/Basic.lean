import ReplicaHandshake.Identity
import ReplicaHandshake.Text.Utf16

/-!
# Handshake frames

The four frames that a replica and its masters exchange before the data stream starts.  A frame is
a header of five bytes followed by a body:

* one byte, the *kind* of the frame;
* a word of four bytes, the length of the whole frame, header included;
* the body, whose fields follow each other without padding, all numbers little-endian.

| kind | code | body |
|---|---|---|
| `requestTableInfo` | 1 | version 4, instance 16, peer 8, table name |
| `tableInfo` | 2 | table id 4, row count 8, structure version 8, table name |
| `requestReplicationStream` | 3 | table id 4, structure version 8, row count 8 |
| `startOfReplicationStream` | 4 | table id 4, metadata length 8, metadata, symbols |

A table id of zero in a `tableInfo` frame says that the master does not have the table.
-/

namespace ReplicaHandshake

/-- The four kinds of frame. -/
inductive FrameKind where
  | requestTableInfo
  | tableInfo
  | requestReplicationStream
  | startOfReplicationStream
deriving DecidableEq, Repr

namespace FrameKind

/-- The byte that stands for a kind in a header. -/
def code : FrameKind → UInt8
  | requestTableInfo => 1
  | tableInfo => 2
  | requestReplicationStream => 3
  | startOfReplicationStream => 4

/-- The kind that a header's first byte stands for. -/
def ofCode? (code : UInt8) : Option FrameKind :=
  match code with
  | 1 => some requestTableInfo
  | 2 => some tableInfo
  | 3 => some requestReplicationStream
  | 4 => some startOfReplicationStream
  | _ => none

/-- The name of a kind in messages and metric labels. -/
def name : FrameKind → String
  | requestTableInfo => "REQUEST_TABLE_INFO"
  | tableInfo => "TABLE_INFO"
  | requestReplicationStream => "REQUEST_REPLICATION_STREAM"
  | startOfReplicationStream => "START_OF_REPLICATION_STREAM"

@[simp] theorem ofCode?_code (kind : FrameKind) : ofCode? kind.code = some kind := by
  cases kind <;> rfl

theorem code_of_ofCode? {c : UInt8} {kind : FrameKind} (h : ofCode? c = some kind) :
    kind.code = c := by
  unfold ofCode? at h
  split at h <;> simp_all <;> subst h <;> rfl

end FrameKind

/-- The question that opens every connection: what do you know about this table? -/
structure RequestTableInfo where
  protocolVersion : UInt32
  instanceId : InstanceId
  peerId : UInt64
  tableName : String
deriving DecidableEq, Repr

/-- A master's description of the requested table. -/
structure TableInfo where
  /-- Zero when the master does not have the table. -/
  masterTableId : UInt32
  rowCount : UInt64
  structureVersion : UInt64
  tableName : String
deriving DecidableEq, Repr

/-- The request for the data stream, put to the first master once all have answered. -/
structure RequestReplicationStream where
  masterTableId : UInt32
  structureVersion : UInt64
  initialRowCount : UInt64
deriving DecidableEq, Repr

/-- A master's word that the data follow, with all that is needed to create the table. -/
structure StartOfReplicationStream where
  masterTableId : UInt32
  metadata : Bytes
  symbols : Bytes
deriving DecidableEq, Repr

/-- A handshake frame. -/
inductive Frame where
  | requestTableInfo (request : RequestTableInfo)
  | tableInfo (info : TableInfo)
  | requestReplicationStream (request : RequestReplicationStream)
  | startOfReplicationStream (start : StartOfReplicationStream)
deriving DecidableEq, Repr

/-- The kind of a frame. -/
def Frame.kind : Frame → FrameKind
  | .requestTableInfo _ => .requestTableInfo
  | .tableInfo _ => .tableInfo
  | .requestReplicationStream _ => .requestReplicationStream
  | .startOfReplicationStream _ => .startOfReplicationStream

/-- The version of the protocol that a `requestTableInfo` frame announces. -/
def protocolVersion : UInt32 := 1

/-- The length of a frame's header. -/
def headerLength : Nat := 5

/-- The least size of a frame buffer: it has room for every frame of fixed length. -/
def leastFrameBuffer : Nat := 64

/-- The greatest number that a word of four bytes holds. -/
def greatestWord32 : Nat := 4294967295

/-- Why a byte string is no frame, or a frame cannot be written. -/
inductive FrameError where
  /-- A field or the frame itself needs more bytes than there are. -/
  | truncated (needed available : Nat)
  | unknownFrameType (code : Nat)
  /-- The declared length does not even cover the header. -/
  | invalidLength (declared : Nat)
  /-- A frame is longer than the room it has to fit. -/
  | tooLarge (length limit : Nat)
  | invalidTableName
  /-- The metadata would end behind the frame. -/
  | metadataOverrun (declared available : Nat)
deriving DecidableEq, Repr

/-- The wording of a frame error. -/
def FrameError.message : FrameError → String
  | truncated needed available =>
    s!"frame truncated: needed {needed} more bytes, {available} available"
  | unknownFrameType code => s!"unknown frame type {code}"
  | invalidLength declared =>
    s!"declared frame length {declared} is shorter than the frame header"
  | tooLarge length limit => s!"frame of {length} bytes exceeds the {limit} byte frame buffer"
  | invalidTableName => "table name is not valid UTF-16"
  | metadataOverrun declared available =>
    s!"metadata length {declared} overruns the frame ({available} bytes left)"

end ReplicaHandshake
