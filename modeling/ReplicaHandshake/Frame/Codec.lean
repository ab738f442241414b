import ReplicaHandshake.Frame.Basic

/-!
# Frames as bytes

`Frame.bytes` writes a frame and `Frame.decode` reads one.  Reading checks, in this order, that the
header is there, that its kind is known, that the declared length covers the header, that all
declared bytes are there, and then the fields of the body from left to right; the first check that
fails is the error.  Bytes behind the declared length are not looked at.
-/

namespace ReplicaHandshake

namespace Frame

/-- The bytes of a frame behind its header. -/
def body : Frame → Bytes
  | .requestTableInfo f =>
    LittleEndian.encode 4 f.protocolVersion.toNat ++ (LittleEndian.encode 16 f.instanceId.toNat ++
      (LittleEndian.encode 8 f.peerId.toNat ++ Utf16.encode f.tableName))
  | .tableInfo f =>
    LittleEndian.encode 4 f.masterTableId.toNat ++ (LittleEndian.encode 8 f.rowCount.toNat ++
      (LittleEndian.encode 8 f.structureVersion.toNat ++ Utf16.encode f.tableName))
  | .requestReplicationStream f =>
    LittleEndian.encode 4 f.masterTableId.toNat ++
      (LittleEndian.encode 8 f.structureVersion.toNat ++
        LittleEndian.encode 8 f.initialRowCount.toNat)
  | .startOfReplicationStream f =>
    LittleEndian.encode 4 f.masterTableId.toNat ++
      (LittleEndian.encode 8 f.metadata.length ++ (f.metadata ++ f.symbols))

/-- The length of a written frame, header included. -/
def encodedLength : Frame → Nat
  | .requestTableInfo f => headerLength + 28 + Utf16.byteLength f.tableName
  | .tableInfo f => headerLength + 20 + Utf16.byteLength f.tableName
  | .requestReplicationStream _ => headerLength + 20
  | .startOfReplicationStream f => headerLength + 12 + (f.metadata.length + f.symbols.length)

/-- A written frame: kind, length, body. -/
def bytes (f : Frame) : Bytes :=
  f.kind.code :: (LittleEndian.encode 4 f.encodedLength ++ f.body)

/-- Write a frame behind `dst`.  A frame whose length does not fit its own header is refused. -/
def encode (f : Frame) (dst : Bytes) : Except FrameError Bytes :=
  if f.encodedLength ≤ greatestWord32 then .ok (dst ++ f.bytes)
  else .error (.tooLarge f.encodedLength greatestWord32)

theorem length_body (f : Frame) : headerLength + f.body.length = f.encodedLength := by
  cases f <;> simp [body, encodedLength] <;> omega

@[simp] theorem length_bytes (f : Frame) : f.bytes.length = f.encodedLength := by
  rw [← length_body]
  simp only [bytes, headerLength, List.length_cons, List.length_append,
    LittleEndian.length_encode]
  omega

/-- Read a header: the kind of the frame and its declared length.  There is no answer while fewer
than `headerLength` bytes are there. -/
def peekHeader : Bytes → Except FrameError (Option (FrameKind × Nat))
  | code :: b₀ :: b₁ :: b₂ :: b₃ :: _ =>
    match FrameKind.ofCode? code with
    | none => .error (.unknownFrameType code.toNat)
    | some kind =>
      let declared := LittleEndian.decode [b₀, b₁, b₂, b₃]
      if declared < headerLength then .error (.invalidLength declared)
      else .ok (some (kind, declared))
  | _ => .ok none

/-- Take a word of `w` bytes off the front of a body. -/
def takeWord (w : Nat) (body : Bytes) : Except FrameError (Nat × Bytes) :=
  if body.length < w then .error (.truncated w body.length)
  else .ok (LittleEndian.decode (body.take w), body.drop w)

/-- Read all that is left of a body as a table name. -/
def takeName (body : Bytes) : Except FrameError String :=
  match Utf16.decode? body with
  | some name => .ok name
  | none => .error .invalidTableName

/-- Read the body of a frame whose kind is known. -/
def ofBody (kind : FrameKind) (body : Bytes) : Except FrameError Frame :=
  match kind with
  | .requestTableInfo => do
    let (version, body) ← takeWord 4 body
    let (low, body) ← takeWord 8 body
    let (high, body) ← takeWord 8 body
    let (peer, body) ← takeWord 8 body
    let name ← takeName body
    return .requestTableInfo
      { protocolVersion := version.toUInt32
        instanceId := BitVec.ofNat 128 (low + LittleEndian.size 8 * high)
        peerId := peer.toUInt64
        tableName := name }
  | .tableInfo => do
    let (table, body) ← takeWord 4 body
    let (rows, body) ← takeWord 8 body
    let (version, body) ← takeWord 8 body
    let name ← takeName body
    return .tableInfo
      { masterTableId := table.toUInt32
        rowCount := rows.toUInt64
        structureVersion := version.toUInt64
        tableName := name }
  | .requestReplicationStream => do
    let (table, body) ← takeWord 4 body
    let (version, body) ← takeWord 8 body
    let (rows, _) ← takeWord 8 body
    return .requestReplicationStream
      { masterTableId := table.toUInt32
        structureVersion := version.toUInt64
        initialRowCount := rows.toUInt64 }
  | .startOfReplicationStream => do
    let (table, body) ← takeWord 4 body
    let (declared, body) ← takeWord 8 body
    if body.length < declared then throw (.metadataOverrun declared body.length)
    return .startOfReplicationStream
      { masterTableId := table.toUInt32
        metadata := body.take declared
        symbols := body.drop declared }

/-- Read the frame at the front of a byte string. -/
def decode (s : Bytes) : Except FrameError Frame := do
  match ← peekHeader s with
  | none => throw (.truncated headerLength s.length)
  | some (kind, declared) =>
    if s.length < declared then throw (.truncated declared s.length)
    ofBody kind ((s.take declared).drop headerLength)

end Frame

end ReplicaHandshake
