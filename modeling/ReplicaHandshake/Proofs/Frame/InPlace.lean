import ReplicaHandshake.Proofs.Writing

/-!
# Frames written in place

A frame is written behind what a buffer holds: its kind, its length, and then its fields one after
the other, a 128-bit number as its low and its high half, a name unit by unit (`Frame.write`).  The
only check comes first, so a frame that is refused leaves the buffer as it was.  `Frame.run_write`
says that this comes to the same as to put the bytes of the frame there at once, or not at all.

A frame that was written is as long as it was said to be, and it is read as it was written, whatever
comes behind it (`Frame.read_as_written`).
-/

namespace ReplicaHandshake

namespace Frame

variable {f : Frame} {dst : Bytes}

/-! ### Writing field by field -/

/-- Put bytes behind what a buffer holds. -/
def put (bs : Bytes) : StateM Bytes Unit :=
  modify (· ++ bs)

/-- Put a word of `w` bytes. -/
def putWord (w n : Nat) : StateM Bytes Unit :=
  put (LittleEndian.encode w n)

/-- Put a name, unit by unit. -/
def putName (name : String) : StateM Bytes Unit :=
  (Utf16.units name.toList).forM fun u => putWord 2 u.toNat

/-- Put all that is behind the header. -/
def putBody : Frame → StateM Bytes Unit
  | .requestTableInfo f => do
    putWord 4 f.protocolVersion.toNat
    putWord 8 (f.instanceId.setWidth 64).toNat
    putWord 8 ((f.instanceId >>> 64).setWidth 64).toNat
    putWord 8 f.peerId.toNat
    putName f.tableName
  | .tableInfo f => do
    putWord 4 f.masterTableId.toNat
    putWord 8 f.rowCount.toNat
    putWord 8 f.structureVersion.toNat
    putName f.tableName
  | .requestReplicationStream f => do
    putWord 4 f.masterTableId.toNat
    putWord 8 f.structureVersion.toNat
    putWord 8 f.initialRowCount.toNat
  | .startOfReplicationStream f => do
    putWord 4 f.masterTableId.toNat
    putWord 8 f.metadata.length
    put f.metadata
    put f.symbols

/-- Write a frame behind what a buffer holds, unless its length does not fit its own header. -/
def write (f : Frame) : StateM Bytes (Except FrameError Unit) := do
  if greatestWord32 < f.encodedLength then
    return .error (.tooLarge f.encodedLength greatestWord32)
  put [f.kind.code]
  putWord 4 f.encodedLength
  putBody f
  return .ok ()

/-- What was put behind what a buffer holds is these bytes, and the buffer holds the
rest as before. -/
def Puts (work : StateM Bytes Unit) (bs : Bytes) : Prop :=
  ∀ dst, work.run dst = ((), dst ++ bs)

section Puts

variable {first second : StateM Bytes Unit} {bs bs' : Bytes}

theorem Puts.nothing : Puts (pure ()) [] :=
  fun dst => congrArg (Prod.mk ()) (List.append_nil dst).symm

theorem Puts.append (hfirst : Puts first bs) (hsecond : Puts second bs') :
    Puts (do first; second) (bs ++ bs') := by
  intro dst
  rw [StateT.run_bind, hfirst dst, ← List.append_assoc]
  exact hsecond (dst ++ bs)

theorem put_puts (bs : Bytes) : Puts (put bs) bs := fun _ => rfl

theorem putWord_puts (w n : Nat) : Puts (putWord w n) (LittleEndian.encode w n) :=
  put_puts _

theorem putName_puts (name : String) : Puts (putName name) (Utf16.encode name) := by
  rw [putName, Utf16.encode]
  induction Utf16.units name.toList with
  | nil => exact .nothing
  | cons u us ih =>
    exact (putWord_puts 2 u.toNat).append ih

end Puts

theorem encode_halves (id : InstanceId) :
    LittleEndian.encode 8 (id.setWidth 64).toNat ++ LittleEndian.encode 8
      ((id >>> 64).setWidth 64).toNat =
      LittleEndian.encode 16 id.toNat := by
  have hlow : (id.setWidth 64).toNat < LittleEndian.size 8 := (id.setWidth 64).isLt
  have hhigh : ((id >>> 64).setWidth 64).toNat = id.toNat / 2 ^ 64 := by
    have hlt : id.toNat / 2 ^ 64 < 2 ^ 64 := Nat.div_lt_of_lt_mul id.isLt
    rw [BitVec.toNat_setWidth, BitVec.toNat_ushiftRight, Nat.shiftRight_eq_div_pow,
      Nat.mod_eq_of_lt hlt]
  have hsize : LittleEndian.size 8 = 2 ^ 64 := rfl
  have hwhole : (id.setWidth 64).toNat + LittleEndian.size 8 * ((id >>> 64).setWidth 64).toNat =
      id.toNat := by
    rw [hhigh, hsize, BitVec.toNat_setWidth, Nat.mod_add_div]
  rw [← LittleEndian.encode_add hlow, hwhole]

theorem putBody_puts (f : Frame) : Puts (putBody f) f.body := by
  cases f with
  | requestTableInfo f =>
    rw [body, ← encode_halves, List.append_assoc]
    exact (putWord_puts _ _).append ((putWord_puts _ _).append ((putWord_puts _ _).append
      ((putWord_puts _ _).append (putName_puts _))))
  | tableInfo f =>
    exact (putWord_puts _ _).append
      ((putWord_puts _ _).append ((putWord_puts _ _).append (putName_puts _)))
  | requestReplicationStream f =>
    exact (putWord_puts _ _).append ((putWord_puts _ _).append (putWord_puts _ _))
  | startOfReplicationStream f =>
    exact (putWord_puts _ _).append ((putWord_puts _ _).append ((put_puts _).append (put_puts _)))

theorem run_write_of_fits (hfits : f.encodedLength ≤ greatestWord32) (dst : Bytes) :
    f.write.run dst = (.ok (), dst ++ f.bytes) := by
  have hputs : Puts (do put [f.kind.code]; putWord 4 f.encodedLength; putBody f) f.bytes :=
    (put_puts _).append ((putWord_puts _ _).append (putBody_puts f))
  have hwrite : f.write = (do
      put [f.kind.code]
      putWord 4 f.encodedLength
      putBody f
      return .ok ()) := if_neg (Nat.not_lt.2 hfits)
  rw [hwrite]
  exact congrArg (fun r => (Except.ok (), r.2)) (hputs dst)

theorem run_write_of_not_fits (hlong : greatestWord32 < f.encodedLength) (dst : Bytes) :
    f.write.run dst = (.error (.tooLarge f.encodedLength greatestWord32), dst) := by
  have hwrite : f.write = return .error (.tooLarge f.encodedLength greatestWord32) := if_pos hlong
  rw [hwrite]
  rfl

/-- To write a frame in place is to encode it: what comes of it is in the buffer, or else the buffer
is as it was. -/
theorem run_write (f : Frame) (dst : Bytes) :
    f.write.run dst = match f.encode dst with
      | .ok written => (.ok (), written)
      | .error e => (.error e, dst) := by
  by_cases hfits : f.encodedLength ≤ greatestWord32
  · rw [run_write_of_fits hfits, encode, if_pos hfits]
  · rw [run_write_of_not_fits (Nat.lt_of_not_le hfits), encode, if_neg hfits]

/-! ### Reading what was written -/

/-- Whatever a buffer holds, a frame that fits its own header is written behind it, and nothing
before is changed.  It takes as many bytes as was said, its header says so as well, and it is read
as it was written, whatever comes behind it.  A frame that does not fit its own header is refused as
too large, and the buffer is left as it was. -/
theorem read_as_written (f : Frame) (dst : Bytes) :
    (f.encodedLength ≤ greatestWord32 → ∃ bs,
      f.encode dst = .ok (dst ++ bs) ∧ f.write.run dst = (.ok (), dst ++ bs) ∧
      bs.length = f.encodedLength ∧ LittleEndian.decode ((bs.drop 1).take 4) = f.encodedLength ∧
      ∀ behind, decode (bs ++ behind) = .ok f) ∧
    (greatestWord32 < f.encodedLength →
      f.encode dst = .error (.tooLarge f.encodedLength greatestWord32) ∧
      f.write.run dst = (.error (.tooLarge f.encodedLength greatestWord32), dst)) := by
  refine ⟨fun hfits => ?_, fun hlong => ?_⟩
  · have hencode : f.encode dst = .ok (dst ++ f.bytes) := if_pos hfits
    have hheader : (f.bytes.drop 1).take 4 = LittleEndian.encode 4 f.encodedLength :=
      List.take_left' (LittleEndian.length_encode 4 _)
    refine ⟨f.bytes, hencode, by rw [run_write, hencode], length_bytes f, ?_, decode_append hfits⟩
    rw [hheader, LittleEndian.decode_encode (Nat.lt_succ_of_le hfits)]
  · have hencode : f.encode dst = .error (.tooLarge f.encodedLength greatestWord32) :=
      if_neg (Nat.not_le.2 hlong)
    exact ⟨hencode, by rw [run_write, hencode]⟩

/-- A description of a table whose name takes a surrogate pair. -/
def pairedInfo : Frame :=
  .tableInfo ⟨7, 18446744073709551615, 3, "t😀"⟩

/-- The start of a stream with so many bytes of metadata. -/
def startOfLength (n : Nat) : Frame :=
  .startOfReplicationStream ⟨7, List.replicate n 0, []⟩

/-- The first one is written behind two bytes in 31 more, the second one is refused. -/
theorem writing_rehearsed :
    (∃ bs, pairedInfo.encode [1, 2] = .ok ([1, 2] ++ bs) ∧ bs.length = 31 ∧
      decode (bs ++ [9, 9]) = .ok pairedInfo) ∧
    (startOfLength greatestWord32).write.run [1, 2] =
      (.error (.tooLarge 4294967312 4294967295), [1, 2]) := by
  have hlength : pairedInfo.encodedLength = 31 := by decide +kernel
  have hmetadata : ∀ n, (startOfLength n).encodedLength = 17 + n := by
    simp [startOfLength, encodedLength, headerLength]
  have hlong : (startOfLength greatestWord32).encodedLength = 4294967312 := hmetadata _
  constructor
  · obtain ⟨bs, hencode, -, hbytes, -, hdecode⟩ :=
      (read_as_written pairedInfo [1, 2]).1 (by rw [hlength]; decide)
    exact ⟨bs, hencode, hbytes.trans hlength, hdecode _⟩
  · have hrefused :=
      ((read_as_written (startOfLength greatestWord32) [1, 2]).2 (by rw [hlong]; decide)).2
    rwa [hlong] at hrefused

end Frame

end ReplicaHandshake
