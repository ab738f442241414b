import ReplicaHandshake.Proofs.Reading

/-!
# Frames that were written

What is written is read again: a text (`Utf16.decode?_encode`), a word
(`Frame.takeWord_encode`), and every frame that is not too long for its own header
(`Frame.decode_append`).  So no frame is the front of another one (`Frame.eq_of_bytes_prefix`),
and an inbound buffer that holds the front of a frame gives back this frame or none
(`InboundBuffer.nextFrame_of_bytes`, `InboundBuffer.nextFrame_of_front`).
-/

namespace ReplicaHandshake

theorem bind_ok {ε α β : Type} (a : α) (f : α → Except ε β) : (.ok a >>= f) = f a := rfl

/-! ### Texts -/

namespace Utf16

theorem unitsOfBytes?_bytesOfUnits (us : List UInt16) :
    unitsOfBytes? (bytesOfUnits us) = some us := by
  induction us with
  | nil => rfl
  | cons u us ih =>
    have hword : (LittleEndian.decode (LittleEndian.encode 2 u.toNat)).toUInt16 = u := by
      rw [LittleEndian.decode_encode (show u.toNat < 65536 from u.toNat_lt)]
      exact UInt16.toNat.inj (Nat.mod_eq_of_lt u.toNat_lt)
    have hbytes : bytesOfUnits (u :: us) = LittleEndian.encode 2 u.toNat ++ bytesOfUnits us := rfl
    rw [hbytes]
    show (unitsOfBytes? (bytesOfUnits us)).map
      ((LittleEndian.decode (LittleEndian.encode 2 u.toNat)).toUInt16 :: ·) = _
    rw [ih, hword, Option.map_some]

/-- A unit that is no surrogate is a character by itself. -/
theorem ofUnits?_single {u : UInt16} (hhigh : isHigh u = false) (hlow : isLow u = false)
    (us : List UInt16) :
    ofUnits? (u :: us) = (ofUnits? us).map (Char.ofNat u.toNat :: ·) := by
  cases us <;> simp [ofUnits?, hhigh, hlow]

theorem ofUnits?_pair {u v : UInt16} (hhigh : isHigh u) (hlow : isLow v) (us : List UInt16) :
    ofUnits? (u :: v :: us) = (ofUnits? us).map (ofPair u v :: ·) := by
  simp [ofUnits?, hhigh, hlow]

theorem ofUnits?_unitsOf (c : Char) (us : List UInt16) :
    ofUnits? (unitsOf c ++ us) = (ofUnits? us).map (c :: ·) := by
  have hvalid : c.toNat.isValidChar := c.valid
  by_cases hsmall : c.toNat < 0x10000
  · have hunit : c.toNat.toUInt16.toNat = c.toNat := Nat.mod_eq_of_lt hsmall
    have hhigh : isHigh c.toNat.toUInt16 = false := by
      rw [isHigh, hunit, Bool.and_eq_false_iff, decide_eq_false_iff_not, decide_eq_false_iff_not]
      obtain h | h := hvalid <;> omega
    have hlow : isLow c.toNat.toUInt16 = false := by
      rw [isLow, hunit, Bool.and_eq_false_iff, decide_eq_false_iff_not, decide_eq_false_iff_not]
      obtain h | h := hvalid <;> omega
    rw [unitsOf, if_pos hsmall, List.singleton_append, ofUnits?_single hhigh hlow, hunit,
      Char.ofNat_toNat]
  · have hbound : c.toNat < 0x110000 := by obtain h | h := hvalid <;> omega
    have hfirst : (0xd800 + (c.toNat - 0x10000) / 0x400).toUInt16.toNat =
        0xd800 + (c.toNat - 0x10000) / 0x400 := by
      rw [UInt16.toNat_ofNat', Nat.mod_eq_of_lt (by omega)]
    have hsecond : (0xdc00 + (c.toNat - 0x10000) % 0x400).toUInt16.toNat =
        0xdc00 + (c.toNat - 0x10000) % 0x400 := by
      rw [UInt16.toNat_ofNat', Nat.mod_eq_of_lt (by omega)]
    have hhigh : isHigh (0xd800 + (c.toNat - 0x10000) / 0x400).toUInt16 := by
      rw [isHigh, hfirst, Bool.and_eq_true, decide_eq_true_eq, decide_eq_true_eq]
      omega
    have hlow : isLow (0xdc00 + (c.toNat - 0x10000) % 0x400).toUInt16 := by
      rw [isLow, hsecond, Bool.and_eq_true, decide_eq_true_eq, decide_eq_true_eq]
      omega
    have hsum : 0x10000 + (0xd800 + (c.toNat - 0x10000) / 0x400 - 0xd800) * 0x400 +
        (0xdc00 + (c.toNat - 0x10000) % 0x400 - 0xdc00) = c.toNat := by omega
    rw [unitsOf, if_neg hsmall]
    show ofUnits? (_ :: _ :: us) = _
    rw [ofUnits?_pair hhigh hlow, ofPair, hfirst, hsecond, hsum, Char.ofNat_toNat]

theorem ofUnits?_units (text : List Char) : ofUnits? (units text) = some text := by
  induction text with
  | nil => rfl
  | cons c rest ih =>
    rw [units, List.flatMap_cons, ofUnits?_unitsOf]
    exact congrArg (Option.map (c :: ·)) ih

theorem decode?_encode (text : String) : decode? (encode text) = some text := by
  simp [decode?, encode, unitsOfBytes?_bytesOfUnits, ofUnits?_units]

end Utf16

/-! ### Frames -/

namespace Frame

variable {f g : Frame}

theorem takeWord_encode {w n : Nat} (h : n < LittleEndian.size w) (rest : Bytes) :
    takeWord w (LittleEndian.encode w n ++ rest) = .ok (n, rest) := by
  have hlong : ¬(LittleEndian.encode w n ++ rest).length < w := by simp
  have hlength := LittleEndian.length_encode w n
  rw [takeWord, if_neg hlong, List.take_left' hlength, List.drop_left' hlength,
    LittleEndian.decode_encode h]

theorem takeWord_encode32 (n : UInt32) (rest : Bytes) :
    takeWord 4 (LittleEndian.encode 4 n.toNat ++ rest) = .ok (n.toNat, rest) :=
  takeWord_encode n.toNat_lt rest

theorem takeWord_encode64 (n : UInt64) (rest : Bytes) :
    takeWord 8 (LittleEndian.encode 8 n.toNat ++ rest) = .ok (n.toNat, rest) :=
  takeWord_encode n.toNat_lt rest

theorem takeName_encode (name : String) : takeName (Utf16.encode name) = .ok name := by
  rw [takeName, Utf16.decode?_encode]

theorem ofBody_body (hfits : f.encodedLength ≤ greatestWord32) : ofBody f.kind f.body = .ok f := by
  cases f with
  | requestTableInfo request =>
    have hlt : request.instanceId.toNat < LittleEndian.size 8 * LittleEndian.size 8 :=
      request.instanceId.isLt
    have hlow : request.instanceId.toNat % LittleEndian.size 8 < LittleEndian.size 8 :=
      Nat.mod_lt _ (by decide)
    have hhigh : request.instanceId.toNat / LittleEndian.size 8 < LittleEndian.size 8 :=
      Nat.div_lt_of_lt_mul hlt
    have hsplit : LittleEndian.encode 16 request.instanceId.toNat =
        LittleEndian.encode 8 (request.instanceId.toNat % LittleEndian.size 8) ++
          LittleEndian.encode 8 (request.instanceId.toNat / LittleEndian.size 8) := by
      rw [← LittleEndian.encode_add hlow, Nat.mod_add_div]
    simp only [kind, body, ofBody, hsplit, List.append_assoc, takeWord_encode32, takeWord_encode64,
      takeWord_encode hlow, takeWord_encode hhigh, takeName_encode, bind_ok, Nat.mod_add_div,
      BitVec.ofNat_toNat,
      BitVec.setWidth_eq, UInt32.ofNat_toNat, UInt64.ofNat_toNat]
    rfl
  | tableInfo info =>
    simp only [kind, body, ofBody, takeWord_encode32, takeWord_encode64, takeName_encode, bind_ok,
      UInt32.ofNat_toNat, UInt64.ofNat_toNat]
    rfl
  | requestReplicationStream request =>
    have hlast := takeWord_encode64 request.initialRowCount []
    rw [List.append_nil] at hlast
    simp only [kind, body, ofBody, takeWord_encode32, takeWord_encode64, hlast, bind_ok,
      UInt32.ofNat_toNat, UInt64.ofNat_toNat]
    rfl
  | startOfReplicationStream start =>
    have hmetadata : start.metadata.length < LittleEndian.size 8 := by
      simp only [encodedLength, greatestWord32] at hfits
      simp only [LittleEndian.size]
      omega
    have hthere : ¬(start.metadata ++ start.symbols).length < start.metadata.length := by simp
    simp only [kind, body, ofBody, takeWord_encode32, takeWord_encode hmetadata, bind_ok,
      hthere, if_false, List.take_left, List.drop_left, UInt32.ofNat_toNat]
    rfl

theorem peekHeader_bytes (hfits : f.encodedLength ≤ greatestWord32) (rest : Bytes) :
    peekHeader (f.bytes ++ rest) = .ok (some (f.kind, f.encodedLength)) := by
  have hlength : LittleEndian.decode (LittleEndian.encode 4 f.encodedLength) = f.encodedLength :=
    LittleEndian.decode_encode (Nat.lt_succ_of_le hfits)
  have hleast : ¬f.encodedLength < headerLength := by
    rw [← length_body]
    omega
  simp only [LittleEndian.encode] at hlength
  simp [peekHeader, bytes, LittleEndian.encode, hlength, hleast]

/-- A frame that fits its own header is read as it was written, whatever comes behind it. -/
theorem decode_append (hfits : f.encodedLength ≤ greatestWord32) (rest : Bytes) :
    decode (f.bytes ++ rest) = .ok f := by
  have hheader := peekHeader_bytes hfits rest
  have hthere : ¬(f.bytes ++ rest).length < f.encodedLength := by
    rw [List.length_append, length_bytes]
    omega
  have hbody : ((f.bytes ++ rest).take f.encodedLength).drop headerLength = f.body := by
    rw [List.take_left' (length_bytes f)]
    simp [bytes, headerLength, LittleEndian.encode]
  simp only [decode, hheader, bind_ok, hthere, if_false, hbody]
  exact ofBody_body hfits

theorem decode_bytes (hfits : f.encodedLength ≤ greatestWord32) : decode f.bytes = .ok f := by
  have hdecode := decode_append hfits []
  rwa [List.append_nil] at hdecode

/-- No frame is the front of another one. -/
theorem eq_of_bytes_prefix {rest : Bytes} (hf : f.encodedLength ≤ greatestWord32)
    (hg : g.encodedLength ≤ greatestWord32) (hfront : f.bytes ++ rest <+: g.bytes) :
    f = g ∧ rest = [] := by
  obtain ⟨behind, heq⟩ := hfront
  rw [List.append_assoc] at heq
  have hheader := peekHeader_bytes hf (rest ++ behind)
  rw [heq, ← List.append_nil g.bytes, peekHeader_bytes hg] at hheader
  simp only [Except.ok.injEq, Option.some.injEq, Prod.mk.injEq] at hheader
  have hlengths := congrArg List.length heq
  rw [List.length_append, length_bytes, length_bytes, hheader.2, Nat.add_eq_left,
    List.length_eq_zero_iff, List.append_eq_nil_iff] at hlengths
  obtain ⟨rfl, rfl⟩ := hlengths
  rw [List.append_nil, List.append_nil] at heq
  have hdecode := decode_bytes hf
  rw [heq, decode_bytes hg] at hdecode
  exact ⟨(Except.ok.inj hdecode).symm, rfl⟩

end Frame

/-! ### The inbound buffer -/

namespace InboundBuffer

variable {b : InboundBuffer} {f : Frame}

/-- A whole frame that can be held is given back. -/
theorem nextFrame_of_bytes (hfits : f.encodedLength ≤ greatestWord32)
    (hroom : f.encodedLength ≤ b.capacity) {rest : Bytes} (hthere : b.buffered = f.bytes ++ rest) :
    b.nextFrame = (.ok (some f), { b with buffered := rest }) := by
  have hlength := f.length_bytes
  have hlong : ¬b.buffered.length < f.encodedLength := by
    rw [hthere, List.length_append, hlength]
    omega
  rw [hthere] at hlong
  simp only [nextFrame, hthere, Frame.peekHeader_bytes hfits, Nat.not_lt.2 hroom, hlong, if_false,
    List.take_left' hlength, List.drop_left' hlength, Frame.decode_bytes hfits]
  rfl

/-- As long as a frame is not there as a whole, there is none. -/
theorem nextFrame_of_front (hfits : f.encodedLength ≤ greatestWord32)
    (hroom : f.encodedLength ≤ b.capacity) (hfront : b.buffered <+: f.bytes)
    (hpart : b.buffered ≠ f.bytes) : b.nextFrame = (.ok none, b) := by
  obtain ⟨behind, hbytes⟩ := hfront
  have hheader := Frame.peekHeader_bytes hfits []
  rw [List.append_nil, ← hbytes] at hheader
  have hshort : b.buffered.length < f.encodedLength := by
    rw [← f.length_bytes, ← hbytes, List.length_append]
    refine Nat.lt_add_of_pos_right (List.length_pos_iff.2 ?_)
    rintro rfl
    exact hpart (by rw [← hbytes, List.append_nil])
  by_cases hleast : headerLength ≤ b.buffered.length
  · have htake : (b.buffered ++ behind).take headerLength = b.buffered.take headerLength :=
      List.take_append_of_le_length hleast
    rw [← Frame.peekHeader_take _ (Nat.le_refl headerLength), htake,
      Frame.peekHeader_take _ (Nat.le_refl headerLength)] at hheader
    simp only [nextFrame, hheader, Nat.not_lt.2 hroom, hshort, if_true, if_false]
  · have hnone : Frame.peekHeader b.buffered = .ok none := by
      generalize b.buffered = bs at hleast
      rcases bs with _ | ⟨_, _ | ⟨_, _ | ⟨_, _ | ⟨_, _ | ⟨_, _⟩⟩⟩⟩⟩
      iterate 5 rfl
      simp [headerLength] at hleast
    simp only [nextFrame, hnone]

/-- Where the front of a frame has been read, the next frame is this one, or there is none yet. -/
theorem nextFrame_of_prefix (hfits : f.encodedLength ≤ greatestWord32)
    (hroom : f.encodedLength ≤ b.capacity) (hfront : b.buffered <+: f.bytes) :
    b.nextFrame = (.ok none, b) ∨ b.nextFrame = (.ok (some f), { b with buffered := [] }) := by
  by_cases hwhole : b.buffered = f.bytes
  · exact .inr (nextFrame_of_bytes hfits hroom (hwhole.trans (List.append_nil _).symm))
  · exact .inl (nextFrame_of_front hfits hroom hfront hwhole)

/-- Over a whole frame that does not fit its buffer there is an error. -/
theorem nextFrame_ne_none (hfits : f.encodedLength ≤ greatestWord32)
    (hthere : b.buffered = f.bytes) :
    b.nextFrame.1 ≠ .ok none := by
  by_cases hroom : f.encodedLength ≤ b.capacity
  · rw [nextFrame_of_bytes hfits hroom (hthere.trans (List.append_nil _).symm)]
    simp
  · have hheader := Frame.peekHeader_bytes hfits []
    rw [List.append_nil, ← hthere] at hheader
    simp [nextFrame, hheader, Nat.lt_of_not_le hroom]

end InboundBuffer

end ReplicaHandshake
