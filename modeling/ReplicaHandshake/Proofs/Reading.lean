import ReplicaHandshake.Frame.Inbound

/-!
# Frames that were read

What reading accepts, writing gives back: a text (`Utf16.encode_of_decode?`), a word
(`Frame.takeWord_ok`), and every kind of frame whose body is looked at up to its end
(`Frame.body_of_ofBody`).  A `requestReplicationStream` frame is the one exception, since bytes
behind its last field are not looked at.

So `InboundBuffer.nextFrame_some` says that the inbound buffer parts with the bytes of the very
frame that it gives back, and with no other.
-/

namespace ReplicaHandshake

theorem bind_eq_ok {ε α β : Type} {x : Except ε α} {f : α → Except ε β} {b : β} :
    (x >>= f) = .ok b ↔ ∃ a, x = .ok a ∧ f a = .ok b := by
  cases x <;> simp [bind, Except.bind]

/-! ### Words -/

namespace LittleEndian

theorem toNat_toUInt32 {n : Nat} (h : n < size 4) : n.toUInt32.toNat = n :=
  Nat.mod_eq_of_lt h

theorem toNat_toUInt64 {n : Nat} (h : n < size 8) : n.toUInt64.toNat = n :=
  Nat.mod_eq_of_lt h

/-- A number of two words is written as its low word followed by its high one. -/
theorem encode_add {v w low high : Nat} (h : low < size v) :
    encode (v + w) (low + size v * high) = encode v low ++ encode w high := by
  induction v generalizing low with
  | zero =>
    have hlow : low = 0 := Nat.lt_one_iff.1 h
    simp [encode, size, hlow]
  | succ v ih =>
    have hquotient : (low + 256 * size v * high) / 256 = low / 256 + size v * high := by
      rw [Nat.mul_assoc, Nat.add_mul_div_left _ _ (by decide)]
    have hbyte : UInt8.ofNat (low + 256 * size v * high) = UInt8.ofNat low := by
      apply UInt8.toNat.inj
      rw [UInt8.toNat_ofNat', UInt8.toNat_ofNat', Nat.mul_assoc]
      exact Nat.add_mul_mod_self_left ..
    rw [Nat.succ_add, size, encode, hquotient, hbyte, ih (Nat.div_lt_of_lt_mul h)]
    rfl

end LittleEndian

/-! ### Texts -/

namespace Utf16

theorem bytesOfUnits_of_unitsOfBytes? {bs : Bytes} {us : List UInt16}
    (h : unitsOfBytes? bs = some us) : bytesOfUnits us = bs := by
  fun_induction unitsOfBytes? bs generalizing us with
  | case1 =>
    cases h
    rfl
  | case2 => cases h
  | case3 b c rest ih =>
    obtain ⟨vs, hvs, rfl⟩ := Option.map_eq_some_iff.1 h
    have hword : LittleEndian.encode 2 (LittleEndian.decode [b, c]).toUInt16.toNat = [b, c] := by
      have hlt : LittleEndian.decode [b, c] < 65536 := LittleEndian.decode_lt [b, c]
      rw [UInt16.toNat_ofNat', Nat.mod_eq_of_lt hlt]
      exact LittleEndian.encode_decode [b, c]
    rw [bytesOfUnits, List.flatMap_cons, hword]
    exact congrArg (b :: c :: ·) (ih hvs)

theorem toNat_ofNat {n : Nat} (h : n.isValidChar) : (Char.ofNat n).toNat = n := by
  rw [Char.ofNat, dif_pos h]
  rfl

theorem unitsOf_ofNat {u : UInt16} (hhigh : ¬isHigh u) (hlow : ¬isLow u) :
    unitsOf (Char.ofNat u.toNat) = [u] := by
  have hu : u.toNat < 65536 := u.toNat_lt
  simp only [isHigh, isLow, Bool.and_eq_true, decide_eq_true_eq, not_and, Nat.not_lt] at hhigh hlow
  have hvalid : u.toNat.isValidChar := by
    rcases Nat.lt_or_ge u.toNat 0xd800 with h | h
    · exact .inl h
    · exact .inr (by have := hlow (hhigh h); omega)
  rw [unitsOf, toNat_ofNat hvalid, if_pos hu]
  simp

theorem unitsOf_ofPair {u v : UInt16} (hu : isHigh u) (hv : isLow v) :
    unitsOf (ofPair u v) = [u, v] := by
  simp only [isHigh, isLow, Bool.and_eq_true, decide_eq_true_eq] at hu hv
  have hvalid : (0x10000 + (u.toNat - 0xd800) * 0x400 + (v.toNat - 0xdc00)).isValidChar :=
    .inr (by omega)
  rw [unitsOf, ofPair, toNat_ofNat hvalid, if_neg (by omega)]
  have hfirst : 0xd800 + (0x10000 + (u.toNat - 0xd800) * 0x400 + (v.toNat - 0xdc00) - 0x10000) /
      0x400 = u.toNat := by omega
  have hsecond : 0xdc00 + (0x10000 + (u.toNat - 0xd800) * 0x400 + (v.toNat - 0xdc00) - 0x10000) %
      0x400 = v.toNat := by omega
  rw [hfirst, hsecond]
  simp

theorem units_of_ofUnits? {us : List UInt16} {text : List Char} (h : ofUnits? us = some text) :
    units text = us := by
  fun_induction ofUnits? us generalizing text with
  | case1 =>
    cases h
    rfl
  | case2 => cases h
  | case3 u hunit =>
    cases h
    simp only [Bool.or_eq_true, not_or] at hunit
    simp [units, unitsOf_ofNat hunit.1 hunit.2]
  | case4 u v rest hu hv ih =>
    obtain ⟨tail, htail, rfl⟩ := Option.map_eq_some_iff.1 h
    rw [units, List.flatMap_cons, unitsOf_ofPair hu hv]
    exact congrArg (u :: v :: ·) (ih htail)
  | case5 => cases h
  | case6 => cases h
  | case7 u v rest hu hl ih =>
    obtain ⟨tail, htail, rfl⟩ := Option.map_eq_some_iff.1 h
    rw [units, List.flatMap_cons, unitsOf_ofNat hu hl]
    exact congrArg (u :: ·) (ih htail)

theorem encode_of_decode? {bs : Bytes} {text : String} (h : decode? bs = some text) :
    encode text = bs := by
  obtain ⟨us, hus, htext⟩ := Option.bind_eq_some_iff.1 h
  obtain ⟨cs, hcs, rfl⟩ := Option.map_eq_some_iff.1 htext
  rw [encode, String.toList_ofList, units_of_ofUnits? hcs, bytesOfUnits_of_unitsOfBytes? hus]

end Utf16

/-! ### Frames -/

namespace Frame

theorem takeWord_ok {w n : Nat} {body rest : Bytes} (h : takeWord w body = .ok (n, rest)) :
    body = LittleEndian.encode w n ++ rest ∧ n < LittleEndian.size w := by
  unfold takeWord at h
  split at h
  · cases h
  next hw =>
    obtain ⟨rfl, rfl⟩ : LittleEndian.decode (body.take w) = n ∧ body.drop w = rest := by
      simpa using h
    have hlength : (body.take w).length = w := List.length_take_of_le (Nat.le_of_not_lt hw)
    have hword := LittleEndian.encode_decode (body.take w)
    have hlt := LittleEndian.decode_lt (body.take w)
    rw [hlength] at hword hlt
    exact ⟨by rw [hword, List.take_append_drop], hlt⟩

theorem takeName_ok {body : Bytes} {name : String} (h : takeName body = .ok name) :
    body = Utf16.encode name := by
  unfold takeName at h
  split at h
  next hname =>
    cases h
    exact (Utf16.encode_of_decode? hname).symm
  · cases h

/-- The body of a frame is what its fields were read from, if it was read up to its end. -/
theorem body_of_ofBody {kind : FrameKind} {body : Bytes} {f : Frame}
    (h : ofBody kind body = .ok f) (hkind : f.kind ≠ .requestReplicationStream) :
    f.kind = kind ∧ f.body = body := by
  cases kind with
  | requestTableInfo =>
    simp only [ofBody, bind_eq_ok] at h
    obtain ⟨⟨version, _⟩, h₁, ⟨low, _⟩, h₂, ⟨high, _⟩, h₃, ⟨peer, _⟩, h₄, name, h₅, hf⟩ := h
    obtain ⟨rfl, hversion⟩ := takeWord_ok h₁
    obtain ⟨rfl, hlow⟩ := takeWord_ok h₂
    obtain ⟨rfl, hhigh⟩ := takeWord_ok h₃
    obtain ⟨rfl, hpeer⟩ := takeWord_ok h₄
    obtain rfl := takeName_ok h₅
    cases hf
    have hlt : low + LittleEndian.size 8 * high < 2 ^ 128 := by
      simp only [LittleEndian.size] at hlow hhigh ⊢
      omega
    refine ⟨rfl, ?_⟩
    simp only [Frame.body, LittleEndian.toNat_toUInt32 hversion, LittleEndian.toNat_toUInt64 hpeer,
      BitVec.toNat_ofNat, Nat.mod_eq_of_lt hlt, LittleEndian.encode_add (w := 8) hlow,
      List.append_assoc]
  | tableInfo =>
    simp only [ofBody, bind_eq_ok] at h
    obtain ⟨⟨table, _⟩, h₁, ⟨rows, _⟩, h₂, ⟨version, _⟩, h₃, name, h₄, hf⟩ := h
    obtain ⟨rfl, htable⟩ := takeWord_ok h₁
    obtain ⟨rfl, hrows⟩ := takeWord_ok h₂
    obtain ⟨rfl, hversion⟩ := takeWord_ok h₃
    obtain rfl := takeName_ok h₄
    cases hf
    refine ⟨rfl, ?_⟩
    simp only [Frame.body, LittleEndian.toNat_toUInt32 htable, LittleEndian.toNat_toUInt64 hrows,
      LittleEndian.toNat_toUInt64 hversion]
  | requestReplicationStream =>
    simp only [ofBody, bind_eq_ok] at h
    obtain ⟨_, _, _, _, _, _, hf⟩ := h
    cases hf
    exact absurd rfl hkind
  | startOfReplicationStream =>
    simp only [ofBody, bind_eq_ok] at h
    obtain ⟨⟨table, _⟩, h₁, ⟨declared, rest⟩, h₂, hf⟩ := h
    obtain ⟨rfl, htable⟩ := takeWord_ok h₁
    obtain ⟨rfl, hdeclared⟩ := takeWord_ok h₂
    by_cases hoverrun : rest.length < declared
    · simp [hoverrun] at hf
      cases hf
    simp [hoverrun] at hf
    cases hf
    refine ⟨rfl, ?_⟩
    have hmetadata : (rest.take declared).length = declared :=
      List.length_take_of_le (Nat.le_of_not_lt hoverrun)
    simp only [Frame.body, LittleEndian.toNat_toUInt32 htable, hmetadata, List.take_append_drop]

theorem peekHeader_some {s : Bytes} {kind : FrameKind} {declared : Nat}
    (h : peekHeader s = .ok (some (kind, declared))) :
    headerLength ≤ declared ∧ declared ≤ greatestWord32 ∧
      ∃ rest, s = kind.code :: (LittleEndian.encode 4 declared ++ rest) := by
  unfold peekHeader at h
  split at h
  next code b₀ b₁ b₂ b₃ rest =>
    split at h
    · cases h
    next kind' hcode =>
      simp only at h
      split at h
      · cases h
      next hlength =>
        cases h
        refine ⟨Nat.le_of_not_lt hlength, ?_, rest, ?_⟩
        · exact Nat.le_of_lt_succ (LittleEndian.decode_lt [b₀, b₁, b₂, b₃])
        have hword := LittleEndian.encode_decode [b₀, b₁, b₂, b₃]
        rw [List.length_cons, List.length_cons, List.length_cons, List.length_cons,
          List.length_nil] at hword
        rw [hword, FrameKind.code_of_ofCode? hcode]
        rfl
  · cases h

theorem peekHeader_take (s : Bytes) {n : Nat} (h : headerLength ≤ n) :
    peekHeader (s.take n) = peekHeader s := by
  obtain ⟨k, rfl⟩ : ∃ k, n = k + 5 := Nat.exists_eq_add_of_le' h
  rcases s with _ | ⟨_, _ | ⟨_, _ | ⟨_, _ | ⟨_, _ | ⟨_, _⟩⟩⟩⟩⟩ <;> rfl

/-- A frame that was read is the bytes that its header declares, and can be written. -/
theorem bytes_of_decode {s : Bytes} {kind : FrameKind} {declared : Nat} {f : Frame}
    (hheader : peekHeader s = .ok (some (kind, declared))) (h : decode s = .ok f)
    (hkind : f.kind ≠ .requestReplicationStream) :
    f.bytes = s.take declared ∧ f.encodedLength ≤ greatestWord32 := by
  obtain ⟨hleast, hmost, rest, hs⟩ := peekHeader_some hheader
  simp only [decode, hheader] at h
  by_cases hshort : s.length < declared
  · simp [hshort, bind, Except.bind] at h
  have hbody : ofBody kind ((s.take declared).drop headerLength) = .ok f := by
    simpa [hshort, bind, Except.bind] using h
  obtain ⟨hsame, hfields⟩ := body_of_ofBody hbody hkind
  have hlength : f.encodedLength = declared := by
    rw [← length_body, hfields, List.length_drop, List.length_take]
    omega
  have hfront : (s.take declared).take headerLength =
      kind.code :: LittleEndian.encode 4 declared := by
    rw [List.take_take, Nat.min_eq_left hleast, hs]
    simp [headerLength]
  refine ⟨?_, hlength ▸ hmost⟩
  rw [bytes, hlength, hfields, hsame, ← List.cons_append, ← hfront, List.take_append_drop]

end Frame

/-! ### The inbound buffer -/

namespace InboundBuffer

theorem nextFrame_some {b b' : InboundBuffer} {f : Frame} (h : b.nextFrame = (.ok (some f), b'))
    (hkind : f.kind ≠ .requestReplicationStream) :
    b.buffered = f.bytes ++ b'.buffered ∧ f.encodedLength ≤ greatestWord32 := by
  unfold nextFrame at h
  split at h
  · cases h
  · cases h
  next kind declared hheader =>
    split at h
    · cases h
    split at h
    · cases h
    next hroom hthere =>
      simp only [Prod.mk.injEq] at h
      obtain ⟨hframe, rfl⟩ := h
      have hdecode : Frame.decode (b.buffered.take declared) = .ok f := by
        cases hd : Frame.decode (b.buffered.take declared) <;> simp_all [Except.map]
      obtain ⟨hleast, -⟩ := Frame.peekHeader_some hheader
      rw [← Frame.peekHeader_take b.buffered hleast] at hheader
      obtain ⟨hbytes, hfits⟩ := Frame.bytes_of_decode hheader hdecode hkind
      rw [List.take_take, Nat.min_self] at hbytes
      exact ⟨by rw [hbytes, List.take_append_drop], hfits⟩

/-- A frame that is there as a whole is taken, whatever comes behind it. -/
theorem nextFrame_append {b b' : InboundBuffer} {f : Frame} (h : b.nextFrame = (.ok (some f), b'))
    (bs : Bytes) :
    nextFrame { b with buffered := b.buffered ++ bs } =
      (.ok (some f), { b' with buffered := b'.buffered ++ bs }) := by
  unfold nextFrame at h
  split at h
  · cases h
  · cases h
  next kind declared hheader =>
    split at h
    · cases h
    next hroom =>
    split at h
    · cases h
    next hthere =>
      have hthere := Nat.le_of_not_lt hthere
      obtain ⟨hleast, -⟩ := Frame.peekHeader_some hheader
      have htake : (b.buffered ++ bs).take declared = b.buffered.take declared :=
        List.take_append_of_le_length hthere
      have hheader' : Frame.peekHeader (b.buffered ++ bs) = .ok (some (kind, declared)) := by
        rw [← Frame.peekHeader_take _ hleast, htake, Frame.peekHeader_take _ hleast, hheader]
      have hlong : ¬(b.buffered ++ bs).length < declared := by
        rw [List.length_append]
        omega
      simp only [Prod.mk.injEq] at h
      obtain ⟨hframe, rfl⟩ := h
      simp only [nextFrame, hheader', hroom, hlong, if_false, htake, hframe,
        List.drop_append_of_le_length hthere]

end InboundBuffer

end ReplicaHandshake
