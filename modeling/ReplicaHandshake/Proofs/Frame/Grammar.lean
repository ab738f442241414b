import ReplicaHandshake.Proofs.Writing

/-!
# What is a frame

`Frame.IsFrame` says which byte strings start with a frame, without a word about how one is read:
the header is there, its kind is known, the length that it declares covers the header and is there
as a whole, and the body is as its kind asks for (`Frame.IsBody`).  Names are text (`Utf16.IsText`):
each half of a surrogate pair has the other one beside it.

`Frame.checks` lists what has to be checked, in order, each check with the error that it gives.  To
read a frame is to make these checks up to the first one that fails (`Frame.decode_verdict`), and
all of them are passed exactly by the frames (`Frame.verdict_checks`).
-/

namespace ReplicaHandshake

/-! ### Texts -/

namespace Utf16

/-- The units are those of a text: no surrogate stands alone. -/
inductive IsText : List UInt16 → Prop where
  | nil : IsText []
  | unit {u : UInt16} {us : List UInt16} : isHigh u = false → isLow u = false → IsText us →
    IsText (u :: us)
  | pair {u v : UInt16} {us : List UInt16} : isHigh u → isLow v → IsText us → IsText (u :: v :: us)

theorem isText_iff {us : List UInt16} : IsText us ↔ (ofUnits? us).isSome := by
  constructor
  · intro htext
    induction htext with
    | nil => rfl
    | unit hhigh hlow _ ih => rwa [ofUnits?_single hhigh hlow, Option.isSome_map]
    | pair hhigh hlow _ ih => rwa [ofUnits?_pair hhigh hlow, Option.isSome_map]
  · intro hsome
    fun_induction ofUnits? us with
    | case1 => exact .nil
    | case2 => cases hsome
    | case3 u hunit =>
      simp only [Bool.or_eq_true, not_or, Bool.not_eq_true] at hunit
      exact .unit hunit.1 hunit.2 .nil
    | case4 u v rest hhigh hlow ih =>
      rw [Option.isSome_map] at hsome
      exact .pair hhigh hlow (ih hsome)
    | case5 => cases hsome
    | case6 => cases hsome
    | case7 u v rest hhigh hlow ih =>
      rw [Option.isSome_map] at hsome
      exact .unit (Bool.not_eq_true _ ▸ hhigh) (Bool.not_eq_true _ ▸ hlow) (ih hsome)

/-- The bytes are those of a text: there are as many as make up whole units, and these are
those of a text. -/
def IsEncoded (bs : Bytes) : Prop :=
  ∃ us, bytesOfUnits us = bs ∧ IsText us

theorem isEncoded_iff {bs : Bytes} : IsEncoded bs ↔ (decode? bs).isSome := by
  rw [decode?]
  constructor
  · rintro ⟨us, rfl, htext⟩
    rw [unitsOfBytes?_bytesOfUnits, Option.bind_some, Option.isSome_map]
    exact isText_iff.1 htext
  · intro hsome
    obtain ⟨text, htext⟩ := Option.isSome_iff_exists.1 hsome
    obtain ⟨us, hus, hchars⟩ := Option.bind_eq_some_iff.1 htext
    refine ⟨us, bytesOfUnits_of_unitsOfBytes? hus, isText_iff.2 ?_⟩
    obtain ⟨cs, hcs, -⟩ := Option.map_eq_some_iff.1 hchars
    rw [hcs]
    rfl

instance (bs : Bytes) : Decidable (IsEncoded bs) :=
  decidable_of_iff _ isEncoded_iff.symm

end Utf16

/-! ### Frames -/

namespace Frame

variable {s body : Bytes} {kind : FrameKind} {f : Frame} {e : FrameError}

/-- The length that a header declares. -/
def declaredLength (s : Bytes) : Nat :=
  LittleEndian.decode ((s.drop 1).take 4)

/-- The body is as its kind asks for. -/
def IsBody : FrameKind → Bytes → Prop
  | .requestTableInfo, body => 28 ≤ body.length ∧ Utf16.IsEncoded (body.drop 28)
  | .tableInfo, body => 20 ≤ body.length ∧ Utf16.IsEncoded (body.drop 20)
  | .requestReplicationStream, body => 20 ≤ body.length
  | .startOfReplicationStream, body =>
    12 ≤ body.length ∧ LittleEndian.decode ((body.drop 4).take 8) ≤ (body.drop 12).length

/-- A byte string starts with a frame of this kind. -/
structure IsFrame (kind : FrameKind) (s : Bytes) : Prop where
  header : headerLength ≤ s.length
  code : s.head? = some kind.code
  covers : headerLength ≤ declaredLength s
  whole : declaredLength s ≤ s.length
  body : IsBody kind ((s.take (declaredLength s)).drop headerLength)

/-! ### Checks -/

/-- Something that is checked: whether it is so, and the error if it is not. -/
structure Check where
  passes : Bool
  error : FrameError
deriving DecidableEq, Repr

/-- Make the checks in order; the first one that is not passed is the error. -/
def verdict : List Check → Except FrameError Unit
  | [] => .ok ()
  | c :: rest => if c.passes then verdict rest else .error c.error

/-- There are enough bytes for words of these widths, one behind the other. -/
def wordChecks : List Nat → Nat → List Check
  | [], _ => []
  | w :: rest, available =>
    ⟨w ≤ available, .truncated w available⟩ :: wordChecks rest (available - w)

/-- The fields of a body, from left to right. -/
def bodyChecks (kind : FrameKind) (body : Bytes) : List Check :=
  match kind with
  | .requestTableInfo =>
    wordChecks [4, 8, 8, 8] body.length ++ [⟨Utf16.IsEncoded (body.drop 28), .invalidTableName⟩]
  | .tableInfo =>
    wordChecks [4, 8, 8] body.length ++ [⟨Utf16.IsEncoded (body.drop 20), .invalidTableName⟩]
  | .requestReplicationStream => wordChecks [4, 8, 8] body.length
  | .startOfReplicationStream =>
    let metadataLength := LittleEndian.decode ((body.drop 4).take 8)
    let available := (body.drop 12).length
    wordChecks [4, 8] body.length ++
      [⟨metadataLength ≤ available, .metadataOverrun metadataLength available⟩]

/-- The header, the kind, the declared length, the bytes that it declares, and then the body. -/
def checks (s : Bytes) : List Check :=
  let code := s.headD 0
  let declared := declaredLength s
  [⟨headerLength ≤ s.length, .truncated headerLength s.length⟩,
   ⟨1 ≤ code.toNat ∧ code.toNat ≤ 4, .unknownFrameType code.toNat⟩,
   ⟨headerLength ≤ declared, .invalidLength declared⟩,
   ⟨declared ≤ s.length, .truncated declared s.length⟩] ++
  match FrameKind.ofCode? code with
  | some kind => bodyChecks kind ((s.take declared).drop headerLength)
  | none => []

theorem verdict_eq_ok_iff {cs : List Check} : verdict cs = .ok () ↔ ∀ c ∈ cs, c.passes := by
  induction cs with
  | nil => simp [verdict]
  | cons c rest ih =>
    rw [verdict, List.forall_mem_cons]
    split
    next hpasses => rw [ih, and_iff_right hpasses]
    next hfails => exact iff_of_false (by simp) fun h => hfails h.1

theorem wordChecks_pass_iff {ws : List Nat} {available : Nat} :
    (∀ c ∈ wordChecks ws available, c.passes) ↔ ws.foldr (· + ·) 0 ≤ available := by
  induction ws generalizing available with
  | nil => simp [wordChecks]
  | cons w rest ih =>
    rw [wordChecks, List.forall_mem_cons, ih, List.foldr_cons, decide_eq_true_iff]
    omega

theorem bodyChecks_pass_iff : (∀ c ∈ bodyChecks kind body, c.passes) ↔ IsBody kind body := by
  cases kind with
  | requestTableInfo | tableInfo | startOfReplicationStream =>
    simp only [bodyChecks, IsBody, List.forall_mem_append, wordChecks_pass_iff,
      List.forall_mem_singleton, decide_eq_true_iff]
    exact Iff.rfl
  | requestReplicationStream => exact wordChecks_pass_iff

theorem isSome_ofCode?_iff {c : UInt8} :
    (FrameKind.ofCode? c).isSome ↔ 1 ≤ c.toNat ∧ c.toNat ≤ 4 := by
  constructor
  · intro hsome
    obtain ⟨kind, hkind⟩ := Option.isSome_iff_exists.1 hsome
    rw [← FrameKind.code_of_ofCode? hkind]
    cases kind <;> decide
  · rintro ⟨hleast, hmost⟩
    obtain h | h | h | h : c.toNat = 1 ∨ c.toNat = 2 ∨ c.toNat = 3 ∨ c.toNat = 4 := by omega
    all_goals
      rw [← c.ofNat_toNat, h]
      rfl

/-- All checks are passed exactly by the byte strings that start with a frame. -/
theorem verdict_checks : verdict (checks s) = .ok () ↔ ∃ kind, IsFrame kind s := by
  simp only [verdict_eq_ok_iff, checks, List.forall_mem_append, List.forall_mem_cons,
    decide_eq_true_iff, ← isSome_ofCode?_iff]
  constructor
  · rintro ⟨⟨hheader, hcode, hcovers, hwhole, -⟩, hbody⟩
    obtain ⟨kind, hkind⟩ := Option.isSome_iff_exists.1 hcode
    rw [hkind] at hbody
    refine ⟨kind, hheader, ?_, hcovers, hwhole, bodyChecks_pass_iff.1 hbody⟩
    rw [FrameKind.code_of_ofCode? hkind]
    cases s with
    | nil => simp [headerLength] at hheader
    | cons => rfl
  · rintro ⟨kind, hframe⟩
    have hhead : s.headD 0 = kind.code := by
      rw [List.headD_eq_head?_getD, hframe.code, Option.getD_some]
    rw [hhead, FrameKind.ofCode?_code]
    exact ⟨⟨hframe.header, rfl, hframe.covers, hframe.whole, List.forall_mem_nil _⟩,
      bodyChecks_pass_iff.2 hframe.body⟩

/-! ### Reading makes these checks -/

/-- Whether something is read, regardless of what. -/
def outcome {α : Type} (x : Except FrameError α) : Except FrameError Unit :=
  x.map fun _ => ()

theorem outcome_takeWord {α : Type} {w : Nat} {next : Nat × Bytes → Except FrameError α}
    {ws : List Nat} {more : List Check}
    (hnext : outcome (next (LittleEndian.decode (body.take w), body.drop w)) =
      verdict (wordChecks ws (body.drop w).length ++ more)) :
    outcome (takeWord w body >>= next) = verdict (wordChecks (w :: ws) body.length ++ more) := by
  rw [wordChecks, List.cons_append, verdict, takeWord]
  by_cases hthere : w ≤ body.length
  · rw [if_neg (Nat.not_lt.2 hthere), bind_ok, hnext, List.length_drop,
      if_pos (decide_eq_true hthere)]
  · rw [if_pos (Nat.lt_of_not_le hthere), if_neg (by simpa using hthere)]
    rfl

theorem outcome_takeName {α : Type} {next : String → α} :
    outcome (do return next (← takeName body)) =
      verdict [⟨Utf16.IsEncoded body, .invalidTableName⟩] := by
  rw [takeName, verdict, verdict]
  cases hname : Utf16.decode? body with
  | none =>
    have hnot : ¬Utf16.IsEncoded body := by
      rw [Utf16.isEncoded_iff, hname]; exact Bool.false_ne_true
    rw [if_neg (by simpa using hnot)]
    rfl
  | some name =>
    have hencoded : Utf16.IsEncoded body := by rw [Utf16.isEncoded_iff, hname]; rfl
    rw [if_pos (decide_eq_true hencoded)]
    rfl

theorem outcome_ofBody (kind : FrameKind) (body : Bytes) :
    outcome (ofBody kind body) = verdict (bodyChecks kind body) := by
  cases kind with
  | requestTableInfo =>
    have hbehind : body.drop 28 = (((body.drop 4).drop 8).drop 8).drop 8 := by
      simp only [List.drop_drop]
    rw [bodyChecks, hbehind]
    refine outcome_takeWord (outcome_takeWord (outcome_takeWord (outcome_takeWord ?_)))
    exact outcome_takeName
  | tableInfo =>
    have hbehind : body.drop 20 = ((body.drop 4).drop 8).drop 8 := by simp only [List.drop_drop]
    rw [bodyChecks, hbehind]
    refine outcome_takeWord (outcome_takeWord (outcome_takeWord ?_))
    exact outcome_takeName
  | requestReplicationStream =>
    rw [bodyChecks, ← List.append_nil (wordChecks _ _)]
    refine outcome_takeWord (outcome_takeWord (outcome_takeWord ?_))
    rfl
  | startOfReplicationStream =>
    have hbehind : body.drop 12 = (body.drop 4).drop 8 := by simp only [List.drop_drop]
    rw [bodyChecks, hbehind]
    refine outcome_takeWord (outcome_takeWord ?_)
    simp only [wordChecks, List.nil_append, verdict]
    generalize LittleEndian.decode (((body.drop 4).take 8)) = declared
    generalize (body.drop 4).drop 8 = rest
    by_cases hthere : declared ≤ rest.length
    · rw [if_pos (decide_eq_true hthere), if_neg (Nat.not_lt.2 hthere)]
      rfl
    · rw [if_pos (Nat.lt_of_not_le hthere), if_neg fun h => hthere (of_decide_eq_true h)]
      rfl

theorem decode_of_header (hheader : headerLength ≤ s.length) :
    decode s = match FrameKind.ofCode? (s.headD 0) with
      | none => .error (.unknownFrameType (s.headD 0).toNat)
      | some kind =>
        if declaredLength s < headerLength then .error (.invalidLength (declaredLength s))
        else if s.length < declaredLength s then .error (.truncated (declaredLength s) s.length)
        else ofBody kind ((s.take (declaredLength s)).drop headerLength) := by
  rcases s with _ | ⟨code, _ | ⟨b₀, _ | ⟨b₁, _ | ⟨b₂, _ | ⟨b₃, rest⟩⟩⟩⟩⟩
  iterate 5 simp [headerLength] at hheader
  have hpeek : peekHeader (code :: b₀ :: b₁ :: b₂ :: b₃ :: rest) = match FrameKind.ofCode? code with
      | none => .error (.unknownFrameType code.toNat)
      | some kind =>
        if declaredLength (code :: b₀ :: b₁ :: b₂ :: b₃ :: rest) < headerLength then
          .error (.invalidLength (declaredLength (code :: b₀ :: b₁ :: b₂ :: b₃ :: rest)))
        else .ok (some (kind, declaredLength (code :: b₀ :: b₁ :: b₂ :: b₃ :: rest))) := rfl
  rw [decode, hpeek, List.headD_cons]
  cases FrameKind.ofCode? code with
  | none => rfl
  | some kind =>
    by_cases hcovers : declaredLength (code :: b₀ :: b₁ :: b₂ :: b₃ :: rest) < headerLength
    · simp only [if_pos hcovers]
      rfl
    · simp only [if_neg hcovers, bind_ok]
      split <;> rfl

theorem decode_of_no_header (hheader : ¬headerLength ≤ s.length) :
    decode s = .error (.truncated headerLength s.length) := by
  rcases s with _ | ⟨code, _ | ⟨b₀, _ | ⟨b₁, _ | ⟨b₂, _ | ⟨b₃, rest⟩⟩⟩⟩⟩
  iterate 5 rfl
  simp [headerLength] at hheader

/-- To read a frame is to make all checks. -/
theorem decode_verdict (s : Bytes) : outcome (decode s) = verdict (checks s) := by
  by_cases hheader : headerLength ≤ s.length
  · rw [decode_of_header hheader, checks]
    simp only [List.cons_append, List.nil_append, verdict, hheader, decide_true,
      if_true, ← isSome_ofCode?_iff]
    cases FrameKind.ofCode? (s.headD 0) with
    | none => rfl
    | some kind =>
      simp only [Option.isSome_some, decide_true, if_true]
      by_cases hcovers : headerLength ≤ declaredLength s
      · rw [if_neg (Nat.not_lt.2 hcovers), if_pos (decide_eq_true hcovers)]
        by_cases hwhole : declaredLength s ≤ s.length
        · rw [if_neg (Nat.not_lt.2 hwhole), if_pos (decide_eq_true hwhole), outcome_ofBody]
        · rw [if_pos (Nat.lt_of_not_le hwhole), if_neg fun h => hwhole (of_decide_eq_true h)]
          rfl
      · rw [if_pos (Nat.lt_of_not_le hcovers), if_neg fun h => hcovers (of_decide_eq_true h)]
        rfl
  · rw [decode_of_no_header hheader, checks, List.cons_append, verdict,
      if_neg (by simpa using hheader)]
    rfl

theorem outcome_eq_ok_iff {α : Type} {x : Except FrameError α} :
    outcome x = .ok () ↔ ∃ a, x = .ok a := by
  cases x <;> simp [outcome, Except.map]

theorem outcome_eq_error_iff {α : Type} {x : Except FrameError α} :
    outcome x = .error e ↔ x = .error e := by
  cases x <;> simp [outcome, Except.map]

/-! ### What was read is written again -/

theorem kind_of_ofBody (h : ofBody kind body = .ok f) : f.kind = kind := by
  cases kind with
  | requestTableInfo =>
    simp only [ofBody, bind_eq_ok] at h
    obtain ⟨_, -, _, -, _, -, _, -, _, -, hf⟩ := h
    cases hf
    rfl
  | tableInfo =>
    simp only [ofBody, bind_eq_ok] at h
    obtain ⟨_, -, _, -, _, -, _, -, hf⟩ := h
    cases hf
    rfl
  | requestReplicationStream =>
    simp only [ofBody, bind_eq_ok] at h
    obtain ⟨_, -, _, -, _, -, hf⟩ := h
    cases hf
    rfl
  | startOfReplicationStream =>
    simp only [ofBody, bind_eq_ok] at h
    obtain ⟨_, -, _, -, hf⟩ := h
    split at hf
    · cases hf
    · cases hf
      rfl

theorem body_of_ofBody_request (h : ofBody .requestReplicationStream body = .ok f) :
    f.body = body.take 20 := by
  simp only [ofBody, bind_eq_ok] at h
  obtain ⟨⟨table, _⟩, h₁, ⟨version, _⟩, h₂, ⟨rows, rest⟩, h₃, hf⟩ := h
  obtain ⟨rfl, htable⟩ := takeWord_ok h₁
  obtain ⟨rfl, hversion⟩ := takeWord_ok h₂
  obtain ⟨rfl, hrows⟩ := takeWord_ok h₃
  cases hf
  simp only [Frame.body, LittleEndian.toNat_toUInt32 htable, LittleEndian.toNat_toUInt64 hversion,
    LittleEndian.toNat_toUInt64 hrows, ← List.append_assoc]
  exact (List.take_left' (by simp)).symm

theorem IsFrame.peekHeader (hframe : IsFrame kind s) :
    peekHeader s = .ok (some (kind, declaredLength s)) := by
  obtain ⟨hheader, hcode, hcovers, -, -⟩ := hframe
  rcases s with _ | ⟨code, _ | ⟨b₀, _ | ⟨b₁, _ | ⟨b₂, _ | ⟨b₃, rest⟩⟩⟩⟩⟩
  iterate 5 simp [headerLength] at hheader
  obtain rfl : code = kind.code := Option.some.inj hcode
  simp only [Frame.peekHeader, FrameKind.ofCode?_code]
  exact if_neg (Nat.not_lt.2 hcovers)

theorem IsFrame.decode (hframe : IsFrame kind s) :
    decode s = ofBody kind ((s.take (declaredLength s)).drop headerLength) := by
  simp only [Frame.decode, hframe.peekHeader, bind_ok, Nat.not_lt.2 hframe.whole, if_false]

theorem IsFrame.decode_append (hframe : IsFrame kind s) (behind : Bytes) :
    Frame.decode (s.take (declaredLength s) ++ behind) = Frame.decode s := by
  have hlength : (s.take (declaredLength s)).length = declaredLength s :=
    List.length_take_of_le hframe.whole
  have hfront : (s.take (declaredLength s) ++ behind).take headerLength = s.take headerLength := by
    rw [List.take_append_of_le_length (by rw [hlength]; exact hframe.covers), List.take_take,
      Nat.min_eq_left hframe.covers]
  have hheader : Frame.peekHeader (s.take (declaredLength s) ++ behind) =
      .ok (some (kind, declaredLength s)) := by
    rw [← peekHeader_take _ (Nat.le_refl headerLength), hfront,
      peekHeader_take _ (Nat.le_refl headerLength), hframe.peekHeader]
  have hlong : ¬(s.take (declaredLength s) ++ behind).length < declaredLength s := by
    rw [List.length_append, hlength]
    omega
  rw [hframe.decode]
  simp only [Frame.decode, hheader, bind_ok, hlong, if_false, List.take_left' hlength]

/-- A frame that was read is written as the declared bytes; a request for the data stream, which may
declare more bytes than it has fields, as if it had declared no more. -/
theorem IsFrame.bytes (hframe : IsFrame kind s) (hdecode : Frame.decode s = .ok f) :
    f.encodedLength ≤ greatestWord32 ∧
      f.bytes = if kind = .requestReplicationStream then
        s.take 1 ++ (LittleEndian.encode 4 25 ++ (s.take 25).drop headerLength)
      else s.take (declaredLength s) := by
  have hbody := hdecode
  rw [hframe.decode] at hbody
  have hkind := kind_of_ofBody hbody
  split
  next hrequest =>
    subst hrequest
    have hfields := body_of_ofBody_request hbody
    have hlong : 20 ≤ ((s.take (declaredLength s)).drop headerLength).length := hframe.body
    rw [List.length_drop, List.length_take_of_le hframe.whole] at hlong
    have hlength : f.encodedLength = 25 := by
      rw [← length_body, hfields, List.length_take, List.length_drop,
        List.length_take_of_le hframe.whole]
      simp only [headerLength] at hlong ⊢
      omega
    have hcode : s.take 1 = [f.kind.code] := by
      rw [List.take_one, hframe.code, hkind]
      rfl
    have hthere : (s.take 25).drop headerLength = f.body := by
      rw [hfields, List.take_drop, List.take_take, Nat.min_eq_left]
      simp only [headerLength] at hlong ⊢
      omega
    rw [hlength, hcode, hthere, Frame.bytes, hlength]
    exact ⟨by decide, rfl⟩
  next hother =>
    exact (bytes_of_decode hframe.peekHeader hdecode (hkind ▸ hother)).symm

/-- A byte string is read exactly if it starts with a frame; what is read is a frame of this kind.
It depends on the declared bytes only, and these are what it is written as again: so no two of them
mean the same.  A request for the data stream alone may declare more bytes than its fields take, and
is written as if it had declared no more.  For every other byte string there is an error, that of
the first check that is not passed. -/
theorem decode_accepts_frames (s : Bytes) :
    ((∃ f, decode s = .ok f) ↔ ∃ kind, IsFrame kind s) ∧
    (∀ f, decode s = .ok f →
      IsFrame f.kind s ∧
      (∀ behind, decode (s.take (declaredLength s) ++ behind) = .ok f) ∧
      f.encode [] = .ok (if f.kind = .requestReplicationStream then
        s.take 1 ++ (LittleEndian.encode 4 25 ++ (s.take 25).drop headerLength)
      else s.take (declaredLength s))) ∧
    ∀ e, decode s = .error e ↔ verdict (checks s) = .error e := by
  have haccepts : (∃ f, decode s = .ok f) ↔ ∃ kind, IsFrame kind s := by
    rw [← outcome_eq_ok_iff, decode_verdict, verdict_checks]
  refine ⟨haccepts, fun f hdecode => ?_, fun e => ?_⟩
  · obtain ⟨kind, hframe⟩ := haccepts.1 ⟨f, hdecode⟩
    obtain rfl : f.kind = kind := kind_of_ofBody (hframe.decode.symm.trans hdecode)
    obtain ⟨hfits, hbytes⟩ := hframe.bytes hdecode
    refine ⟨hframe, fun behind => (hframe.decode_append behind).trans hdecode, ?_⟩
    rw [encode, if_pos hfits, List.nil_append, hbytes]
  · rw [← outcome_eq_error_iff, decode_verdict]

/-- A description of the table `t` with a byte behind it, and one whose name is half a
surrogate pair. -/
theorem frames_rehearsed :
    (∃ kind, IsFrame kind ((Frame.tableInfo ⟨7, 0, 3, "t"⟩).bytes ++ [9])) ∧
    (∀ f, decode ((Frame.tableInfo ⟨7, 0, 3, "t"⟩).bytes ++ [9]) = .ok f →
      f.encode [] = .ok (Frame.tableInfo ⟨7, 0, 3, "t"⟩).bytes) ∧
    decode ([2, 27, 0, 0, 0] ++ List.replicate 20 0 ++ [0, 0xd8]) = .error .invalidTableName := by
  obtain ⟨haccepts, hreads, -⟩ :=
    decode_accepts_frames ((Frame.tableInfo ⟨7, 0, 3, "t"⟩).bytes ++ [9])
  obtain ⟨-, -, hrejects⟩ :=
    decode_accepts_frames ([2, 27, 0, 0, 0] ++ List.replicate 20 0 ++ [0, 0xd8])
  have hread : decode ((Frame.tableInfo ⟨7, 0, 3, "t"⟩).bytes ++ [9]) =
      .ok (.tableInfo ⟨7, 0, 3, "t"⟩) :=
    decode_append (by decide +kernel) [9]
  refine ⟨haccepts.1 ⟨_, hread⟩, fun f hf => ?_, (hrejects _).2 rfl⟩
  rw [(hreads f hf).2.2]
  obtain rfl : .tableInfo ⟨7, 0, 3, "t"⟩ = f := Except.ok.inj (hread.symm.trans hf)
  exact congrArg Except.ok (by decide +kernel)

end Frame

end ReplicaHandshake
