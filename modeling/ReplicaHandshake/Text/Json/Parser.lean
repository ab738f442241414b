import ReplicaHandshake.Text.Json.Basic
import ReplicaHandshake.Text.Utf16

/-!
# Reading values of the data format

`Json.ofText?` reads a text that holds one value, with blanks around it and nothing else.  Each part
of the grammar is a function that takes what it reads off the front of the text and gives back the
rest, which is shorter; that is why nested values come to an end without a bound on their depth.
-/

namespace ReplicaHandshake.Json

/-- Whether a character may stand between the parts of a value. -/
def isSpace (c : Char) : Bool :=
  c = ' ' || c = '\n' || c = '\t' || c = '\r'

/-- Drop the blanks at the front. -/
def skip (s : List Char) : List Char :=
  s.dropWhile isSpace

theorem length_skip_le (s : List Char) : (skip s).length ≤ s.length := by
  induction s with
  | nil => simp [skip]
  | cons c s ih =>
    simp only [skip, List.dropWhile_cons] at ih ⊢
    split
    · simp only [List.length_cons]; omega
    · simp

/-- The rest of a text after something has been read off its front. -/
abbrev Rest (s : List Char) := { r : List Char // r.length < s.length }

/-! ### Numbers -/

/-- Whether a character is a decimal digit. -/
def isDigit (c : Char) : Bool :=
  '0' ≤ c && c ≤ '9'

/-- A run of at least one digit. -/
def takeDigits? (s : List Char) : Option (List Char × List Char) :=
  let digits := s.takeWhile isDigit
  if digits = [] then none else some (digits, s.dropWhile isDigit)

/-- A fraction, which may be missing; the answer says whether it is there. -/
def takeFraction? : List Char → Option (Bool × List Char)
  | '.' :: s => (takeDigits? s).map fun (_, rest) => (true, rest)
  | s => some (false, s)

/-- An exponent, which may be missing; the answer says whether it is there. -/
def takeExponent? : List Char → Option (Bool × List Char)
  | c :: s =>
    if c = 'e' || c = 'E' then
      let s := match s with
        | '+' :: t => t
        | '-' :: t => t
        | _ => s
      (takeDigits? s).map fun (_, rest) => (true, rest)
    else some (false, c :: s)
  | [] => some (false, [])

/-- A number without its sign. -/
def takeUnsigned? (negative : Bool) (s : List Char) : Option (Numeral × List Char) := do
  let (digits, s) ← takeDigits? s
  if digits.head? = some '0' ∧ 1 < digits.length then none
  let (fraction, s) ← takeFraction? s
  let (exponent, s) ← takeExponent? s
  let whole := digits.foldl (fun n c => 10 * n + (c.toNat - '0'.toNat)) 0
  return (⟨negative, whole, !fraction && !exponent⟩, s)

/-- A number. -/
def takeNumber? : List Char → Option (Numeral × List Char)
  | '-' :: s => takeUnsigned? true s
  | s => takeUnsigned? false s

/-! ### Strings -/

/-- A part of a string: a character, or a unit that an escape gives by its number. -/
inductive Piece where
  | char (c : Char)
  | unit (u : UInt16)

/-- The value of a hexadecimal digit. -/
def hexValue? (c : Char) : Option Nat :=
  if '0' ≤ c && c ≤ '9' then some (c.toNat - '0'.toNat)
  else if 'a' ≤ c && c ≤ 'f' then some (c.toNat - 'a'.toNat + 10)
  else if 'A' ≤ c && c ≤ 'F' then some (c.toNat - 'A'.toNat + 10)
  else none

/-- The unit of four hexadecimal digits. -/
def hexUnit? (a b c d : Char) : Option UInt16 := do
  let n := 4096 * (← hexValue? a) + 256 * (← hexValue? b) + 16 * (← hexValue? c) + (← hexValue? d)
  return n.toUInt16

/-- The character of a short escape. -/
def escaped? : Char → Option Char
  | '"' => some '"'
  | '\\' => some '\\'
  | '/' => some '/'
  | 'b' => some '\x08'
  | 'f' => some '\x0c'
  | 'n' => some '\n'
  | 'r' => some '\r'
  | 't' => some '\t'
  | _ => none

/-- The parts of a string, up to the quote that ends it. -/
def takePieces? : List Char → Option (List Piece × List Char)
  | [] => none
  | '"' :: s => some ([], s)
  | '\\' :: 'u' :: a :: b :: c :: d :: s => do
    let u ← hexUnit? a b c d
    let (pieces, rest) ← takePieces? s
    return (.unit u :: pieces, rest)
  | '\\' :: c :: s => do
    let e ← escaped? c
    let (pieces, rest) ← takePieces? s
    return (.char e :: pieces, rest)
  | c :: s =>
    if c = '\\' || c.toNat < 0x20 then none
    else do
      let (pieces, rest) ← takePieces? s
      return (.char c :: pieces, rest)

/-- The text of the parts of a string, unless half of a surrogate pair stands alone. -/
def join? : List Piece → Option (List Char)
  | [] => some []
  | .char c :: ps => (join? ps).map (c :: ·)
  | .unit u :: ps =>
    if Utf16.isHigh u then
      match ps with
      | .unit v :: ps => if Utf16.isLow v then (join? ps).map (Utf16.ofPair u v :: ·) else none
      | _ => none
    else if Utf16.isLow u then none
    else (join? ps).map (Char.ofNat u.toNat :: ·)

/-! ### What has been read is gone -/

theorem takeDigits?_shorter {s d r : List Char} (h : takeDigits? s = some (d, r)) :
    r.length < s.length := by
  unfold takeDigits? at h
  simp only [Option.ite_none_left_eq_some, Option.some.injEq, Prod.mk.injEq] at h
  obtain ⟨hd, rfl, rfl⟩ := h
  have e := congrArg List.length (List.takeWhile_append_dropWhile (p := isDigit) (l := s))
  have : 0 < (s.takeWhile isDigit).length := List.length_pos_iff.2 hd
  simp only [List.length_append] at e
  omega

theorem takeFraction?_le {s r : List Char} {b : Bool} (h : takeFraction? s = some (b, r)) :
    r.length ≤ s.length := by
  unfold takeFraction? at h
  split at h
  · obtain ⟨⟨d, t⟩, ht, e⟩ := Option.map_eq_some_iff.1 h
    cases e
    have := takeDigits?_shorter ht
    simp only [List.length_cons]
    omega
  · cases h
    omega

theorem takeExponent?_le {s r : List Char} {b : Bool} (h : takeExponent? s = some (b, r)) :
    r.length ≤ s.length := by
  unfold takeExponent? at h
  split at h
  · split at h
    · obtain ⟨⟨d, t⟩, ht, e⟩ := Option.map_eq_some_iff.1 h
      cases e
      have := takeDigits?_shorter ht
      simp only [List.length_cons]
      split at this <;> simp only [List.length_cons] at * <;> omega
    · cases h
      omega
  · cases h
    omega

theorem takeUnsigned?_shorter {neg : Bool} {s r : List Char} {n : Numeral}
    (h : takeUnsigned? neg s = some (n, r)) : r.length < s.length := by
  unfold takeUnsigned? at h
  simp only [Option.bind_eq_bind, Option.bind_eq_some_iff] at h
  obtain ⟨⟨d, s₁⟩, h₁, h⟩ := h
  split at h
  · simp at h
  · simp only [Option.bind_eq_some_iff, Option.pure_def, Option.some.injEq, Prod.mk.injEq] at h
    obtain ⟨⟨f, s₂⟩, h₂, ⟨e, s₃⟩, h₃, _, rfl⟩ := h
    have := takeDigits?_shorter h₁
    have := takeFraction?_le h₂
    have := takeExponent?_le h₃
    simp only at *
    omega

theorem takeNumber?_shorter {s r : List Char} {n : Numeral}
    (h : takeNumber? s = some (n, r)) : r.length < s.length := by
  unfold takeNumber? at h
  split at h
  · have := takeUnsigned?_shorter h
    simp only [List.length_cons]
    omega
  · exact takeUnsigned?_shorter h

theorem takePieces?_shorter {s r : List Char} {ps : List Piece}
    (h : takePieces? s = some (ps, r)) : r.length < s.length := by
  fun_induction takePieces? s generalizing ps with
  | case1 => simp at h
  | case2 => cases h; simp
  | case3 a b c d s ih =>
    simp only [Option.bind_eq_bind, Option.bind_eq_some_iff, Option.pure_def, Option.some.injEq,
      Prod.mk.injEq] at h
    obtain ⟨u, _, ⟨ps', r'⟩, hs, _, rfl⟩ := h
    have := ih hs
    simp only [List.length_cons] at *
    omega
  | case4 c s _ ih =>
    simp only [Option.bind_eq_bind, Option.bind_eq_some_iff, Option.pure_def, Option.some.injEq,
      Prod.mk.injEq] at h
    obtain ⟨u, _, ⟨ps', r'⟩, hs, _, rfl⟩ := h
    have := ih hs
    simp only [List.length_cons] at *
    omega
  | case5 => simp at h
  | case6 c s _ _ _ _ ih =>
    simp only [Option.bind_eq_bind, Option.bind_eq_some_iff, Option.pure_def, Option.some.injEq,
      Prod.mk.injEq] at h
    obtain ⟨⟨ps', r'⟩, hs, _, rfl⟩ := h
    have := ih hs
    simp only [List.length_cons] at *
    omega

/-! ### Values -/

/-- The string that starts behind a quote. -/
def takeString? (s : List Char) : Option (Option String × Rest s) :=
  match h : takePieces? s with
  | some (pieces, rest) =>
    some ((join? pieces).map String.ofList, ⟨rest, takePieces?_shorter h⟩)
  | none => none

/-- The number that starts here. -/
def takeNumeral? (s : List Char) : Option (Numeral × Rest s) :=
  match h : takeNumber? s with
  | some (n, rest) => some (n, ⟨rest, takeNumber?_shorter h⟩)
  | none => none

mutual

/-- A value, with blanks before it. -/
def takeValue? (s : List Char) : Option (Json × Rest s) :=
  have hs := length_skip_le s
  match h : skip s with
  | 'n' :: 'u' :: 'l' :: 'l' :: r => some (null, ⟨r, by simp [h] at hs; omega⟩)
  | 't' :: 'r' :: 'u' :: 'e' :: r => some (bool true, ⟨r, by simp [h] at hs; omega⟩)
  | 'f' :: 'a' :: 'l' :: 's' :: 'e' :: r => some (bool false, ⟨r, by simp [h] at hs; omega⟩)
  | '"' :: r =>
    (takeString? r).map fun (value, rest) =>
      (string value, ⟨rest.1, by have := rest.2; simp [h] at hs; omega⟩)
  | '[' :: r =>
    have hr := length_skip_le r
    match h' : skip r with
    | ']' :: rest => some (array [], ⟨rest, by simp [h] at hs; simp [h'] at hr; omega⟩)
    | _ =>
      have : r.length < s.length := by simp [h] at hs; omega
      (takeItems? r).map fun (items, rest) =>
        (array items, ⟨rest.1, by have := rest.2; omega⟩)
  | '{' :: r =>
    have hr := length_skip_le r
    match h' : skip r with
    | '}' :: rest => some (object [], ⟨rest, by simp [h] at hs; simp [h'] at hr; omega⟩)
    | _ =>
      have : r.length < s.length := by simp [h] at hs; omega
      (takeMembers? r).map fun (members, rest) =>
        (object members, ⟨rest.1, by have := rest.2; omega⟩)
  | c :: r =>
    (takeNumeral? (c :: r)).map fun (n, rest) =>
      (number n, ⟨rest.1, by have := rest.2; rw [h] at hs; omega⟩)
  | [] => none
termination_by (s.length, 0)

/-- The items of an array, at least one, up to the bracket that ends it. -/
def takeItems? (s : List Char) : Option (List Json × Rest s) :=
  match takeValue? s with
  | none => none
  | some (item, ⟨s₁, h₁⟩) =>
    have hs := length_skip_le s₁
    match h : skip s₁ with
    | ']' :: rest => some ([item], ⟨rest, by simp [h] at hs; omega⟩)
    | ',' :: s₂ =>
      have : s₂.length < s.length := by simp [h] at hs; omega
      (takeItems? s₂).map fun (items, rest) =>
        (item :: items, ⟨rest.1, by have := rest.2; omega⟩)
    | _ => none
termination_by (s.length, 1)

/-- The members of an object, at least one, up to the brace that ends it. -/
def takeMembers? (s : List Char) : Option (List (Option String × Json) × Rest s) :=
  have hs := length_skip_le s
  match h : skip s with
  | '"' :: s₁ =>
    match takeString? s₁ with
    | none => none
    | some (name, ⟨s₂, h₂⟩) =>
      have hs₂ := length_skip_le s₂
      match h' : skip s₂ with
      | ':' :: s₃ =>
        have h₃ : s₃.length < s.length := by simp [h] at hs; simp [h'] at hs₂; omega
        match takeValue? s₃ with
        | none => none
        | some (value, ⟨s₄, h₄⟩) =>
          have hs₄ := length_skip_le s₄
          match h'' : skip s₄ with
          | '}' :: rest => some ([(name, value)], ⟨rest, by simp [h''] at hs₄; omega⟩)
          | ',' :: s₅ =>
            have : s₅.length < s.length := by simp [h''] at hs₄; omega
            (takeMembers? s₅).map fun (members, rest) =>
              ((name, value) :: members, ⟨rest.1, by have := rest.2; omega⟩)
          | _ => none
      | _ => none
  | _ => none
termination_by (s.length, 1)

end

/-- The value that a text holds. -/
def ofText? (text : String) : Option Json :=
  match takeValue? text.toList with
  | some (value, rest) => if skip rest.1 = [] then some value else none
  | none => none

end ReplicaHandshake.Json
