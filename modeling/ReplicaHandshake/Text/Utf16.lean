import ReplicaHandshake.Bytes.LittleEndian

/-!
# Text in sixteen-bit code units

Table names travel as sixteen-bit units, each written as a little-endian word of two bytes.
A character below `0x10000` is one unit; any other is a *surrogate pair*, a high unit
(`0xd800 … 0xdbff`) followed by a low one (`0xdc00 … 0xdfff`).  A unit of either half that stands
alone is no text.

* `Utf16.units` and `Utf16.ofUnits?` go between characters and units.
* `Utf16.encode` and `Utf16.decode?` go between texts and bytes; `Utf16.byteLength` is the number
  of bytes that a text takes.
-/

namespace ReplicaHandshake.Utf16

/-- The units of one character. -/
def unitsOf (c : Char) : List UInt16 :=
  if c.toNat < 0x10000 then [c.toNat.toUInt16]
  else
    [(0xd800 + (c.toNat - 0x10000) / 0x400).toUInt16,
     (0xdc00 + (c.toNat - 0x10000) % 0x400).toUInt16]

/-- The units of a text, in order. -/
def units (text : List Char) : List UInt16 :=
  text.flatMap unitsOf

/-- Whether a unit opens a surrogate pair. -/
def isHigh (u : UInt16) : Bool :=
  0xd800 ≤ u.toNat && u.toNat < 0xdc00

/-- Whether a unit closes a surrogate pair. -/
def isLow (u : UInt16) : Bool :=
  0xdc00 ≤ u.toNat && u.toNat < 0xe000

/-- The character of a surrogate pair. -/
def ofPair (high low : UInt16) : Char :=
  Char.ofNat (0x10000 + (high.toNat - 0xd800) * 0x400 + (low.toNat - 0xdc00))

/-- The text whose units are given, unless a surrogate stands alone. -/
def ofUnits? : List UInt16 → Option (List Char)
  | [] => some []
  | [u] => if isHigh u || isLow u then none else some [Char.ofNat u.toNat]
  | u :: v :: rest =>
    if isHigh u then
      if isLow v then (ofUnits? rest).map (ofPair u v :: ·) else none
    else if isLow u then none
    else (ofUnits? (v :: rest)).map (Char.ofNat u.toNat :: ·)

/-- The bytes of a sequence of units. -/
def bytesOfUnits (us : List UInt16) : Bytes :=
  us.flatMap fun u => LittleEndian.encode 2 u.toNat

/-- The units of a byte string, unless its length is odd. -/
def unitsOfBytes? : Bytes → Option (List UInt16)
  | [] => some []
  | [_] => none
  | b :: c :: rest => (unitsOfBytes? rest).map ((LittleEndian.decode [b, c]).toUInt16 :: ·)

/-- The bytes of a text. -/
def encode (text : String) : Bytes :=
  bytesOfUnits (units text.toList)

/-- The text whose bytes are given, unless there is none. -/
def decode? (bs : Bytes) : Option String :=
  (unitsOfBytes? bs).bind fun us => (ofUnits? us).map String.ofList

/-- The number of bytes that a text takes. -/
def byteLength (text : String) : Nat :=
  2 * (units text.toList).length

@[simp] theorem length_bytesOfUnits (us : List UInt16) :
    (bytesOfUnits us).length = 2 * us.length := by
  induction us with
  | nil => rfl
  | cons u us ih => simp only [bytesOfUnits, List.flatMap_cons, List.length_append,
      LittleEndian.length_encode, List.length_cons] at ih ⊢; omega

@[simp] theorem length_encode (text : String) : (encode text).length = byteLength text :=
  length_bytesOfUnits _

end ReplicaHandshake.Utf16
