/-!
# Little-endian words

Numbers travel as words of a fixed number of bytes, least significant byte first.
`LittleEndian.encode w n` writes the low `w` bytes of `n`, and `LittleEndian.decode` reads the
number back.  Reading undoes writing for every number that fits (`decode_encode`), and writing
undoes reading for every byte string (`encode_decode`), so a word of `w` bytes and a number below
`LittleEndian.size w` are the same thing.
-/

namespace ReplicaHandshake

/-- A string of bytes, as it travels over a connection. -/
abbrev Bytes := List UInt8

namespace LittleEndian

/-- The low `w` bytes of a number, least significant first. -/
def encode : Nat → Nat → Bytes
  | 0, _ => []
  | w + 1, n => UInt8.ofNat n :: encode w (n / 256)

/-- The number whose bytes are given, least significant first. -/
def decode : Bytes → Nat
  | [] => 0
  | b :: rest => b.toNat + 256 * decode rest

/-- How many words of `w` bytes there are. -/
def size : Nat → Nat
  | 0 => 1
  | w + 1 => 256 * size w

@[simp] theorem length_encode (w n : Nat) : (encode w n).length = w := by
  induction w generalizing n with
  | zero => rfl
  | succ w ih => simp [encode, ih]

theorem decode_lt (bs : Bytes) : decode bs < size bs.length := by
  induction bs with
  | nil => exact Nat.one_pos
  | cons b rest ih =>
    have hb : b.toNat < 256 := b.toNat_lt
    simp only [decode, List.length_cons, size]
    omega

theorem decode_encode {w n : Nat} (h : n < size w) : decode (encode w n) = n := by
  induction w generalizing n with
  | zero =>
    simp only [size] at h
    simp only [encode, decode]
    omega
  | succ w ih =>
    have hq : n / 256 < size w := Nat.div_lt_of_lt_mul h
    simp only [encode, decode, ih hq, UInt8.toNat_ofNat']
    omega

theorem encode_decode (bs : Bytes) : encode bs.length (decode bs) = bs := by
  induction bs with
  | nil => rfl
  | cons b rest ih =>
    have hb : b.toNat < 256 := b.toNat_lt
    have hq : (b.toNat + 256 * decode rest) / 256 = decode rest := by omega
    have hr : UInt8.ofNat (b.toNat + 256 * decode rest) = b := by
      apply UInt8.toNat.inj
      simp only [UInt8.toNat_ofNat']
      omega
    simp only [List.length_cons, encode, decode, hq, hr, ih]

end LittleEndian

end ReplicaHandshake
