/-!
# Addresses as literals

An address is written as four decimal numbers (`10.0.0.1`) or as eight groups of hexadecimal digits
(`2001:db8::1`), where one `::` may stand for one or more groups of zero and the last two groups may
be written as four decimal numbers.  Names are no literals.

`IpAddress.ofText?` reads a literal and `IpAddress.text` writes the one canonical form: small
letters, no leading zeros, the longest run of at least two zero groups (the first of several)
shortened to `::`, and the four decimal numbers kept where an address of the first form is embedded
behind `::ffff:`.
-/

namespace ReplicaHandshake

/-- An address of four bytes. -/
structure Ipv4 where
  a : UInt8
  b : UInt8
  c : UInt8
  d : UInt8
deriving DecidableEq, Repr

/-- An address of eight groups of two bytes; the list has eight members. -/
structure Ipv6 where
  groups : List UInt16
  length_groups : groups.length = 8
deriving DecidableEq, Repr

/-- An address of either form. -/
inductive IpAddress where
  | v4 (address : Ipv4)
  | v6 (address : Ipv6)
deriving DecidableEq, Repr

namespace IpLiteral

/-- The value of a hexadecimal digit. -/
def digitValue? (c : Char) : Option Nat :=
  if '0' ≤ c && c ≤ '9' then some (c.toNat - '0'.toNat)
  else if 'a' ≤ c && c ≤ 'f' then some (c.toNat - 'a'.toNat + 10)
  else if 'A' ≤ c && c ≤ 'F' then some (c.toNat - 'A'.toNat + 10)
  else none

/-- The value of a digit in a base up to sixteen. -/
def digitIn? (base : Nat) (c : Char) : Option Nat :=
  (digitValue? c).filter (· < base)

/-- The number that digits stand for in a base. -/
def number (base : Nat) (digits : List Char) : Nat :=
  digits.foldl (fun n c => base * n + (digitValue? c).getD 0) 0

/-- Read a whole run of digits, at least one and at most `most`. -/
def takeNumber? (base most : Nat) (s : List Char) : Option (List Char × List Char) :=
  let digits := s.takeWhile fun c => (digitIn? base c).isSome
  if digits = [] ∨ most < digits.length then none
  else some (digits, s.dropWhile fun c => (digitIn? base c).isSome)

/-- Read a number below 256 of at most three digits, without a leading zero. -/
def takeOctet? (s : List Char) : Option (UInt8 × List Char) := do
  let (digits, rest) ← takeNumber? 10 3 s
  if digits.head? = some '0' ∧ 1 < digits.length then none
  let n := number 10 digits
  if n < 256 then some (n.toUInt8, rest) else none

/-- Read one given character. -/
def takeChar? (c : Char) : List Char → Option (List Char)
  | d :: rest => if c = d then some rest else none
  | [] => none

/-- Read four numbers with dots between them. -/
def takeIpv4? (s : List Char) : Option (Ipv4 × List Char) := do
  let (a, s) ← takeOctet? s
  let (b, s) ← takeOctet? (← takeChar? '.' s)
  let (c, s) ← takeOctet? (← takeChar? '.' s)
  let (d, s) ← takeOctet? (← takeChar? '.' s)
  return (⟨a, b, c, d⟩, s)

/-- Read a group of at most four hexadecimal digits. -/
def takeGroup? (s : List Char) : Option (UInt16 × List Char) := do
  let (digits, rest) ← takeNumber? 16 4 s
  return ((number 16 digits).toUInt16, rest)

/-- The two groups that an embedded address of four bytes fills. -/
def embedded (address : Ipv4) : List UInt16 :=
  [(address.a.toNat * 256 + address.b.toNat).toUInt16,
   (address.c.toNat * 256 + address.d.toNat).toUInt16]

/-- What was read of a sequence of groups. -/
structure Groups where
  groups : List UInt16
  /-- Whether the last two groups were written as four decimal numbers. -/
  endsInIpv4 : Bool
  rest : List Char

/-- Read up to `room` groups with colons between them, and a colon before the first one if
`separated`.  Reading ends before what is no group, and after an embedded address of four bytes,
which needs room for two groups. -/
def takeGroups : (room : Nat) → (separated : Bool) → List Char → Groups
  | 0, _, s => ⟨[], false, s⟩
  | room + 1, separated, s =>
    match if separated then takeChar? ':' s else some s with
    | none => ⟨[], false, s⟩
    | some next =>
      match if 0 < room then takeIpv4? next else none with
      | some (address, rest) => ⟨embedded address, true, rest⟩
      | none =>
        match takeGroup? next with
        | none => ⟨[], false, s⟩
        | some (group, rest) =>
          let more := takeGroups room true rest
          { more with groups := group :: more.groups }

/-- The address of eight groups. -/
def ofGroups? (groups : List UInt16) : Option Ipv6 :=
  if h : groups.length = 8 then some ⟨groups, h⟩ else none

/-- Read eight groups, or fewer around one `::`. -/
def takeIpv6? (s : List Char) : Option (Ipv6 × List Char) :=
  let front := takeGroups 8 false s
  if front.groups.length = 8 then (ofGroups? front.groups).map (·, front.rest)
  else if front.endsInIpv4 then none
  else do
    let s ← takeChar? ':' (← takeChar? ':' front.rest)
    let back := takeGroups (7 - front.groups.length) false s
    let zeros := List.replicate (8 - front.groups.length - back.groups.length) 0
    return (← ofGroups? (front.groups ++ zeros ++ back.groups), back.rest)

/-- Read an address of either form. -/
def takeIpAddress? (s : List Char) : Option (IpAddress × List Char) :=
  match takeIpv4? s with
  | some (address, rest) => some (.v4 address, rest)
  | none => (takeIpv6? s).map fun (address, rest) => (.v6 address, rest)

/-- The hexadecimal digits of a group. -/
def groupText (group : UInt16) : String :=
  String.ofList (Nat.toDigits 16 group.toNat)

/-- Groups with colons between them. -/
def groupsText (groups : List UInt16) : String :=
  ":".intercalate (groups.map groupText)

/-- The number of zeros at the front. -/
def zerosAtFront (groups : List UInt16) : Nat :=
  (groups.takeWhile (· = 0)).length

/-- The start and the length of the longest run of zeros, the first of several. -/
def longestZeros : List UInt16 → Nat × Nat
  | [] => (0, 0)
  | group :: rest =>
    let here := zerosAtFront (group :: rest)
    let (start, length) := longestZeros rest
    if length ≤ here then (0, here) else (start + 1, length)

end IpLiteral

open IpLiteral

/-- The canonical form of an address of four bytes. -/
def Ipv4.text (address : Ipv4) : String :=
  s!"{address.a}.{address.b}.{address.c}.{address.d}"

/-- The address of four bytes that is embedded behind `::ffff:`. -/
def Ipv6.embedded? (address : Ipv6) : Option Ipv4 :=
  match address.groups with
  | [0, 0, 0, 0, 0, 0xffff, g, h] =>
    some ⟨(g.toNat / 256).toUInt8, (g.toNat % 256).toUInt8,
      (h.toNat / 256).toUInt8, (h.toNat % 256).toUInt8⟩
  | _ => none

/-- The canonical form of an address of eight groups. -/
def Ipv6.text (address : Ipv6) : String :=
  match address.embedded? with
  | some inner => s!"::ffff:{inner.text}"
  | none =>
    let (start, length) := longestZeros address.groups
    if length ≤ 1 then groupsText address.groups
    else
      groupsText (address.groups.take start) ++ "::" ++
        groupsText (address.groups.drop (start + length))

/-- The address that a literal stands for. -/
def IpAddress.ofText? (text : String) : Option IpAddress :=
  match takeIpAddress? text.toList with
  | some (address, []) => some address
  | _ => none

end ReplicaHandshake
