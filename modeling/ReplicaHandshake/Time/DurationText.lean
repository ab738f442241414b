import ReplicaHandshake.Bytes.LittleEndian
import ReplicaHandshake.Text.Blank
import ReplicaHandshake.Time.Duration

/-!
# Durations as text

A duration is written as a sequence of amounts, each a number followed by a unit: `1h 30m`, `2.5s`,
`100ms`.  The text `0` alone is the empty duration.

* Blanks may stand before an amount, between the digits of its number, and before its unit.
* A number is a run of decimal digits, and may have a fraction of at least one digit.
* A unit is a run of letters; the known ones are in `TimeUnit.ofName?`.

Amounts are read and added one after the other.  All sums and products have to fit a word of eight
bytes, and a fraction has to come out even: in whole seconds for hours and more, in whole
nanoseconds below that.  A text that breaks one of these rules is unreadable.  A sum whose
nanoseconds make up exactly one second is different: that second is carried last, and where it is
one too many, the fault is an `overflow`, whatever may stand behind the amount.
-/

namespace ReplicaHandshake

/-- The units that durations are written in. -/
inductive TimeUnit where
  | nanosecond
  | microsecond
  | millisecond
  | second
  | minute
  | hour
  | day
  | week
  | month
  | year
deriving DecidableEq, Repr

namespace TimeUnit

/-- The unit of a name. -/
def ofName? (name : String) : Option TimeUnit :=
  if name ∈ ["nanos", "nsec", "ns"] then some nanosecond
  else if name ∈ ["usec", "us", "µs"] then some microsecond
  else if name ∈ ["millis", "msec", "ms"] then some millisecond
  else if name ∈ ["seconds", "second", "secs", "sec", "s"] then some second
  else if name ∈ ["minutes", "minute", "min", "mins", "m"] then some minute
  else if name ∈ ["hours", "hour", "hr", "hrs", "h"] then some hour
  else if name ∈ ["days", "day", "d"] then some day
  else if name ∈ ["weeks", "week", "wk", "wks", "w"] then some week
  else if name ∈ ["months", "month", "M"] then some month
  else if name ∈ ["years", "year", "yr", "yrs", "y"] then some year
  else none

/-- The nanoseconds of a unit below the second, which are what its whole amounts are counted in. -/
def subsecondScale? : TimeUnit → Option Nat
  | nanosecond => some 1
  | microsecond => some 1000
  | millisecond => some 1000000
  | _ => none

/-- The seconds of a unit from the second on. A month is a twelfth of a year of 365.25 days, cut to
a hundredth of a day. -/
def secondScale : TimeUnit → Nat
  | nanosecond | microsecond | millisecond => 0
  | second => 1
  | minute => 60
  | hour => 3600
  | day => 86400
  | week => 604800
  | month => 2630016
  | year => 31557600

end TimeUnit

/-- A number and its unit; the fraction is given by its digits as a number and by the power of ten
that divides it. -/
structure TimeAmount where
  whole : Nat
  fraction : Option (Nat × Nat)
  unit : TimeUnit
deriving DecidableEq, Repr

/-- Why a text gives no duration. -/
inductive DurationFault where
  /-- It is no sequence of amounts, or a number is too large, or a fraction does not
  come out even. -/
  | unreadable
  /-- A full second was carried beyond the greatest number of seconds. -/
  | overflow
deriving DecidableEq, Repr

namespace DurationText

/-! ### Sums -/

/-- A number that fits a word of eight bytes. -/
def fitting (n : Nat) : Except DurationFault Nat :=
  if n < LittleEndian.size 8 then .ok n else .error .unreadable

/-- A span in the form that sums are made in: seconds, and nanoseconds below a second. -/
structure Sum where
  seconds : Nat := 0
  subsecond : Nat := 0
deriving DecidableEq, Repr

/-- Carry one full second. -/
def Sum.ofFullSecond (seconds : Nat) : Except DurationFault Sum :=
  if seconds + 1 < LittleEndian.size 8 then .ok { seconds := seconds + 1 } else .error .overflow

/-- Add seconds and nanoseconds. -/
def Sum.add (s : Sum) (seconds nanoseconds : Nat) : Except DurationFault Sum := do
  let total ← fitting (s.subsecond + nanoseconds)
  if total = 1000000000 then Sum.ofFullSecond (← fitting (s.seconds + seconds))
  else
    let seconds ← fitting (seconds + total / 1000000000)
    return { seconds := ← fitting (s.seconds + seconds), subsecond := total % 1000000000 }

/-- An exact quotient of a product. -/
def exactly (n scale divisor : Nat) : Except DurationFault Nat := do
  let product ← fitting (n * scale)
  if product % divisor = 0 then .ok (product / divisor) else .error .unreadable

/-- Add the whole part of an amount. -/
def Sum.addWhole (s : Sum) (n : Nat) (unit : TimeUnit) : Except DurationFault Sum :=
  match unit.subsecondScale? with
  | some scale => do s.add 0 (← fitting (n * scale))
  | none => do s.add (← fitting (n * unit.secondScale)) 0

/-- Add the fraction of an amount. -/
def Sum.addFraction (s : Sum) (numerator divisor : Nat) (unit : TimeUnit) :
    Except DurationFault Sum :=
  match unit with
  | .nanosecond => .error .unreadable
  | .microsecond => do s.add 0 (← exactly numerator 1000 divisor)
  | .millisecond => do s.add 0 (← exactly numerator 1000000 divisor)
  | .second => do s.add 0 (← exactly numerator 1000000000 divisor)
  | .minute => do s.add 0 (← exactly numerator 60000000000 divisor)
  | _ => do s.add (← exactly numerator unit.secondScale divisor) 0

/-- Add an amount, its whole part first. -/
def Sum.addAmount (s : Sum) (a : TimeAmount) : Except DurationFault Sum := do
  let s ← s.addWhole a.whole a.unit
  match a.fraction with
  | none => return s
  | some (numerator, divisor) => s.addFraction numerator divisor a.unit

/-- The span of a sum. -/
def Sum.duration (s : Sum) : Duration :=
  ⟨s.seconds * 1000000000 + s.subsecond⟩

/-! ### Amounts -/

/-- Whether a character is a decimal digit. -/
def isDigit (c : Char) : Bool :=
  '0' ≤ c && c ≤ '9'

/-- Whether a character may stand in the name of a unit. -/
def isUnitLetter (c : Char) : Bool :=
  ('a' ≤ c && c ≤ 'z') || ('A' ≤ c && c ≤ 'Z') || c = 'µ'

/-- The number that decimal digits stand for. -/
def number (digits : List Char) : Nat :=
  digits.foldl (fun n c => 10 * n + (c.toNat - '0'.toNat)) 0

/-- The power of ten with so many zeros. -/
def powerOfTen : Nat → Nat
  | 0 => 1
  | zeros + 1 => 10 * powerOfTen zeros

/-- Take a run of digits, with blanks among them, off the front. -/
def takeDigits (s : List Char) : List Char × List Char :=
  let isPart c := isDigit c || isBlank c
  ((s.takeWhile isPart).filter isDigit, s.dropWhile isPart)

/-- Read a fraction, if one stands here. -/
def takeFraction (s : List Char) : Except DurationFault (Option (Nat × Nat) × List Char) :=
  match s with
  | '.' :: rest => do
    let (digits, rest) := takeDigits rest
    if digits = [] then throw .unreadable
    return (some (← fitting (number digits), ← fitting (powerOfTen digits.length)), rest)
  | _ => return (none, s)

/-- Whether an amount may end here: at the end of the text, a blank, or the next number. -/
def endsAmount : List Char → Bool
  | [] => true
  | c :: _ => isDigit c || isBlank c

/-- Read the unit that ends an amount. -/
def takeUnit (s : List Char) : Except DurationFault (TimeUnit × List Char) :=
  let rest := s.dropWhile isUnitLetter
  match TimeUnit.ofName? (String.ofList (s.takeWhile isUnitLetter)) with
  | some unit => if endsAmount rest then .ok (unit, rest) else .error .unreadable
  | none => .error .unreadable

/-- Read an amount whose first digit stands at the front. -/
def takeAmount (s : List Char) : Except DurationFault (TimeAmount × List Char) := do
  let (digits, s) := takeDigits s
  let whole ← fitting (number digits)
  let (fraction, s) ← takeFraction s
  let (unit, s) ← takeUnit s
  return ({ whole, fraction, unit }, s)

/-- Read amounts and add them to a sum until the text ends.  Each starts with a digit, so none is
empty; `fuel` bounds their number. -/
def addAmounts : Nat → Sum → List Char → Except DurationFault Sum
  | 0, _, _ => .error .unreadable
  | fuel + 1, sum, s =>
    match s.dropWhile isBlank with
    | [] => .ok sum
    | c :: rest => do
      if !isDigit c then throw .unreadable
      let (amount, rest) ← takeAmount (c :: rest)
      addAmounts fuel (← sum.addAmount amount) rest

end DurationText

/-- The duration that a text stands for. -/
def Duration.ofText (text : String) : Except DurationFault Duration :=
  if text = "0" then .ok ⟨0⟩
  else if text.toList.all isBlank then .error .unreadable
  else (DurationText.addAmounts (text.length + 1) {} text.toList).map DurationText.Sum.duration

end ReplicaHandshake
