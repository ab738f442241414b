/-!
# Durations and the clock

Times are counted in nanoseconds: a `Duration` is a span, an `Instant` is the time on a clock whose
zero does not matter.  A clock may go back; a span that would be negative is empty.
-/

namespace ReplicaHandshake

/-- A span of time. -/
structure Duration where
  nanoseconds : Nat
deriving DecidableEq, Repr

/-- The time on a clock, in nanoseconds. -/
abbrev Instant := Nat

namespace Duration

/-- The span of so many seconds. -/
def ofSeconds (n : Nat) : Duration := ⟨n * 1000000000⟩

/-- The span of so many thousandths of a second. -/
def ofMilliseconds (n : Nat) : Duration := ⟨n * 1000000⟩

/-- The whole seconds of a span. -/
def seconds (d : Duration) : Nat := d.nanoseconds / 1000000000

/-- The nanoseconds of a span beyond its whole seconds. -/
def subsecond (d : Duration) : Nat := d.nanoseconds % 1000000000

/-- The whole thousandths of a second of a span. -/
def milliseconds (d : Duration) : Nat := d.nanoseconds / 1000000

/-- The span from one time to another, empty if the clock went back. -/
def between (start now : Instant) : Duration := ⟨now - start⟩

theorem seconds_subsecond (d : Duration) :
    d.seconds * 1000000000 + d.subsecond = d.nanoseconds := by
  simp only [seconds, subsecond]
  omega

end Duration

end ReplicaHandshake
