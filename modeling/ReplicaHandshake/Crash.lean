/-!
# Crashes

A `Crash` ends the program on the spot.  It is no failure of a table, no phase follows it, and
nothing is reported about it; only its wording is left behind.  Two things bring one about:

* a duration whose text adds up to one second more than a duration can have;
* a buffer or a queue that is to be larger than memory can be (`Crash.unlessFits`).
-/

namespace ReplicaHandshake

/-- Why the program came to a sudden end. -/
inductive Crash where
  /-- The last second of a duration was one too many. -/
  | durationOverflow
  /-- Memory cannot be as large as was asked. -/
  | capacityOverflow
deriving DecidableEq, Repr

namespace Crash

/-- The last words of the program. -/
def message : Crash → String
  | durationOverflow => "overflow in Duration::new"
  | capacityOverflow => "capacity overflow"

/-- The most bytes that one piece of memory can have. -/
def greatestAllocation : Nat := 0x7fffffffffffffff

/-- Make something that takes so many bytes, if memory can be that large. -/
def unlessFits {α : Type} (size : Nat) (a : α) : Except Crash α :=
  if size ≤ greatestAllocation then .ok a else .error capacityOverflow

theorem unlessFits_eq_ok {α : Type} {size : Nat} {a : α} (h : size ≤ greatestAllocation) :
    unlessFits size a = .ok a := by
  simp only [unlessFits, h, if_true]

theorem unlessFits_eq_error_iff {α : Type} {size : Nat} {a : α} {c : Crash} :
    unlessFits size a = .error c ↔ greatestAllocation < size ∧ c = capacityOverflow := by
  unfold unlessFits
  split
  · simp only [reduceCtorEq, false_iff, not_and]
    omega
  · simp only [Except.error.injEq]
    constructor
    · intro h
      exact ⟨by omega, h.symm⟩
    · intro h
      exact h.2.symm

end Crash

end ReplicaHandshake
