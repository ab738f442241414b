import ReplicaHandshake.Settings.Basic

/-!
# Instructions

What an operator asks of a controller: to replicate a table, or to stop doing so.  Instructions wait
in a queue of fixed capacity, at least one; a full queue refuses and stays as it is.  The places of
a queue are there from the start, so `InstructionQueue.allocate` crashes if there are to be more
than memory can hold.
-/

namespace ReplicaHandshake

/-- A request of an operator. -/
inductive Instruction where
  | add (table : TableSettings)
  | remove (tableName : String)
deriving DecidableEq, Repr

namespace Instruction

/-- The table that an instruction is about. -/
def tableName : Instruction → String
  | add table => table.tableName
  | remove name => name

/-- The kind of an instruction in metric labels. -/
def kind : Instruction → String
  | add _ => "add"
  | remove _ => "remove"

end Instruction

/-- A queue of instructions, oldest first. -/
structure InstructionQueue where
  capacity : Nat
  pending : List Instruction
  length_le : pending.length ≤ capacity
deriving DecidableEq, Repr

namespace InstructionQueue

/-- An empty queue with room for at least one instruction. -/
def empty (capacity : Nat) : InstructionQueue :=
  ⟨max capacity 1, [], Nat.zero_le _⟩

/-- The bytes that the place of one instruction takes. -/
def placeSize : Nat := 56

/-- An empty queue, with all its places. -/
def allocate (capacity : Nat) : Except Crash InstructionQueue :=
  Crash.unlessFits (max capacity 1 * placeSize) (empty capacity)

/-- Whether there is no room. -/
def isFull (q : InstructionQueue) : Bool :=
  q.capacity ≤ q.pending.length

/-- Put an instruction at the end, if there is room; the answer says whether there was. -/
def push (q : InstructionQueue) (i : Instruction) : Bool × InstructionQueue :=
  if h : q.pending.length < q.capacity then
    (true, ⟨q.capacity, q.pending ++ [i], by
      simp only [List.length_append, List.length_singleton]
      omega⟩)
  else (false, q)

/-- Take the oldest instruction. -/
def pop? (q : InstructionQueue) : Option (Instruction × InstructionQueue) :=
  match h : q.pending with
  | [] => none
  | i :: rest =>
    some (i, ⟨q.capacity, rest, by
      have := q.length_le
      simp only [h, List.length_cons] at this
      omega⟩)

/-- The queue without its instructions. -/
def cleared (q : InstructionQueue) : InstructionQueue :=
  ⟨q.capacity, [], Nat.zero_le _⟩

theorem push_eq_true_iff {q : InstructionQueue} {i : Instruction} :
    (q.push i).1 = true ↔ q.pending.length < q.capacity := by
  unfold push
  split <;> simp [*]

theorem pending_push {q : InstructionQueue} {i : Instruction} (h : (q.push i).1 = true) :
    (q.push i).2.pending = q.pending ++ [i] := by
  have h' := push_eq_true_iff.1 h
  simp [push, h']

theorem push_eq_self {q : InstructionQueue} {i : Instruction} (h : (q.push i).1 = false) :
    (q.push i).2 = q := by
  have h' : ¬ q.pending.length < q.capacity := fun hq => by
    rw [push_eq_true_iff.2 hq] at h
    cases h
  simp [push, h']

@[simp] theorem capacity_push (q : InstructionQueue) (i : Instruction) :
    (q.push i).2.capacity = q.capacity := by
  unfold push
  split <;> rfl

theorem pop?_eq_some_iff {q q' : InstructionQueue} {i : Instruction} :
    q.pop? = some (i, q') ↔ q.pending = i :: q'.pending ∧ q'.capacity = q.capacity := by
  obtain ⟨capacity, pending, length_le⟩ := q
  obtain ⟨capacity', pending', length_le'⟩ := q'
  cases pending with
  | nil => simp [pop?]
  | cons j rest =>
    simp only [pop?, Option.some.injEq, Prod.mk.injEq, mk.injEq, List.cons.injEq]
    constructor
    · rintro ⟨rfl, rfl, rfl⟩
      exact ⟨⟨rfl, rfl⟩, rfl⟩
    · rintro ⟨⟨rfl, rfl⟩, rfl⟩
      exact ⟨rfl, rfl, rfl⟩

theorem pop?_eq_none_iff {q : InstructionQueue} : q.pop? = none ↔ q.pending = [] := by
  obtain ⟨capacity, pending, length_le⟩ := q
  cases pending <;> simp [pop?]

theorem eq_cleared {q : InstructionQueue} (h : q.pending = []) : q = q.cleared := by
  obtain ⟨capacity, pending, length_le⟩ := q
  subst h
  rfl

end InstructionQueue

end ReplicaHandshake
