import ReplicaHandshake.Frame.Codec
import ReplicaHandshake.Outside.SystemError

/-!
# The outbound buffer

Frames are written into an `OutboundBuffer` of fixed capacity and leave it in pieces, as the
connection takes them.

* `queue` puts a frame behind the bytes that are still pending, or refuses it as a whole.
* `flush` writes until nothing is pending or the connection would have to wait.  A call that was
  interrupted is made again; a connection that takes no byte at all is an error.
-/

namespace ReplicaHandshake

/-- The answer to an offer of `offered` bytes: how often the call was interrupted and made again,
and then how many bytes were taken, or why none were. -/
structure WriteAnswer (offered : Nat) where
  interruptions : Nat
  result : Except SystemError { n : Nat // n ≤ offered }
  settled : ∀ e, result = .error e → e.kind ≠ .interrupted

/-- An answer that takes `n` bytes, or all if fewer are offered. -/
def WriteAnswer.accept (interruptions offered n : Nat) : WriteAnswer offered where
  interruptions := interruptions
  result := .ok ⟨min n offered, Nat.min_le_right n offered⟩
  settled := by simp

/-- An answer that fails. -/
def WriteAnswer.refuse (interruptions offered : Nat) (e : SystemError)
    (h : e.kind ≠ .interrupted) : WriteAnswer offered where
  interruptions := interruptions
  result := .error e
  settled := by intro e' h'; cases h'; exact h

/-- A buffer of fixed capacity for bytes that go out. -/
structure OutboundBuffer where
  capacity : Nat
  pending : Bytes := []
deriving DecidableEq, Repr

namespace OutboundBuffer

/-- Put a frame behind the pending bytes. -/
def queue (b : OutboundBuffer) (f : Frame) : Except FrameError OutboundBuffer :=
  if b.capacity < b.pending.length + f.encodedLength then
    .error (.tooLarge f.encodedLength (b.capacity - b.pending.length))
  else do return { b with pending := ← f.encode b.pending }

/-- Write the given bytes until none are left or the connection would have to wait; the bytes that
were not taken are given back. -/
def drain {m : Type → Type} [Monad m] (write : (data : Bytes) → m (WriteAnswer data.length))
    (pending : Bytes) : m (Except SystemError Bool × Bytes) :=
  if pending = [] then pure (.ok true, [])
  else do
    match (← write pending).result with
    | .ok ⟨0, _⟩ => return (.error (.bare .writeZero), pending)
    | .ok ⟨n + 1, _⟩ => drain write (pending.drop (n + 1))
    | .error e => return (if e.kind = .wouldBlock then .ok false else .error e, pending)
termination_by pending.length
decreasing_by
  simp only [List.length_drop]
  omega

/-- Write what is pending; the answer says whether everything has been written. -/
def flush {m : Type → Type} [Monad m] (b : OutboundBuffer)
    (write : (data : Bytes) → m (WriteAnswer data.length)) :
    m (Except SystemError Bool × OutboundBuffer) := do
  let (done, pending) ← drain write b.pending
  return (done, { b with pending })

end OutboundBuffer

end ReplicaHandshake
