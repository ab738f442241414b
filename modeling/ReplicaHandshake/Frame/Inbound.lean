import ReplicaHandshake.Crash
import ReplicaHandshake.Frame.Codec
import ReplicaHandshake.Outside.SystemError

/-!
# The inbound buffer

Bytes arrive in pieces of any size; an `InboundBuffer` of fixed capacity collects them and gives
back whole frames.

* `fill` puts one reading behind the bytes that are there.  The source is told how many bytes there
  is room for; where that is none, the source is not asked.
* `nextFrame` takes the frame at the front, once it is there as a whole.  A header that is wrong, or
  that declares more bytes than the buffer can ever hold, is an error and takes nothing; a frame
  whose body is wrong is an error and is taken all the same.
* `takeBuffered` takes everything that is left.

The memory of a buffer is there from the start, so `allocate` crashes for a capacity
beyond all memory.
-/

namespace ReplicaHandshake

/-- What one reading brought: the bytes it appended, and how many it says it did. -/
structure Reading where
  bytes : Bytes
  count : Nat
deriving DecidableEq, Repr

/-- A reading that counts its bytes right. -/
def Reading.ofBytes (bs : Bytes) : Reading :=
  ⟨bs, bs.length⟩

/-- The outcome of one attempt to fill a buffer. -/
inductive FillOutcome where
  /-- So many bytes were appended. -/
  | data (count : Nat)
  /-- There is nothing to read now. -/
  | wouldBlock
  /-- The other side has closed the connection. -/
  | eof
  /-- There is no room; a frame has to be taken first. -/
  | full
deriving DecidableEq, Repr

/-- A buffer of fixed capacity for bytes that come in. -/
structure InboundBuffer where
  capacity : Nat
  buffered : Bytes := []
deriving DecidableEq, Repr

namespace InboundBuffer

/-- An empty buffer, with memory for all that it can hold. -/
def allocate (capacity : Nat) : Except Crash InboundBuffer :=
  Crash.unlessFits capacity { capacity }

/-- The number of bytes that still fit. -/
def room (b : InboundBuffer) : Nat :=
  b.capacity - b.buffered.length

/-- Take in the answer of a source.  An answer that only says to wait brings nothing, and a reading
of no bytes is the end of the stream. -/
def receive (b : InboundBuffer) :
    Except SystemError Reading → Except SystemError FillOutcome × InboundBuffer
  | .ok reading =>
    (.ok (if reading.count = 0 then .eof else .data reading.count),
      { b with buffered := b.buffered ++ reading.bytes })
  | .error e => (if e.isTransient then .ok .wouldBlock else .error e, b)

/-- Ask a source for as many bytes as fit. -/
def fill {m : Type → Type} [Monad m] (b : InboundBuffer)
    (source : Nat → m (Except SystemError Reading)) :
    m (Except SystemError FillOutcome × InboundBuffer) :=
  if b.room = 0 then pure (.ok .full, b)
  else do return b.receive (← source b.room)

/-- Take the frame at the front, if it is there as a whole. -/
def nextFrame (b : InboundBuffer) : Except FrameError (Option Frame) × InboundBuffer :=
  match Frame.peekHeader b.buffered with
  | .error e => (.error e, b)
  | .ok none => (.ok none, b)
  | .ok (some (_, declared)) =>
    if b.capacity < declared then (.error (.tooLarge declared b.capacity), b)
    else if b.buffered.length < declared then (.ok none, b)
    else
      ((Frame.decode (b.buffered.take declared)).map some,
        { b with buffered := b.buffered.drop declared })

/-- Take all bytes that are no frame yet. -/
def takeBuffered (b : InboundBuffer) : Bytes × InboundBuffer :=
  (b.buffered, { b with buffered := [] })

end InboundBuffer

end ReplicaHandshake
