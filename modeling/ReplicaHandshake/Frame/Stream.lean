import ReplicaHandshake.Frame.Codec

/-!
# A byte stream as frames

`Frame.split` cuts a byte stream into frames, all at once.  It stops before a frame that is not
there as a whole, or that is wrong or longer than a limit; the bytes from there on are the rest, and
a frame that is wrong leaves its error as well.  The inbound buffer gives the same frames, however
the stream comes in pieces.
-/

namespace ReplicaHandshake

/-- A byte stream that was cut into frames. -/
structure SplitStream where
  /-- The whole frames at the front. -/
  frames : List Frame
  /-- The bytes behind them. -/
  rest : Bytes
  /-- What is wrong with the frame at the front of the rest, if anything is. -/
  error : Option FrameError
deriving DecidableEq, Repr

/-- Cut a byte stream into frames of limited length. -/
def Frame.split (limit : Nat) (s : Bytes) : SplitStream :=
  match peekHeader s with
  | .error e => ⟨[], s, some e⟩
  | .ok none => ⟨[], s, none⟩
  | .ok (some (_, declared)) =>
    if limit < declared then ⟨[], s, some (.tooLarge declared limit)⟩
    else if _h : 0 < declared ∧ declared ≤ s.length then
      match decode (s.take declared) with
      | .error e => ⟨[], s, some e⟩
      | .ok f =>
        let behind := split limit (s.drop declared)
        { behind with frames := f :: behind.frames }
    else ⟨[], s, none⟩
termination_by s.length
decreasing_by
  simp only [List.length_drop]
  omega

end ReplicaHandshake
