import ReplicaHandshake.Frame.Stream
import ReplicaHandshake.Proofs.Reading

/-!
# A stream in pieces

A byte stream reaches an inbound buffer in pieces, and frames are asked for in between.  A `Session`
is any interleaving of the two: `fill` brings the next bytes of the stream, as many as the source
has at that moment and as there is room for, or none; `nextFrame` gives a frame, or an error, or
says that there is none yet.

However the pieces are cut, what comes out is what `Frame.split` makes of the whole stream at once
(`InboundBuffer.session_refines_split`).  As long as nothing is wrong, the bytes that were taken in
are those of the frames that were given back, followed by those that are still there
(`InboundBuffer.Session.Faithful`); so the frame at the front of the buffer is the next one of the
stream (`Frame.split_append`).
-/

namespace ReplicaHandshake

/-! ### Cutting -/

/-- The outcome of cutting, frame by frame, and then what is wrong if anything is. -/
def SplitStream.results (s : SplitStream) : List (Except FrameError Frame) :=
  s.frames.map .ok ++ s.error.toList.map .error

namespace Frame

variable {limit declared : Nat} {kind : FrameKind} {s front : Bytes} {frames : List Frame}
  {f : Frame}

/-- One frame at the front is cut off, and the rest is cut as it would be alone. -/
theorem split_of_decode (hheader : peekHeader s = .ok (some (kind, declared)))
    (hlimit : declared ≤ limit) (hthere : declared ≤ s.length)
    (hdecode : decode (s.take declared) = .ok f) :
    split limit s =
      { split limit (s.drop declared) with frames :=
        f :: (split limit (s.drop declared)).frames } := by
  have hpositive : 0 < declared := Nat.lt_of_lt_of_le (by decide) (peekHeader_some hheader).1
  rw [split]
  simp only [hheader, hdecode, Nat.not_lt.2 hlimit, hpositive, hthere, and_self,
    if_false, dite_true]

@[simp] theorem split_nil (limit : Nat) : split limit [] = ⟨[], [], none⟩ := by
  rw [split]
  rfl

theorem peekHeader_append (hthere : peekHeader s ≠ .ok none) (behind : Bytes) :
    peekHeader (s ++ behind) = peekHeader s := by
  have hleast : headerLength ≤ s.length := by
    rcases s with _ | ⟨_, _ | ⟨_, _ | ⟨_, _ | ⟨_, _ | ⟨_, _⟩⟩⟩⟩⟩
    iterate 5 exact absurd rfl hthere
    exact Nat.le_add_left _ _
  rw [← peekHeader_take _ (Nat.le_refl headerLength), List.take_append_of_le_length hleast,
    peekHeader_take _ (Nat.le_refl headerLength)]

/-- A stream whose front can be cut without a rest is cut there. -/
theorem split_append (hfront : split limit front = ⟨frames, [], none⟩) (s : Bytes) :
    split limit (front ++ s) =
      { split limit s with frames := frames ++ (split limit s).frames } := by
  fun_induction split limit front generalizing frames with
  | case1 | case3 | case4 => cases hfront
  | case2 =>
    cases hfront
    rfl
  | case5 front kind declared hheader hlimit hthere f hdecode behind =>
    rename_i ih
    have htake : (front ++ s).take declared = front.take declared :=
      List.take_append_of_le_length hthere.2
    have hheader' : peekHeader (front ++ s) = .ok (some (kind, declared)) :=
      (peekHeader_append (by simp [hheader]) s).trans hheader
    have hlong : declared ≤ (front ++ s).length :=
      Nat.le_trans hthere.2 (List.length_append ▸ Nat.le_add_right _ _)
    rw [split_of_decode hheader' (Nat.le_of_not_lt hlimit) hlong (htake ▸ hdecode),
      List.drop_append_of_le_length hthere.2]
    simp only [SplitStream.mk.injEq] at hfront
    obtain ⟨rfl, hrest, herror⟩ := hfront
    have hbehind : split limit (front.drop declared) = ⟨behind.frames, [], none⟩ := by
      rw [← hrest, ← herror]
    rw [ih hbehind]
    rfl
  | case6 =>
    cases hfront
    rfl

end Frame

namespace InboundBuffer

variable {b b' : InboundBuffer} {f : Frame} {e : FrameError}

theorem capacity_nextFrame (b : InboundBuffer) : b.nextFrame.2.capacity = b.capacity := by
  unfold nextFrame
  split
  · rfl
  · rfl
  · split
    · rfl
    · split <;> rfl

/-- The frame that the buffer gives back is the one that is cut off its bytes. -/
theorem split_of_nextFrame (h : b.nextFrame = (.ok (some f), b')) :
    ∃ front, b.buffered = front ++ b'.buffered ∧
      Frame.split b.capacity front = ⟨[f], [], none⟩ := by
  unfold nextFrame at h
  split at h
  · cases h
  · cases h
  next kind declared hheader =>
    split at h
    · cases h
    next hlimit =>
    split at h
    · cases h
    next hthere =>
      simp only [Prod.mk.injEq] at h
      obtain ⟨hframe, rfl⟩ := h
      have hdecode : Frame.decode (b.buffered.take declared) = .ok f := by
        cases hd : Frame.decode (b.buffered.take declared) <;> simp_all [Except.map]
      obtain ⟨hleast, -⟩ := Frame.peekHeader_some hheader
      rw [← Frame.peekHeader_take b.buffered hleast] at hheader
      refine ⟨b.buffered.take declared, (List.take_append_drop _ _).symm, ?_⟩
      have hlength : (b.buffered.take declared).length = declared :=
        List.length_take_of_le (Nat.le_of_not_lt hthere)
      rw [Frame.split_of_decode hheader (Nat.le_of_not_lt hlimit) (Nat.le_of_eq hlength.symm)
        (by rwa [List.take_take, Nat.min_self]), List.drop_of_length_le (Nat.le_of_eq hlength),
        Frame.split_nil]

/-- Where the buffer gives an error, it is the one that stops the cutting, whatever
is yet to come. -/
theorem split_of_nextFrame_error (h : b.nextFrame = (.error e, b')) (coming : Bytes) :
    (Frame.split b.capacity (b.buffered ++ coming)).results = [.error e] := by
  unfold nextFrame at h
  split at h
  next hheader =>
    cases h
    have hheader' : Frame.peekHeader (b.buffered ++ coming) = .error e :=
      (Frame.peekHeader_append (by simp [hheader]) coming).trans hheader
    rw [Frame.split]
    simp only [hheader']
    rfl
  · cases h
  next kind declared hheader =>
    have hheader' : Frame.peekHeader (b.buffered ++ coming) = .ok (some (kind, declared)) :=
      (Frame.peekHeader_append (by simp [hheader]) coming).trans hheader
    have hpositive : 0 < declared :=
      Nat.lt_of_lt_of_le (by decide) (Frame.peekHeader_some hheader).1
    rw [Frame.split]
    split at h
    next hlimit =>
      cases h
      simp only [hheader', hlimit, if_true]
      rfl
    next hlimit =>
    split at h
    · cases h
    next hthere =>
      have hthere := Nat.le_of_not_lt hthere
      have hlong : declared ≤ (b.buffered ++ coming).length :=
        Nat.le_trans hthere (List.length_append ▸ Nat.le_add_right _ _)
      have hdecode : Frame.decode (b.buffered.take declared) = .error e := by
        cases hd : Frame.decode (b.buffered.take declared) <;> simp_all [Except.map]
      simp only [hheader', hlimit, if_false, hpositive, hlong, and_self, dite_true,
        List.take_append_of_le_length hthere, hdecode]
      rfl

/-- When nothing is to come any more and the buffer gives no frame, nothing can be cut off. -/
theorem split_of_nextFrame_none (h : b.nextFrame = (.ok none, b')) :
    b' = b ∧ (Frame.split b.capacity b.buffered).results = [] := by
  unfold nextFrame at h
  split at h
  · cases h
  next hheader =>
    cases h
    rw [Frame.split, hheader]
    exact ⟨rfl, rfl⟩
  next kind declared hheader =>
    split at h
    · cases h
    next hlimit =>
    split at h
    next hthere =>
      have hshort : ¬(0 < declared ∧ declared ≤ b.buffered.length) := fun hlong =>
        absurd hthere (Nat.not_lt.2 hlong.2)
      cases h
      refine ⟨rfl, ?_⟩
      rw [Frame.split, hheader]
      simp only [hlimit, if_false, hshort, dite_false]
      rfl
    · cases hd : Frame.decode (b.buffered.take declared) <;> simp [hd, Except.map] at h

/-! ### Sessions -/

/-- What a source does when it is asked for bytes: it gives the next ones of its stream, so many if
there is room for them, or none. -/
inductive Supply where
  | gives (count : Nat)
  | fails (e : SystemError)

/-- A source, as work on the stream that is yet to come. -/
def Supply.source : Supply → Nat → StateM Bytes (Except SystemError Reading)
  | gives count, most => do
    let coming ← get
    set (coming.drop (min count most))
    return .ok (.ofBytes (coming.take (min count most)))
  | fails e, _ => return .error e

/-- What is done with an inbound buffer. -/
inductive Use where
  | fill (supply : Supply)
  | nextFrame

/-- A buffer in use, with all that it has taken in of a stream and what is yet to come of it, and
all that it gave back when it was asked for frames. -/
structure Session where
  buffer : InboundBuffer
  coming : Bytes
  answers : List (Except FrameError (Option Frame)) := []

/-- The buffer is used once. -/
def Session.use (s : Session) : Use → Session
  | .fill supply =>
    let ((_, buffer), coming) := (s.buffer.fill supply.source).run s.coming
    { s with buffer, coming }
  | .nextFrame =>
    let (answer, buffer) := s.buffer.nextFrame
    { s with buffer, answers := s.answers ++ [answer] }

/-- An empty buffer is used for a stream. -/
def session (capacity : Nat) (stream : Bytes) (uses : List Use) : Session :=
  uses.foldl Session.use { buffer := { capacity }, coming := stream }

/-- The frames that were given back, up to the first error, and this error. -/
def untilError : List (Except FrameError (Option Frame)) → List (Except FrameError Frame)
  | [] => []
  | .error e :: _ => [.error e]
  | .ok none :: rest => untilError rest
  | .ok (some f) :: rest => .ok f :: untilError rest

section UntilError

variable {answers : List (Except FrameError (Option Frame))}

theorem untilError_append_of_failed (hfailed : .error e ∈ answers)
    (more : List (Except FrameError (Option Frame))) :
    untilError (answers ++ more) = untilError answers := by
  fun_induction untilError answers with
  | case1 => cases hfailed
  | case2 => rfl
  | case3 rest ih => exact ih ((List.mem_cons.1 hfailed).resolve_left (by simp))
  | case4 f rest ih => exact congrArg _ (ih ((List.mem_cons.1 hfailed).resolve_left (by simp)))

theorem untilError_append (hsound : ∀ e, .error e ∉ answers)
    (more : List (Except FrameError (Option Frame))) :
    untilError (answers ++ more) = untilError answers ++ untilError more := by
  fun_induction untilError answers with
  | case1 => rfl
  | case2 e => exact absurd List.mem_cons_self (hsound e)
  | case3 rest ih => exact ih fun e he => hsound e (List.mem_cons_of_mem _ he)
  | case4 f rest ih => exact congrArg _ (ih fun e he => hsound e (List.mem_cons_of_mem _ he))

end UntilError

/-- What has been seen of the stream is right: either nothing was wrong so far, and the bytes taken
in are those of the frames given back and those that are still there; or all that can be cut off the
stream was given back. -/
inductive Session.Faithful (capacity : Nat) (stream : Bytes) (s : Session) : Prop where
  | sound {front : Bytes} {frames : List Frame} :
      (∀ e, .error e ∉ s.answers) → untilError s.answers = frames.map .ok →
      Frame.split capacity front = ⟨frames, [], none⟩ →
      stream = front ++ (s.buffer.buffered ++ s.coming) →
      Faithful capacity stream s
  | failed {e : FrameError} :
      .error e ∈ s.answers → untilError s.answers = (Frame.split capacity stream).results →
      Faithful capacity stream s

/-- What is in the buffer and what is to come stay together, whatever the source does. -/
theorem Session.fill_spec (s : Session) (supply : Supply) :
    (s.use (.fill supply)).buffer.capacity = s.buffer.capacity ∧
      (s.use (.fill supply)).answers = s.answers ∧
      (s.use (.fill supply)).buffer.buffered ++ (s.use (.fill supply)).coming =
        s.buffer.buffered ++ s.coming := by
  by_cases hroom : s.buffer.room = 0
  · have huse : s.use (.fill supply) = s := by
      rw [Session.use, InboundBuffer.fill, if_pos hroom]
      rfl
    simp [huse]
  cases supply with
  | gives count =>
    have huse : s.use (.fill (.gives count)) =
        { s with
          buffer := (s.buffer.receive (.ok (.ofBytes (s.coming.take (min count s.buffer.room))))).2
          coming := s.coming.drop (min count s.buffer.room) } := by
      rw [Session.use, InboundBuffer.fill, if_neg hroom]
      rfl
    simp [huse, receive, Reading.ofBytes]
  | fails e =>
    have huse : s.use (.fill (.fails e)) =
        { s with buffer := (s.buffer.receive (.error e)).2 } := by
      rw [Session.use, InboundBuffer.fill, if_neg hroom]
      rfl
    simp [huse, receive]

theorem Session.Faithful.use {capacity : Nat} {stream : Bytes} {s : Session}
    (h : s.Faithful capacity stream) (hcapacity : s.buffer.capacity = capacity) (use : Use) :
    (s.use use).Faithful capacity stream ∧ (s.use use).buffer.capacity = capacity := by
  subst hcapacity
  cases use with
  | fill supply =>
    obtain ⟨hcapacity, hanswers, hbytes⟩ := s.fill_spec supply
    refine ⟨?_, hcapacity⟩
    cases h with
    | sound hsound huntil hfront hstream =>
      refine .sound (hanswers ▸ hsound) (hanswers ▸ huntil) hfront ?_
      rw [hbytes]
      exact hstream
    | failed hmem huntil => exact .failed (hanswers ▸ hmem) (hanswers ▸ huntil)
  | nextFrame =>
    rcases hnext : s.buffer.nextFrame with ⟨answer, b'⟩
    have huse : s.use .nextFrame = { s with buffer := b', answers := s.answers ++ [answer] } := by
      rw [Session.use, hnext]
    have hcapacity : b'.capacity = s.buffer.capacity := by
      have hsame := s.buffer.capacity_nextFrame
      rwa [hnext] at hsame
    rw [huse]
    refine ⟨?_, hcapacity⟩
    cases h with
    | failed hmem huntil =>
      exact .failed (List.mem_append_left _ hmem)
        ((untilError_append_of_failed hmem _).trans huntil)
    | @sound front frames hsound huntil hfront hstream =>
      have hcut := Frame.split_append hfront (s.buffer.buffered ++ s.coming)
      rw [← hstream] at hcut
      have hmore := untilError_append hsound [answer]
      rw [huntil] at hmore
      match answer, hnext with
      | .error e, hnext =>
        refine .failed (List.mem_append_right _ List.mem_cons_self) (hmore.trans ?_)
        have hstop := split_of_nextFrame_error hnext s.coming
        rw [hcut, SplitStream.results, List.map_append, List.append_assoc]
        exact congrArg _ hstop.symm
      | .ok none, hnext =>
        obtain ⟨rfl, -⟩ := split_of_nextFrame_none hnext
        refine .sound (fun e he => ?_) (hmore.trans (List.append_nil _)) hfront hstream
        exact (List.mem_append.1 he).elim (hsound e) (by simp)
      | .ok (some f), hnext =>
        obtain ⟨next, hbuffered, hone⟩ := split_of_nextFrame hnext
        have hfront' : Frame.split s.buffer.capacity (front ++ next) =
            ⟨frames ++ [f], [], none⟩ := by
          rw [Frame.split_append hfront, hone]
        refine .sound (fun e he => ?_) (hmore.trans ?_) hfront' ?_
        · exact (List.mem_append.1 he).elim (hsound e) (by simp)
        · rw [List.map_append]
          rfl
        · rw [hstream, hbuffered]
          simp only [List.append_assoc]

theorem session_append (capacity : Nat) (stream : Bytes) (uses : List Use) (use : Use) :
    session capacity stream (uses ++ [use]) = (session capacity stream uses).use use :=
  List.foldl_append

/-- Whatever is done with it, what an inbound buffer has shown of a stream is right. -/
theorem session_faithful (capacity : Nat) (stream : Bytes) (uses : List Use) :
    (session capacity stream uses).Faithful capacity stream ∧
      (session capacity stream uses).buffer.capacity = capacity := by
  have hall : ∀ (uses : List Use) (s : Session), s.Faithful capacity stream →
      s.buffer.capacity = capacity →
      (uses.foldl Session.use s).Faithful capacity stream ∧
        (uses.foldl Session.use s).buffer.capacity = capacity := by
    intro uses
    induction uses with
    | nil => exact fun s hfaithful hcapacity => ⟨hfaithful, hcapacity⟩
    | cons use rest ih =>
      intro s hfaithful hcapacity
      obtain ⟨hfaithful, hcapacity⟩ := hfaithful.use hcapacity use
      exact ih _ hfaithful hcapacity
  exact hall uses _ (.sound (fun _ => List.not_mem_nil) rfl (Frame.split_nil capacity) rfl) rfl

/-- However a stream is cut into pieces, and whenever frames are asked for, the frames that are
given back up to the first error, and this error, are a front of those into which the stream can be
cut at once.  They are all of them when there was an error, and when the whole stream has been
delivered and the last answer was that there is no frame.  As long as there was no error, the bytes
that were delivered are those of the frames that were given back, and then those that are taken
with `takeBuffered`. -/
theorem session_refines_split (capacity : Nat) (stream : Bytes) (uses : List Use) :
    let s := session capacity stream uses
    untilError s.answers <+: (Frame.split capacity stream).results ∧
    ((∃ e, .error e ∈ s.answers) ∨
        s.coming = [] ∧ uses.getLast? = some .nextFrame ∧ s.answers.getLast? = some (.ok none) →
      untilError s.answers = (Frame.split capacity stream).results) ∧
    ((∀ e, .error e ∉ s.answers) → ∃ front frames, untilError s.answers = frames.map .ok ∧
      Frame.split capacity front = ⟨frames, [], none⟩ ∧
      stream = front ++ s.buffer.takeBuffered.1 ++ s.coming) := by
  intro s
  obtain ⟨hfaithful, hcapacity⟩ := session_faithful capacity stream uses
  cases hfaithful with
  | failed hmem huntil =>
    exact ⟨huntil ▸ List.prefix_rfl, fun _ => huntil, fun hsound => absurd hmem (hsound _)⟩
  | @sound front frames hsound huntil hfront hstream =>
    have hcut := Frame.split_append hfront (s.buffer.buffered ++ s.coming)
    rw [← hstream] at hcut
    have hresults : (Frame.split capacity stream).results =
        frames.map .ok ++ (Frame.split capacity (s.buffer.buffered ++ s.coming)).results := by
      rw [hcut, SplitStream.results, List.map_append, List.append_assoc]
      rfl
    refine ⟨?_, ?_, fun _ => ⟨front, frames, huntil, hfront, ?_⟩⟩
    · rw [hresults, huntil]
      exact List.prefix_append _ _
    · rintro (⟨e, he⟩ | ⟨hcoming, hlast, hanswer⟩)
      · exact absurd he (hsound e)
      · obtain ⟨before, rfl⟩ := List.getLast?_eq_some_iff.1 hlast
        have huse : s = (session capacity stream before).use .nextFrame := session_append ..
        rcases hnext : (session capacity stream before).buffer.nextFrame with ⟨answer, b'⟩
        rw [Session.use, hnext] at huse
        rw [huse, List.getLast?_concat] at hanswer
        obtain rfl := Option.some.inj hanswer
        obtain ⟨hsame, hnone⟩ := split_of_nextFrame_none hnext
        have hbuffer : s.buffer = (session capacity stream before).buffer := by rw [huse, hsame]
        have hthere : s.buffer.capacity = capacity := hcapacity
        rw [← hbuffer, hthere] at hnone
        rw [hresults, hcoming, List.append_nil, hnone, huntil, List.append_nil]
    · rw [hstream, List.append_assoc]
      rfl

/-- A description of the table `t`, and behind it a header of no known kind. -/
def strayStream : Bytes :=
  (Frame.tableInfo ⟨7, 0, 3, "t"⟩).bytes ++ [9, 5, 0, 0, 0]

/-- The stream comes in three pieces, the first of which ends within a header. -/
def strayUses : List Use :=
  [.fill (.gives 3), .nextFrame, .fill (.fails (.bare .wouldBlock)), .fill (.gives 20),
    .fill (.gives 100), .nextFrame, .nextFrame]

/-- The frame is given back when it is there, and then the error of the header behind it. -/
theorem pieces_rehearsed :
    (session 64 strayStream strayUses).answers =
      [.ok none, .ok (some (.tableInfo ⟨7, 0, 3, "t"⟩)), .error (.unknownFrameType 9)] ∧
    (Frame.split 64 strayStream).results =
      [.ok (.tableInfo ⟨7, 0, 3, "t"⟩), .error (.unknownFrameType 9)] := by
  have hanswers : (session 64 strayStream strayUses).answers =
      [.ok none, .ok (some (.tableInfo ⟨7, 0, 3, "t"⟩)), .error (.unknownFrameType 9)] := rfl
  obtain ⟨-, hall, -⟩ := session_refines_split 64 strayStream strayUses
  have hresults := hall (.inl ⟨.unknownFrameType 9, by rw [hanswers]; simp⟩)
  rw [hanswers] at hresults
  exact ⟨hanswers, hresults.symm⟩

end InboundBuffer

end ReplicaHandshake
