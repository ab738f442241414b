import ReplicaHandshake.Proofs.Frame.Pieces

/-!
# The room in an inbound buffer

Whoever fills an inbound buffer is handed the buffer itself, and is told for how many bytes there is
room.  A `Feeder` may do more than a source of readings does: it may fail although it has appended
bytes.  `feed` lets it, and does the same as `fill` otherwise (`fill_eq_feed`).

As long as no feeder appends more than there is room for, there are never more bytes in the buffer
than it has capacity for, whatever else is done with it (`length_dealings_le`).  A buffer that is
full has a whole frame at its front, or an error: a frame that it could not hold would be refused
for its header (`nextFrame_of_full`).
-/

namespace ReplicaHandshake.InboundBuffer

variable {b b' : InboundBuffer} {f : Frame}

/-! ### Feeding -/

/-- Somebody who puts bytes into an inbound buffer when told for how many there is room: the bytes
that are appended, and what is said of them, which need not be their number. -/
abbrev Feeder := Nat → Bytes × Except SystemError Nat

/-- Let a feeder fill the buffer, if there is room. -/
def feed (b : InboundBuffer) (feeder : Feeder) : Except SystemError FillOutcome × InboundBuffer :=
  if b.room = 0 then (.ok .full, b)
  else
    let (bytes, said) := feeder b.room
    ((b.receive (said.map (Reading.mk bytes))).1, { b with buffered := b.buffered ++ bytes })

/-- A source as a feeder: where it fails it has appended nothing. -/
def Feeder.ofSource (source : Nat → Except SystemError Reading) : Feeder := fun most =>
  match source most with
  | .ok reading => (reading.bytes, .ok reading.count)
  | .error e => ([], .error e)

/-- To fill a buffer from a source is to feed it. -/
theorem fill_eq_feed (b : InboundBuffer) (source : Nat → Except SystemError Reading) :
    b.fill (m := Id) source = b.feed (.ofSource source) := by
  unfold fill feed
  split
  · rfl
  · show b.receive (source b.room) = _
    cases hanswer : source b.room with
    | ok reading => simp [Feeder.ofSource, hanswer, Except.map, receive]
    | error e => simp [Feeder.ofSource, hanswer, Except.map, receive]

theorem room_eq_zero_iff (hle : b.buffered.length ≤ b.capacity) :
    b.room = 0 ↔ b.buffered.length = b.capacity := by
  unfold room
  omega

theorem receive_ne_full (b : InboundBuffer) (answer : Except SystemError Reading) :
    (b.receive answer).1 ≠ .ok .full := by
  cases answer with
  | ok reading => by_cases hcount : reading.count = 0 <;> simp [receive, hcount]
  | error e => by_cases he : e.isTransient <;> simp [receive, he]

theorem feed_full_iff (feeder : Feeder) : (b.feed feeder).1 = .ok .full ↔ b.room = 0 := by
  unfold feed
  split
  next hroom => exact iff_of_true rfl hroom
  next hroom =>
    exact iff_of_false (b.receive_ne_full _) hroom

/-! ### Full buffers -/

theorem length_of_peekHeader_none {s : Bytes} (h : Frame.peekHeader s = .ok none) :
    s.length < headerLength := by
  refine Nat.lt_of_not_le fun hle => ?_
  rcases s with _ | ⟨code, _ | ⟨b₀, _ | ⟨b₁, _ | ⟨b₂, _ | ⟨b₃, rest⟩⟩⟩⟩⟩
  iterate 5 simp [headerLength] at hle
  unfold Frame.peekHeader at h
  simp only at h
  split at h
  · cases h
  · split at h <;> cases h

/-- A buffer that is full, and can hold a header, gives a frame or an error. -/
theorem nextFrame_of_full (hleast : headerLength ≤ b.capacity)
    (hfull : b.buffered.length = b.capacity) :
    b.nextFrame.1 ≠ .ok none := by
  unfold nextFrame
  split
  · intro h
    cases h
  next hnone => exact absurd (length_of_peekHeader_none hnone) (by omega)
  next kind declared _ =>
    split
    · intro h
      cases h
    next hlimit =>
    split
    next hshort => exact absurd hshort (by omega)
    next hthere =>
      cases Frame.decode (b.buffered.take declared) <;> intro h <;> cases h

theorem length_lt_of_nextFrame (h : b.nextFrame = (.ok (some f), b')) :
    b'.buffered.length < b.buffered.length := by
  obtain ⟨front, hbuffered, hcut⟩ := split_of_nextFrame h
  have hfront : front ≠ [] := by
    rintro rfl
    rw [Frame.split_nil] at hcut
    cases hcut
  rw [hbuffered, List.length_append]
  have := List.length_pos_iff.2 hfront
  omega

theorem room_pos_of_nextFrame (hle : b.buffered.length ≤ b.capacity)
    (h : b.nextFrame = (.ok (some f), b')) :
    0 < b'.room := by
  have hcapacity := b.capacity_nextFrame
  rw [h] at hcapacity
  rw [room, hcapacity]
  exact Nat.sub_pos_of_lt (Nat.lt_of_lt_of_le (length_lt_of_nextFrame h) hle)

theorem length_nextFrame_le (b : InboundBuffer) :
    b.nextFrame.2.buffered.length ≤ b.buffered.length := by
  unfold nextFrame
  split
  · exact Nat.le_refl _
  · exact Nat.le_refl _
  · split
    · exact Nat.le_refl _
    · split
      · exact Nat.le_refl _
      · exact (List.drop_sublist ..).length_le

/-! ### Dealings -/

/-- What may be done with an inbound buffer. -/
inductive Dealing where
  | feed (feeder : Feeder)
  | nextFrame
  | takeBuffered

/-- No more bytes are appended than there is room for. -/
def Dealing.IsModest : Dealing → Prop
  | .feed feeder => ∀ most, (feeder most).1.length ≤ most
  | .nextFrame | .takeBuffered => True

/-- The buffer after it was dealt with. -/
def deal (b : InboundBuffer) : Dealing → InboundBuffer
  | .feed feeder => (b.feed feeder).2
  | .nextFrame => b.nextFrame.2
  | .takeBuffered => b.takeBuffered.2

/-- An empty buffer, after all that was done with it. -/
def dealings (capacity : Nat) (ds : List Dealing) : InboundBuffer :=
  ds.foldl deal { capacity }

theorem capacity_deal (b : InboundBuffer) (d : Dealing) : (b.deal d).capacity = b.capacity := by
  cases d with
  | feed feeder =>
    show (b.feed feeder).2.capacity = _
    unfold feed
    split <;> rfl
  | nextFrame => exact b.capacity_nextFrame
  | takeBuffered => rfl

theorem length_deal_le {d : Dealing} (hmodest : d.IsModest) (hle : b.buffered.length ≤ b.capacity) :
    (b.deal d).buffered.length ≤ b.capacity := by
  cases d with
  | feed feeder =>
    show (b.feed feeder).2.buffered.length ≤ _
    unfold feed
    split
    · exact hle
    next =>
      have hroom := hmodest b.room
      rw [List.length_append]
      unfold room at hroom ⊢
      omega
  | nextFrame => exact Nat.le_trans b.length_nextFrame_le hle
  | takeBuffered => exact Nat.zero_le _

/-- There are never more bytes in a buffer than it has capacity for. -/
theorem length_dealings_le {capacity : Nat} {ds : List Dealing} (hmodest : ∀ d ∈ ds, d.IsModest) :
    (dealings capacity ds).capacity = capacity ∧
      (dealings capacity ds).buffered.length ≤ capacity := by
  have hall : ∀ b : InboundBuffer, b.capacity = capacity → b.buffered.length ≤ capacity →
      (ds.foldl deal b).capacity = capacity ∧ (ds.foldl deal b).buffered.length ≤ capacity := by
    induction ds with
    | nil => exact fun b hcapacity hle => ⟨hcapacity, hle⟩
    | cons d rest ih =>
      obtain ⟨hd, hrest⟩ := List.forall_mem_cons.1 hmodest
      intro b hcapacity hle
      have hle' := length_deal_le hd (hcapacity ▸ hle)
      exact ih hrest (b.deal d) ((b.capacity_deal d).trans hcapacity) (hcapacity ▸ hle')
  exact hall _ rfl (Nat.zero_le capacity)

/-- However an empty buffer is dealt with, there are not more bytes in it than it has capacity
for.  Whoever feeds it is told that it is full exactly if there are that many, and then it gives a
frame or an error. -/
theorem dealings_never_stuck {capacity : Nat} {ds : List Dealing} (hleast : headerLength ≤ capacity)
    (hmodest : ∀ d ∈ ds, d.IsModest) :
    (dealings capacity ds).buffered.length ≤ capacity ∧
    (∀ feeder, ((dealings capacity ds).feed feeder).1 = .ok .full ↔
      (dealings capacity ds).buffered.length = capacity) ∧
    ((dealings capacity ds).buffered.length = capacity →
      (dealings capacity ds).nextFrame.1 ≠ .ok none) := by
  obtain ⟨hcapacity, hle⟩ := length_dealings_le hmodest
  refine ⟨hle, fun feeder => ?_, fun hfull => nextFrame_of_full ?_ (hfull.trans hcapacity.symm)⟩
  · rw [feed_full_iff, room_eq_zero_iff (by rwa [hcapacity]), hcapacity]
  · rwa [hcapacity]

end ReplicaHandshake.InboundBuffer
