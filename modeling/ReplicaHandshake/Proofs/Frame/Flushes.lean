import ReplicaHandshake.Rehearsal.Script

/-!
# A buffer that is written in parts

An outbound buffer is filled with frames, and emptied as far as the other side takes bytes.  A
`Session` is any interleaving of the two: `queue` puts a frame behind what is pending, or refuses
it, and `flush` writes into a connection that follows a script, and so may take some of the bytes,
or none, or fail, at each call.  Whatever a connection goes by, the answers that it gives during a
flush are such a script.

However far each flush comes, no byte is lost and none is written twice: what was sent, and then
what is pending, are the bytes of the frames that were not refused, one frame behind the other
(`OutboundBuffer.session_conserves`).  One flush cuts the pending bytes in two (`drain_cuts`), also
when it fails, and stops before the end for one reason only, that the connection takes no more.
-/

namespace ReplicaHandshake

open Rehearsal

namespace OutboundBuffer

/-! ### Putting a frame in -/

theorem queue_of_fits {b : OutboundBuffer} {f : Frame}
    (hroom : b.pending.length + f.encodedLength ≤ b.capacity)
    (hfits : f.encodedLength ≤ greatestWord32) :
    b.queue f = .ok { b with pending := b.pending ++ f.bytes } := by
  rw [queue, if_neg (Nat.not_lt.2 hroom), Frame.encode, if_pos hfits]
  rfl

/-- What is refused is a frame for which there is no room, or one whose length does not fit its own
header; the limit that is given back is the one that it breaks. -/
theorem queue_of_not_fits {b : OutboundBuffer} {f : Frame}
    (hbig : ¬(b.pending.length + f.encodedLength ≤ b.capacity ∧ f.encodedLength ≤ greatestWord32)) :
    b.queue f = .error (.tooLarge f.encodedLength
      (if b.capacity < b.pending.length + f.encodedLength then b.capacity - b.pending.length
      else greatestWord32)) := by
  rw [queue]
  split
  · rfl
  next hroom =>
    rw [Frame.encode, if_neg fun hfits => hbig ⟨Nat.le_of_not_lt hroom, hfits⟩]
    rfl

theorem queue_ok_iff {b : OutboundBuffer} {f : Frame} : (∃ b', b.queue f = .ok b') ↔
    b.pending.length + f.encodedLength ≤ b.capacity ∧ f.encodedLength ≤ greatestWord32 := by
  refine ⟨fun ⟨b', hqueue⟩ => ?_, fun hfits => ⟨_, queue_of_fits hfits.1 hfits.2⟩⟩
  refine Decidable.byContradiction fun hbig => ?_
  cases hqueue.symm.trans (queue_of_not_fits hbig)

/-! ### Writing it out -/

variable {pending left : Bytes} {record after : FlushRecord} {answer : Except SystemError Bool}

theorem drain_nil (record : FlushRecord) :
    (drain FlushRecord.write []).run record = ((.ok true, []), record) := by
  rw [drain, if_pos rfl]
  rfl

/-- One write is made of what is pending, and its answer says what is done next. -/
theorem drain_of_pending (hsome : pending ≠ []) (record : FlushRecord) :
    (drain FlushRecord.write pending).run record =
      let (answer, between) := (FlushRecord.write pending).run record
      match answer.result with
      | .ok ⟨0, _⟩ => ((.error (.bare .writeZero), pending), between)
      | .ok ⟨n + 1, _⟩ => (drain FlushRecord.write (pending.drop (n + 1))).run between
      | .error e => ((if e.kind = .wouldBlock then .ok false else .error e, pending), between) := by
  rw [drain, if_neg hsome]
  simp only [StateT.run, bind, StateT.bind]
  rcases FlushRecord.write pending record with ⟨answer, between⟩
  rcases hresult : answer.result with e | ⟨_ | n, hn⟩ <;> simp only [hresult] <;> rfl

theorem sent_write (data : Bytes) (record : FlushRecord) :
    ((FlushRecord.write data).run record).2.sent = record.sent ++
      (match ((FlushRecord.write data).run record).1.result with
      | .ok n => data.take n.1
      | .error _ => []) := rfl

/-- However the connection answers, the bytes are cut in two: those that were sent, and those that
are given back.  None are given back exactly when the answer is that everything has been written. -/
theorem drain_cuts (h : (drain FlushRecord.write pending).run record = ((answer, left), after)) :
    (∃ taken, after.sent = record.sent ++ taken ∧ pending = taken ++ left) ∧
      (answer = .ok true ↔ left = []) := by
  induction hlength : pending.length using Nat.strongRecOn generalizing pending record with
  | _ length ih =>
  subst hlength
  by_cases hsome : pending = []
  · subst hsome
    cases (drain_nil record).symm.trans h
    exact ⟨⟨[], by simp⟩, by simp⟩
  rw [drain_of_pending hsome] at h
  have hsent := sent_write pending record
  rcases hwrite : (FlushRecord.write pending).run record with ⟨write, between⟩
  rw [hwrite] at h hsent
  rcases hresult : write.result with e | ⟨_ | n, hn⟩ <;> simp only [hresult] at h hsent
  case error =>
    cases h
    refine ⟨⟨[], by simpa using hsent⟩, ?_⟩
    split <;> simp [hsome]
  case ok.zero =>
    cases h
    exact ⟨⟨[], by simpa using hsent⟩, by simp [hsome]⟩
  case ok.succ =>
    have hpositive := List.length_pos_iff.2 hsome
    obtain ⟨⟨taken, hafter, hpending⟩, hanswer⟩ := ih _ (by simp; omega) h rfl
    refine ⟨⟨pending.take (n + 1) ++ taken, ?_, ?_⟩, hanswer⟩
    · rw [hafter, hsent, List.append_assoc]
    · rw [List.append_assoc, ← hpending, List.take_append_drop]

/-- A flush leaves in the buffer what it has not sent, and says whether that is nothing. -/
theorem flush_cuts (b : OutboundBuffer) (script : List WriteStep) :
    let ((answer, b'), record) := Rehearsal.flush b script
    b'.capacity = b.capacity ∧ b.pending = record.sent ++ b'.pending ∧
      (answer = .ok true ↔ b'.pending = []) := by
  rcases hdrain : (drain FlushRecord.write b.pending).run { script } with ⟨⟨answer, left⟩, record⟩
  have hflush : Rehearsal.flush b script = ((answer, { b with pending := left }), record) := by
    rw [Rehearsal.flush, flush]
    simp only [StateT.run, bind, StateT.bind] at hdrain ⊢
    rw [hdrain]
    rfl
  rw [hflush]
  obtain ⟨⟨taken, hsent, hpending⟩, hanswer⟩ := drain_cuts hdrain
  exact ⟨rfl, by rw [hpending, hsent]; rfl, hanswer⟩

/-! ### Sessions -/

/-- What is done with an outbound buffer. -/
inductive Use where
  | queue (f : Frame)
  | flush (script : List WriteStep)

/-- A buffer in use, with all bytes that were taken from it and all frames that it
has not refused. -/
structure Session where
  buffer : OutboundBuffer
  sent : Bytes := []
  frames : List Frame := []

/-- The buffer is used once. -/
def Session.use (s : Session) : Use → Session
  | .queue f =>
    match s.buffer.queue f with
    | .ok buffer => { s with buffer, frames := s.frames ++ [f] }
    | .error _ => s
  | .flush script =>
    let ((_, buffer), record) := Rehearsal.flush s.buffer script
    { s with buffer, sent := s.sent ++ record.sent }

/-- An empty buffer is used. -/
def session (capacity : Nat) (uses : List Use) : Session :=
  uses.foldl Session.use { buffer := { capacity } }

/-- What was sent, and then what is pending, are the frames that were put in, and there was room for
all that is pending. -/
structure Session.Conserves (capacity : Nat) (s : Session) : Prop where
  capacity_eq : s.buffer.capacity = capacity
  bytes : s.sent ++ s.buffer.pending = s.frames.flatMap Frame.bytes
  fits : ∀ f ∈ s.frames, f.encodedLength ≤ greatestWord32
  room : s.buffer.pending.length ≤ capacity

theorem Session.Conserves.use {capacity : Nat} {s : Session} (h : s.Conserves capacity)
    (use : Use) : (s.use use).Conserves capacity := by
  obtain ⟨rfl, hbytes, hfits, hroom⟩ := h
  cases use with
  | queue f =>
    by_cases hbig : s.buffer.pending.length + f.encodedLength ≤ s.buffer.capacity ∧
      f.encodedLength ≤ greatestWord32
    · simp only [Session.use, queue_of_fits hbig.1 hbig.2]
      refine ⟨rfl, ?_, ?_, ?_⟩
      · rw [← List.append_assoc, hbytes]
        simp
      · exact List.forall_mem_append.2 ⟨hfits, by simpa using hbig.2⟩
      · simpa using hbig.1
    · simp only [Session.use, queue_of_not_fits hbig]
      exact ⟨rfl, hbytes, hfits, hroom⟩
  | flush script =>
    have hcut := flush_cuts s.buffer script
    rcases hflush : Rehearsal.flush s.buffer script with ⟨⟨answer, b'⟩, record⟩
    rw [hflush] at hcut
    obtain ⟨hcapacity, hpending, -⟩ := hcut
    simp only [Session.use, hflush]
    refine ⟨hcapacity, ?_, hfits, ?_⟩
    · rw [List.append_assoc, ← hpending, hbytes]
    · rw [hpending, List.length_append] at hroom
      exact Nat.le_trans (Nat.le_add_left ..) hroom

theorem session_keeps (capacity : Nat) (uses : List Use) :
    (session capacity uses).Conserves capacity := by
  have hall : ∀ (uses : List Use) (s : Session), s.Conserves capacity →
      (uses.foldl Session.use s).Conserves capacity := by
    intro uses
    induction uses with
    | nil => exact fun s h => h
    | cons use rest ih => exact fun s h => ih _ (h.use use)
  exact hall uses _ ⟨rfl, rfl, fun _ h => absurd h List.not_mem_nil, Nat.zero_le _⟩

/-- However a buffer is used, and however often a flush was cut short or failed, the bytes that were
sent, and then those that are pending, are the encodings of the frames that were not refused, in
order.  The next frame is put in if and only if there is room for it behind what is pending and its
length fits its own header; otherwise nothing changes, and the limit that is given back is the room
that is left, or the greatest length.  The next flush says that everything was written only if
nothing is pending then, and that the connection would have to wait only if something is. -/
theorem session_conserves (capacity : Nat) (uses : List Use) :
    let s := session capacity uses
    (∀ f ∈ s.frames, f.encode [] = .ok f.bytes) ∧
    s.sent ++ s.buffer.pending = s.frames.flatMap Frame.bytes ∧
    s.buffer.pending.length ≤ capacity ∧
    (∀ f, (∃ b, s.buffer.queue f = .ok b) ↔
      s.buffer.pending.length + f.encodedLength ≤ capacity ∧ f.encodedLength ≤ greatestWord32) ∧
    (∀ f e, s.buffer.queue f = .error e → session capacity (uses ++ [.queue f]) = s ∧
      ∃ limit, e = .tooLarge f.encodedLength limit ∧ limit < f.encodedLength ∧
        (s.buffer.pending.length + limit = capacity ∨
          s.buffer.pending.length + f.encodedLength ≤ capacity ∧ limit = greatestWord32)) ∧
    ∀ script, let ((answer, b), _) := Rehearsal.flush s.buffer script
      (answer = .ok true → b.pending = []) ∧ (answer = .ok false → b.pending ≠ []) := by
  intro s
  obtain ⟨hcapacity, hbytes, hfits, hroom⟩ := session_keeps capacity uses
  have hcapacity : s.buffer.capacity = capacity := hcapacity
  refine ⟨fun f hf => if_pos (hfits f hf), hbytes, hroom, fun f => hcapacity ▸ queue_ok_iff,
    fun f e hqueue => ?_, fun script => ?_⟩
  · have hbig : ¬(s.buffer.pending.length + f.encodedLength ≤ s.buffer.capacity ∧
        f.encodedLength ≤ greatestWord32) :=
          fun h => by cases hqueue.symm.trans (queue_of_fits h.1 h.2)
    refine ⟨?_, _, Except.error.inj (hqueue.symm.trans (queue_of_not_fits hbig)), ?_⟩
    · rw [session, List.foldl_append]
      show s.use (.queue f) = s
      rw [Session.use, hqueue]
    · have hroom : s.buffer.pending.length ≤ capacity := hroom
      split <;> omega
  · have hcut := flush_cuts s.buffer script
    rcases hflush : Rehearsal.flush s.buffer script with ⟨⟨answer, b⟩, record⟩
    rw [hflush] at hcut
    obtain ⟨-, -, hanswer⟩ := hcut
    exact ⟨hanswer.1, fun hwait hnone => by cases hwait.symm.trans (hanswer.2 hnone)⟩

/-- A request for a data stream, of 25 bytes. -/
def plainRequest : Frame := .requestReplicationStream ⟨5, 2, 300⟩

/-- There is room for two requests, and a third is refused until the first has gone out; while it
goes out, the connection interrupts, has to wait, is reset, and takes nothing. -/
def brokenUses : List Use :=
  [.queue plainRequest, .flush [.fail (.bare .interrupted), .accept 10], .queue plainRequest,
    .queue plainRequest, .flush [.accept 9, .fail (.bare .connectionReset)], .flush
      [.accept 6, .accept 0], .queue plainRequest]

/-- The first request has been sent, and the two behind it are pending, whole. -/
theorem flushes_rehearsed :
    let s := session 55 brokenUses
    s.frames = [plainRequest, plainRequest, plainRequest] ∧ s.sent = plainRequest.bytes ∧
      s.buffer.pending = plainRequest.bytes ++ plainRequest.bytes := by
  intro s
  obtain ⟨-, hbytes, -⟩ := session_conserves 55 brokenUses
  have hframes : s.frames = [plainRequest, plainRequest, plainRequest] := by decide +kernel
  have hsent : s.sent = plainRequest.bytes := by decide +kernel
  have hpending : s.sent ++ s.buffer.pending =
      s.sent ++ (plainRequest.bytes ++ plainRequest.bytes) := by
    rw [hbytes, hframes, hsent]
    rfl
  exact ⟨hframes, hsent, List.append_cancel_left hpending⟩

end OutboundBuffer

end ReplicaHandshake
