import ReplicaHandshake.Proofs.Connection.Idle
import ReplicaHandshake.Proofs.Frame.Capacity

/-!
# Connections with room

A connection `IsRoomy` if there are not more bytes in its inbound buffer than fit, and if, unless it
reads when it is polled, there is room for more.  So when its buffer becomes full in a poll, or was
so before, this poll gives an event or an error; and however it is polled, it does not wait while
there is no room (`poll_room`).

It stays so by steps, by what it hears and by offers of its socket, as long as it does not read
bytes that only the multiplexer may (`Step.roomy`, `Hear.roomy`, `Offer.roomy`).
-/

namespace ReplicaHandshake.Connection

variable {c c' : Connection} {hs : List Happening}

/-- The connection writes and reads when it is polled. -/
def Reads (c : Connection) : Prop :=
  (c.state = .awaitingTableInfo ∨ c.state = .ready ∨ c.state = .awaitingStreamStart) ∧
    c.socket.isSome

/-- There are not more bytes in the inbound buffer than fit, and there is room unless the
connection reads. -/
structure IsRoomy (c : Connection) : Prop where
  le : c.inbound.buffered.length ≤ c.inbound.capacity
  room : ¬c.Reads → 0 < c.inbound.room

theorem isRoomy_of_room (h : 0 < c.inbound.room) : c.IsRoomy :=
  ⟨Nat.le_of_lt (Nat.lt_of_sub_pos h), fun _ => h⟩

/-! ### Polling -/

theorem Write.delivered (h : Write c hs c') : deliveredBytes hs = [] := by
  cases h <;> rfl

theorem delivered_of_writes (h : Way Write c hs c') : deliveredBytes hs = [] := by
  induction h with
  | refl => rfl
  | tail _ hwrite ih => rw [deliveredBytes_append, ih, hwrite.delivered, List.append_nil]

theorem Accepts.inbound_eq {f : Frame} {event : ConnectionEvent} (h : Accepts c f event c') :
    c'.inbound = c.inbound := by
  cases h <;> rfl

/-- Looking for a frame in a full buffer one finds it, or fails; then, and also where there was
none, there is room. -/
theorem takeFrame_room {busy : Bool} (hleast : headerLength ≤ c.inbound.capacity)
    (hle : c.inbound.buffered.length ≤ c.inbound.capacity) :
    Task.Always (takeFrame busy) c
      (fun hs polled c' =>
        deliveredBytes hs = [] ∧ (c.inbound.room = 0 → polled.event.isSome) ∧ 0 < c'.inbound.room)
      (fun _ _ _ => True) := by
  simp only [takeFrame, Task.always_bind, Task.always_get, Task.always_set, List.nil_append]
  rcases hn : c.inbound.nextFrame with ⟨frame, inbound⟩
  rcases frame with e | _ | f
  · exact Task.always_throw.2 trivial
  · have hroom : c.inbound.room ≠ 0 := by
      rw [ne_eq, InboundBuffer.room_eq_zero_iff hle]
      intro hfull
      exact InboundBuffer.nextFrame_of_full hleast hfull (by rw [hn])
    rw [InboundBuffer.nextFrame_none hn]
    exact Task.always_pure.2 ⟨rfl, fun hfull => absurd hfull hroom, Nat.pos_of_ne_zero hroom⟩
  · simp only [Task.always_bind, Task.always_lift, report, Dialogue.always_metric]
    refine onFrame_always.mono ?_ fun _ _ _ _ => trivial
    rintro hs event c' ⟨rfl, haccept⟩
    refine Task.always_pure.2 ⟨rfl, fun _ => rfl, ?_⟩
    rw [haccept.inbound_eq]
    exact InboundBuffer.room_pos_of_nextFrame hle hn

/-- What a poll does for the room in the buffer: where it is full, before or after reading,
there is an event. -/
def MakesRoom (c : Connection) (hs : List Happening) (polled : ConnectionPoll) (c' : Connection) :
    Prop :=
  (c.inbound.room ≤ (deliveredBytes hs).length → polled.event.isSome) ∧ 0 < c'.inbound.room

theorem pollIo_room (hreads : c.Reads) (hleast : headerLength ≤ c.inbound.capacity)
    (hle : c.inbound.buffered.length ≤ c.inbound.capacity) :
    Task.Always pollIo c (MakesRoom c) (fun _ _ _ => True) := by
  obtain ⟨hstate, hsocket⟩ := hreads
  have hopen : c.hasRequestedTableInfo := by
    rcases hstate with h | h | h <;> simp [hasRequestedTableInfo, h]
  simp only [pollIo, Task.always_bind, Task.always_get]
  refine (flush_always hopen).mono ?_ fun _ _ _ _ => trivial
  intro hs wrote c₁ hwrites
  have hnothing := delivered_of_writes hwrites
  have hsame := eq_of_writes hwrites
  have hinbound : c₁.inbound = c.inbound := by rw [hsame]; rfl
  have htake : ∀ (hs' : List Happening) (c₂ : Connection) (busy : Bool),
      c₂.inbound.capacity = c.inbound.capacity →
      c₂.inbound.buffered.length = c.inbound.buffered.length + (deliveredBytes hs').length →
      (deliveredBytes hs').length ≤ c.inbound.room →
      Task.Always (takeFrame busy) c₂ (fun hs'' => MakesRoom c (hs ++ (hs' ++ hs'')))
        (fun _ _ _ => True) := by
    intro hs' c₂ busy hcapacity hlength hfits
    rw [InboundBuffer.room] at hfits
    refine (takeFrame_room (by rwa [hcapacity]) (by omega)).mono ?_ fun _ _ _ _ => trivial
    rintro hs'' polled c' ⟨hnone, hevent, hroom⟩
    refine ⟨fun hfull => hevent ?_, hroom⟩
    rw [deliveredBytes_append, deliveredBytes_append, hnothing, hnone, List.nil_append,
      List.append_nil, InboundBuffer.room] at hfull
    rw [InboundBuffer.room]
    omega
  simp only [List.nil_append]
  split
  next hnone =>
    rw [hsame] at hnone
    exact absurd hsocket (by simpa [withPending] using hnone)
  next socket _ =>
    simp only [Task.always_bind, Task.always_lift, Dialogue.fill, InboundBuffer.fill, hinbound]
    split
    · simpa [← hinbound] using htake [] c₁ wrote (by rw [hinbound]) (by rw [hinbound]; rfl)
        (Nat.zero_le _)
    simp only [Dialogue.read, Dialogue.call, Dialogue.ask_bind, Dialogue.done_bind,
      Dialogue.pure_eq, Dialogue.always_ask, Dialogue.always_done]
    intro answer
    cases answer with
    | error e =>
      by_cases he : e.isTransient
      · have hblocked :=
          htake [.answered (.read socket c.inbound.room) (.error e)] c₁ wrote (by rw [hinbound])
          (by rw [hinbound]; rfl) (Nat.zero_le _)
        simpa [InboundBuffer.receive, he, Except.map, ← hinbound] using hblocked
      · simp [InboundBuffer.receive, he, Except.map]
    | ok bs =>
      have hdelivered : deliveredBytes [.answered (.read socket c.inbound.room) (.ok bs)] = bs.1 :=
        List.append_nil _
      by_cases hbs : bs.1 = []
      · simp [InboundBuffer.receive, Except.map, Reading.ofBytes, hbs, report]
      · have hread := htake [.answered (.read socket c.inbound.room) (.ok bs)]
          { c₁ with inbound := { c.inbound with buffered := c.inbound.buffered ++ bs.1 } } true rfl
          (by rw [hdelivered]; exact List.length_append) (by rw [hdelivered]; exact bs.2)
        simpa [InboundBuffer.receive, Except.map, Reading.ofBytes, hbs] using hread

theorem pollConnecting_room (hstate : c.state = .connecting)
    (hleast : headerLength ≤ c.inbound.capacity) (hroomy : c.IsRoomy) :
    Task.Always pollConnecting c (MakesRoom c) (fun _ _ _ => True) := by
  have hroom : 0 < c.inbound.room := hroomy.room fun hreads => by simpa [hstate] using hreads.1
  simp only [pollConnecting, Task.always_bind, Task.always_get, List.nil_append]
  split
  · exact Task.always_pure.2 ⟨fun hfull => absurd hroom (Nat.not_lt.2 hfull), hroom⟩
  next socket hsocket =>
    simp only [Dialogue.pollConnect, Dialogue.call, Task.always_bind, Task.always_lift,
      Dialogue.always_ask, Dialogue.always_done]
    intro answer
    rcases isConnected answer with e | _ | _
    · simp [report]
    · exact Task.always_pure.2 ⟨fun hfull => absurd hroom (Nat.not_lt.2 hfull), hroom⟩
    · simp only [Dialogue.setNoDelay, Dialogue.call, report, bind_pure_comp, Task.always_bind,
        Task.always_map, Task.always_modify, Task.always_lift, Dialogue.always_metric,
        Dialogue.always_ask, Dialogue.always_done]
      intro _
      refine queueFrame_always.mono ?_ fun _ _ _ _ => trivial
      rintro hs _ c₁ ⟨outbound, -, rfl, rfl⟩
      have hreads : Reads { c with outbound, state := .awaitingTableInfo } :=
        ⟨.inl rfl, by simp [hsocket]⟩
      exact pollIo_room hreads hleast hroomy.le

/-- A connection whose buffer is full before or after it has read gives an event or an error when it
is polled; and it does not wait without room. -/
theorem poll_room (hleast : headerLength ≤ c.inbound.capacity) (hroomy : c.IsRoomy) :
    Task.Always poll c (MakesRoom c) (fun _ _ _ => True) := by
  simp only [poll, Task.always_bind, Task.always_get, List.nil_append]
  by_cases hreads : c.Reads
  · have hio := pollIo_room hreads hleast hroomy.le
    rcases hreads.1 with hstate | hstate | hstate <;> rwa [hstate]
  have hroom := hroomy.room hreads
  have hwaits : MakesRoom c [] {} c := ⟨fun hfull => absurd hroom (Nat.not_lt.2 hfull), hroom⟩
  cases hstate : c.state with
  | connecting => exact pollConnecting_room hstate hleast hroomy
  | awaitingTableInfo | ready | awaitingStreamStart =>
    have hnone : c.socket = none := by simpa [Reads, hstate] using hreads
    refine (pollIo_of_none hnone).mono ?_ fun _ _ _ h => h.elim
    rintro hs polled c' ⟨rfl, rfl, rfl⟩
    exact hwaits
  | disconnected | streamStarted | transferred | closed => exact Task.always_pure.2 hwaits

/-! ### What keeps room -/

/-- A step keeps room, if the connection does not read what follows the start of the stream. -/
theorem Step.roomy (h : Step c hs c') (hstate : c.state ≠ .streamStarted)
    (hfree : c.state ≠ .transferred) (hroomy : c.IsRoomy) : c'.IsRoomy := by
  cases h with
  | write hwrite =>
    cases hwrite with
    | some | none => exact ⟨hroomy.le, hroomy.room⟩
  | wait | block => exact hroomy
  | ask _ hconnecting =>
    exact isRoomy_of_room (hroomy.room fun hreads => by simpa [hconnecting] using hreads.1)
  | @read socket bs hsocket hopen =>
    have hfits : (c.inbound.buffered ++ bs.1).length ≤ c.inbound.capacity := by
      have hroom : bs.1.length ≤ c.inbound.capacity - c.inbound.buffered.length := bs.2
      have hle := hroomy.le
      rw [List.length_append]
      omega
    refine ⟨hfits, fun hidle => absurd ?_ hidle⟩
    refine ⟨?_, by simp [hsocket]⟩
    revert hopen
    cases hc : c.state <;> simp_all [hasRequestedTableInfo]

theorem Hear.roomy {event : ConnectionEvent} (h : Hear c hs event c') (hroomy : c.IsRoomy) :
    c'.IsRoomy := by
  cases h with
  | accept _ hframe haccept =>
    apply isRoomy_of_room
    rw [haccept.inbound_eq]
    exact InboundBuffer.room_pos_of_nextFrame hroomy.le hframe

theorem Request.roomy {r : RequestReplicationStream} (h : Request r c hs c') (hholds : c.Holds)
    (hroomy : c.IsRoomy) : c'.IsRoomy := by
  cases h with
  | ask _ _ hwrites =>
    rw [eq_of_writes hwrites]
    refine ⟨hroomy.le, fun hidle => absurd ⟨.inr (.inr rfl), ?_⟩ hidle⟩
    exact hholds.2.1 ▸ hholds.1

theorem Offer.roomy {taken : Bool} (h : Offer c hs taken c') (hkept : c.Holds ∨ c.Refused)
    (hroomy : c.IsRoomy) (hpos : 0 < c.inbound.capacity) : c'.IsRoomy := by
  have hrest : 0 < c.takeHandoff.2.inbound.room := by
    obtain ⟨hid, hsocket, hnone⟩ | ⟨handoff, -, hsocket, hsome⟩ := hkept
    · obtain ⟨socket, hid⟩ := Option.isSome_iff_exists.1 hid
      simpa [takeHandoff, hnone, hsocket, hid, InboundBuffer.takeBuffered,
        InboundBuffer.room] using hpos
    · have hroom := hroomy.room fun hreads => by simpa [hsocket] using hreads.2
      simpa [takeHandoff, hsome] using hroom
  apply isRoomy_of_room
  cases h with
  | taken _ htake | refused _ htake =>
    rw [htake] at hrest
    exact hrest

end ReplicaHandshake.Connection
