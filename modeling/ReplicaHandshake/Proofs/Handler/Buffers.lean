import ReplicaHandshake.Proofs.Frame.Pieces
import ReplicaHandshake.Proofs.Handler.Outflow

/-!
# The size of frame buffers

A connection is made with two buffers of one size, and nothing that it does changes it
(`Act.capacities`).  So all connections of a handler at work have buffers of the size with which it
began (`Begins.hasBuffers`, `Turn.hasBuffers`).  Before the data stream is asked for there is at
most one frame in an outbound buffer (`Life.pending_le`), so the request finds room in a buffer that
has room for both.
-/

namespace ReplicaHandshake

namespace OutboundBuffer

variable {b b' : OutboundBuffer} {f : Frame}

theorem capacity_of_queue (h : b.queue f = .ok b') : b'.capacity = b.capacity := by
  unfold queue at h
  split at h
  · cases h
  · obtain ⟨_, -, heq⟩ := bind_eq_ok.1 h
    cases heq
    rfl

theorem queue_ne_error {e : FrameError} (hroom : b.pending.length + f.encodedLength ≤ b.capacity)
    (hcapacity : b.capacity ≤ greatestWord32) : b.queue f ≠ .error e := by
  have hfits : f.encodedLength ≤ greatestWord32 := by omega
  rw [queue, if_neg (Nat.not_lt.2 hroom), Frame.encode, if_pos hfits]
  exact nofun

end OutboundBuffer

namespace Connection

variable {c c' : Connection} {hs : List Happening}

/-- The sizes of the two buffers. -/
def capacities (c : Connection) : Nat × Nat :=
  (c.inbound.capacity, c.outbound.capacity)

theorem Write.capacities (h : Write c hs c') : c'.capacities = c.capacities := by
  cases h <;> rfl

theorem capacities_of_writes (h : Way Write c hs c') : c'.capacities = c.capacities := by
  induction h with
  | refl => rfl
  | tail _ hwrite ih => exact hwrite.capacities.trans ih

theorem Step.capacities (h : Step c hs c') : c'.capacities = c.capacities := by
  cases h with
  | write hwrite => exact hwrite.capacities
  | wait | block | read => rfl
  | ask _ _ _ _ hqueue =>
    exact congrArg (c.inbound.capacity, ·) (OutboundBuffer.capacity_of_queue hqueue)

theorem Hear.capacities {event : ConnectionEvent} (h : Hear c hs event c') :
    c'.capacities = c.capacities := by
  cases h with
  | accept _ hframe haccepts =>
    have hsame := c.inbound.capacity_nextFrame
    rw [hframe] at hsame
    cases haccepts <;> exact congrArg (·, c.outbound.capacity) hsame

theorem Request.capacities {r : RequestReplicationStream} (h : Request r c hs c') :
    c'.capacities = c.capacities := by
  cases h with
  | ask _ hqueue hwrites =>
    have hsame := OutboundBuffer.capacity_of_queue hqueue
    exact (capacities_of_writes hwrites).trans (congrArg (c.inbound.capacity, ·) hsame)

theorem Offer.capacities {taken : Bool} (h : Offer c hs taken c') :
    c'.capacities = c.capacities := by
  have hrest : ∀ {handoff rest}, c.takeHandoff = (some handoff, rest) →
      rest.capacities = c.capacities := by
    intro handoff rest htake
    unfold takeHandoff at htake
    split at htake <;> cases htake <;> rfl
  cases h with
  | taken _ htake | refused _ htake =>
    have hsame := hrest htake
    exact hsame

/-- Nothing that a connection does changes the size of its buffers. -/
theorem Act.capacities (h : Act c hs c') : c'.capacities = c.capacities := by
  cases h with
  | step hstep => exact hstep.capacities
  | hear _ hhear => exact hhear.capacities
  | request _ hrequest => exact hrequest.capacities
  | offer _ hoffer => exact hoffer.capacities

/-- What is pending was put in. -/
theorem Dispatches.pending_le (h : c.Dispatches hs) :
    c.outbound.pending.length ≤ ((queuedFrames hs).flatMap Frame.bytes).length := by
  have hbytes := h.flows.bytes
  rw [List.nil_append] at hbytes
  rw [hbytes, List.length_append]
  exact Nat.le_add_left _ _

end Connection

namespace Handler

variable {h h' : Handler} {past hs : List Happening} {table : TableSettings} {n : Nat}

/-- While a handler is at work, all its connections have buffers of this size. -/
def HasBuffers (n : Nat) (h : Handler) : Prop :=
  h.AtWork → ∀ c ∈ h.connections, c.capacities = (n, n)

theorem Turn.hasBuffers (hturn : Turn h hs h') (hsound : h.Sound) (hbuffers : h.HasBuffers n) :
    h'.HasBuffers n :=
  (hturn.view hsound).all_look Connection.Act.capacities hbuffers

theorem Begins.hasBuffers {id : InstanceId} {peer : PeerId} {timeout : Duration} {now : Instant}
    (hbegins : Begins (new id peer table n timeout now) hs h) : h.HasBuffers n := by
  have hnew : ∀ c ∈ (new id peer table n timeout now).connections, c.capacities = (n, n) := by
    intro c hc
    obtain ⟨_, -, rfl⟩ := List.mem_map.1 hc
    rfl
  exact hbegins.all_look (fun _ _ => rfl) hnew

/-- While a handler waits for its masters, a connection has put at most its question
into its buffer. -/
theorem Life.pending_le (hlife : Life table past h) (hnodup : (openedSockets past).Nodup)
    (hphase : h.IsGathering) {c : Connection} (hc : c ∈ h.connections) :
    c.outbound.pending.length ≤ (Frame.requestTableInfo c.request).encodedLength ∧
      (c.state = .connecting → c.outbound.pending = []) := by
  have hgathers := hlife.sound.gathers hphase
  obtain ⟨socket, hid⟩ := Option.isSome_iff_exists.1 (hgathers.holds c hc).1
  have hfree : c.isTransferred = false := by
    obtain h | h | h := hgathers.states c hc <;> simp [Connection.isTransferred, h]
  have hdispatches := hlife.dispatches hnodup hphase.atWork c hc hfree socket hid
  have hpending := hdispatches.pending_le
  have hqueued := hdispatches.queued
  cases hstate : c.state with
  | connecting =>
    simp only [Connection.HasQueued, hstate] at hqueued
    rw [hqueued, List.flatMap_nil, List.length_nil, Nat.le_zero] at hpending
    exact ⟨hpending ▸ Nat.zero_le _, fun _ => List.length_eq_zero_iff.1 hpending⟩
  | awaitingTableInfo | ready =>
    simp only [Connection.HasQueued, hstate] at hqueued
    rw [hqueued, List.flatMap_singleton, Frame.length_bytes] at hpending
    exact ⟨hpending, fun h => by cases h⟩
  | disconnected | awaitingStreamStart | streamStarted | transferred | closed =>
    simpa [hstate] using hgathers.states c hc

end Handler

end ReplicaHandshake
