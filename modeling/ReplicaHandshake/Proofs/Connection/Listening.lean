import ReplicaHandshake.Proofs.Connection.Traffic
import ReplicaHandshake.Proofs.Frame.Pieces
import ReplicaHandshake.Proofs.Writing
import ReplicaHandshake.Rehearsal.World

/-!
# What a connection listens to

A `Session` is any use of an opened connection: it is polled, and asked to request the data
stream, in any order and as often as one likes, whatever comes of each.  Its master sends frames,
in pieces of any size.

The events are a function of the frames: `welcome` says which frame is accepted after which
events, and `Blames` with what failure any other frame is refused.  The state of a connection is
nothing but a memory of this (`Connection.Knows`), and the frames that were taken out of the
inbound buffer are the front of those that were sent (`Connection.HasTaken`); a poll keeps both
(`Attends.poll`), and so does a request (`Attends.request`).  So every session goes as it
should, `Session.accepts_in_turn`.
-/

namespace ReplicaHandshake

/-! ### Frames that are taken out -/

/-- The kind of the frame that was taken out of an inbound buffer. -/
def Happening.decoded? : Happening → Option String
  | reported (.frameReceived kind) => some kind
  | _ => none

/-- The kinds of the frames that were taken out of inbound buffers. -/
def decodedKinds (hs : List Happening) : List String :=
  hs.filterMap (·.decoded?)

@[simp] theorem decodedKinds_append (past hs : List Happening) :
    decodedKinds (past ++ hs) = decodedKinds past ++ decodedKinds hs :=
  List.filterMap_append

theorem Frame.split_bytes {limit : Nat} {frames : List Frame}
    (hfits : ∀ f ∈ frames, f.encodedLength ≤ limit ∧ f.encodedLength ≤ greatestWord32) :
    split limit (frames.flatMap Frame.bytes) = ⟨frames, [], none⟩ := by
  induction frames with
  | nil => exact split_nil limit
  | cons f rest ih =>
    obtain ⟨⟨hroom, hword⟩, hrest⟩ := List.forall_mem_cons.1 hfits
    have hdecode : decode ((f.bytes ++ rest.flatMap Frame.bytes).take f.encodedLength) = .ok f := by
      rw [List.take_left' (length_bytes f)]
      exact decode_bytes hword
    rw [List.flatMap_cons, split_of_decode (peekHeader_bytes hword _) hroom (by simp) hdecode,
      List.drop_left' (length_bytes f), ih hrest]

namespace Connection

variable {c c' opened : Connection} {hs past : List Happening} {f : Frame}
  {frames taken : List Frame} {stream : Bytes} {limit : Nat}

/-! ### Looking for a frame -/

/-- The buffer gives no frame to a connection that would hear one. -/
def IsSpent (c : Connection) : Prop :=
  c.socket.isSome → c.state = .awaitingTableInfo ∨ c.state = .ready ∨
    c.state = .awaitingStreamStart →
    c.inbound.nextFrame = (.ok none, c.inbound)

theorem poll_isSpent (c : Connection) :
    Task.Always poll c (fun _ r c' => r.event = none → c'.IsSpent) (fun _ _ _ => True) := by
  refine poll_leaves c (P := fun event c' => event = none → c'.IsSpent) ?_ ?_ ?_
  · intro c' hnone _ hsome
    simp [hnone] at hsome
  · rintro c' hinfo hready hstart _ _ (h | h | h)
    · exact absurd h hinfo
    · exact absurd h hready
    · exact absurd h hstart
  · intro c' busy
    simp only [takeFrame, Task.always_bind, Task.always_get, Task.always_set]
    rcases hnext : c'.inbound.nextFrame with ⟨frame, inbound⟩
    cases frame with
    | error e => exact Task.always_throw.2 trivial
    | ok frame =>
      cases frame with
      | none =>
        obtain rfl := InboundBuffer.nextFrame_none hnext
        exact Task.always_pure.2 fun _ _ _ => hnext
      | some f =>
        simp only [Task.always_bind, Task.always_lift, report, Dialogue.always_metric]
        refine onFrame_always.mono (fun _ event _ _ => Task.always_pure.2 fun hnone => ?_)
          fun _ _ _ _ => trivial
        cases hnone

/-- What was delivered is some frames that were taken out, and then what is in the buffer. -/
structure HasTaken (limit : Nat) (c : Connection) (hs : List Happening) (taken : List Frame) :
    Prop where
  capacity : c.inbound.capacity = limit
  kinds : decodedKinds hs = taken.map (·.kind.name)
  bytes : ∃ front, Frame.split limit front = ⟨taken, [], none⟩ ∧
    deliveredBytes hs = front ++ c.inbound.buffered

theorem Step.takesIn (h : Step c hs c') :
    c'.inbound = { c.inbound with buffered := c.inbound.buffered ++ deliveredBytes hs } ∧
      decodedKinds hs = [] := by
  cases h with
  | write h => cases h <;> exact ⟨by simp [deliveredBytes, Happening.delivered], rfl⟩
  | wait | ask | block => exact ⟨by simp [deliveredBytes, Happening.delivered], rfl⟩
  | read => exact ⟨by simp [deliveredBytes, Happening.delivered], rfl⟩

theorem HasTaken.step (h : c.HasTaken limit past taken) (hstep : Step c hs c') :
    c'.HasTaken limit (past ++ hs) taken := by
  obtain ⟨hcapacity, hkinds, front, hfront, hbytes⟩ := h
  obtain ⟨hinbound, hquiet⟩ := hstep.takesIn
  refine ⟨hinbound ▸ hcapacity, by rw [decodedKinds_append, hkinds, hquiet,
    List.append_nil], front, hfront, ?_⟩
  rw [deliveredBytes_append, hbytes, hinbound, List.append_assoc]

theorem HasTaken.steps (h : c.HasTaken limit past taken) (hsteps : Way Step c hs c') :
    c'.HasTaken limit (past ++ hs) taken :=
  hsteps.invariant (I := fun past c => c.HasTaken limit past taken) (fun _ _ _ _ => HasTaken.step) h

theorem HasTaken.quiet (h : c.HasTaken limit past taken) (hbytes : deliveredBytes hs = [])
    (hkinds : decodedKinds hs = []) (hinbound : c'.inbound = c.inbound) :
    c'.HasTaken limit (past ++ hs) taken := by
  obtain ⟨hcapacity, hkinds', front, hfront, hbytes'⟩ := h
  refine ⟨hinbound ▸ hcapacity, by rw [decodedKinds_append, hkinds, hkinds',
    List.append_nil], front, hfront, ?_⟩
  rw [deliveredBytes_append, hbytes, hbytes', hinbound, List.append_nil]

section Stream

variable (h : c.HasTaken limit past taken) (hstream : Frame.split limit stream = ⟨frames, [], none⟩)
  (hsent : deliveredBytes past <+: stream)

include h hstream hsent

/-- What is in the buffer, with what is yet to come, is made of the frames that are
yet to be taken. -/
theorem HasTaken.rest :
    ∃ coming more, Frame.split limit (c.inbound.buffered ++ coming) = ⟨more, [], none⟩ ∧
    frames = taken ++ more := by
  obtain ⟨-, -, front, hfront, hbytes⟩ := h
  obtain ⟨coming, rfl⟩ := hsent
  rw [hbytes, List.append_assoc, Frame.split_append hfront] at hstream
  rcases hrest : Frame.split limit (c.inbound.buffered ++ coming) with ⟨more, rest, error⟩
  rw [hrest] at hstream
  cases hstream
  exact ⟨coming, more, hrest, rfl⟩

theorem HasTaken.ne_error {e : FrameError} {inbound : InboundBuffer} :
    c.inbound.nextFrame ≠ (.error e, inbound) := by
  intro hnext
  obtain ⟨coming, more, hmore, -⟩ := h.rest hstream hsent
  have hstop := InboundBuffer.split_of_nextFrame_error hnext coming
  rw [h.capacity, hmore] at hstop
  cases more <;> simp [SplitStream.results] at hstop

/-- The frame that is taken out is the next one of the stream. -/
theorem HasTaken.take {inbound : InboundBuffer}
    (hnext : c.inbound.nextFrame = (.ok (some f), inbound)) (hbytes : deliveredBytes hs = [])
    (hkinds : decodedKinds hs = [f.kind.name]) (hinbound : c'.inbound = inbound) :
    taken ++ [f] <+: frames ∧ c'.HasTaken limit (past ++ hs) (taken ++ [f]) := by
  obtain ⟨coming, more, hmore, rfl⟩ := h.rest hstream hsent
  obtain ⟨hcapacity, hkinds', front, hfront, hbytes'⟩ := h
  obtain ⟨next, hbuffered, hone⟩ := InboundBuffer.split_of_nextFrame hnext
  rw [hcapacity] at hone
  rw [hbuffered, List.append_assoc, Frame.split_append hone, SplitStream.mk.injEq] at hmore
  refine ⟨?_, ?_, ?_, front ++ next, ?_, ?_⟩
  · rw [← hmore.1, List.prefix_append_right_inj]
    exact List.prefix_append ..
  · have hsame := c.inbound.capacity_nextFrame
    rw [hnext] at hsame
    rw [hinbound]
    exact hsame.trans hcapacity
  · rw [decodedKinds_append, hkinds, hkinds', List.map_append]
    rfl
  · rw [Frame.split_append hfront, hone]
  · rw [deliveredBytes_append, hbytes, hbytes', hbuffered, hinbound, List.append_nil,
      List.append_assoc]

/-- Where the buffer gives no frame, all frames that were delivered as a whole have
been taken out. -/
theorem HasTaken.all (hnext : c.inbound.nextFrame = (.ok none, c.inbound)) :
    (Frame.split limit (deliveredBytes past)).frames = taken := by
  obtain ⟨coming, more, hmore, -⟩ := h.rest hstream hsent
  obtain ⟨hcapacity, -, front, hfront, hbytes⟩ := h
  have hnone := (InboundBuffer.split_of_nextFrame_none hnext).2
  rw [hcapacity, SplitStream.results, List.append_eq_nil_iff, List.map_eq_nil_iff] at hnone
  rw [hbytes, Frame.split_append hfront, hnone.1, List.append_nil]

end Stream

/-! ### Sessions -/

/-- What has come of the use of a connection: all that happened, the events that it has emitted, and
how often its state was changed by asking for the stream. -/
structure Conversation where
  happened : List Happening := []
  events : List ConnectionEvent := []
  asked : Nat := 0

/-- The events of a poll. -/
def emitted : Except Failure ConnectionPoll → List ConnectionEvent
  | .ok polled => polled.event.toList
  | .error _ => []

/-- The conversation after a poll. -/
def Conversation.polled (t : Conversation) (hs : List Happening)
    (outcome : Except Failure ConnectionPoll) :
    Conversation :=
  { t with happened := t.happened ++ hs, events := t.events ++ emitted outcome }

/-- The conversation after the stream was asked for, by which one state became
another, or the same. -/
def Conversation.requested (t : Conversation) (hs : List Happening) (old new : ConnectionState) :
    Conversation :=
  { t with happened := t.happened ++ hs, asked := t.asked + if new = old then 0 else 1 }

/-- An opened connection is polled and asks for the stream, in any order, whatever comes of it. -/
inductive Session (opened : Connection) : Conversation → Connection → Prop where
  | start : Session opened {} opened
  | poll {t : Conversation} {c c' : Connection} {entries : List Entry}
      {outcome : Except Failure ConnectionPoll} :
      Session opened t c → (poll.perform.run c).Runs entries (outcome, c') →
      Session opened (t.polled (happenings entries) outcome) c'
  | request {t : Conversation} {c c' : Connection} {r : RequestReplicationStream}
      {entries : List Entry} {outcome : Except Failure Unit} :
      Session opened t c → ((requestStream r).perform.run c).Runs entries (outcome, c') →
      Session opened (t.requested (happenings entries) c.state c'.state) c'

/-- The events of a connection that comes to its end: the description of its own table, and then the
start of the stream of this very table; and the front of these. -/
inductive InTurn (tableName : String) : List ConnectionEvent → Prop where
  | nothing : InTurn tableName []
  | described {info : TableInfo} : info.tableName = tableName → info.masterTableId ≠ 0 →
      InTurn tableName [.tableInfo info]
  | started {info : TableInfo} {start : StartOfReplicationStream} : info.tableName = tableName →
      info.masterTableId ≠ 0 → start.masterTableId = info.masterTableId →
      InTurn tableName [.tableInfo info, .streamStart start]

/-- The event that comes of a frame, if it is accepted after these events and after the stream was
asked for so often. -/
def welcome (tableName : String) (asked : Nat) (events : List ConnectionEvent) :
    Frame → Option ConnectionEvent
  | .tableInfo info =>
    if events = [] ∧ info.tableName = tableName ∧ info.masterTableId ≠ 0 then
      some (.tableInfo info)
    else none
  | .startOfReplicationStream start =>
    match events with
    | [.tableInfo info] =>
      if 0 < asked ∧ start.masterTableId = info.masterTableId then
        some (.streamStart start)
      else none
    | _ => none
  | .requestTableInfo _ | .requestReplicationStream _ => none

/-- The failure that comes of a frame that is not accepted: the first description of the table that
was asked for can only lack its id, and everything else breaks the protocol. -/
def Blames (tableName label : String) (events : List ConnectionEvent) (f : Frame)
    (failure : Failure) : Prop :=
  (failure = .tableMissingOnMaster tableName label ∧ events = [] ∧
    ∃ info, f = .tableInfo info ∧ info.tableName = tableName ∧ info.masterTableId = 0) ∨
  ((∃ text, failure = .protocol label text) ∧
    ¬(events = [] ∧ ∃ info, f = .tableInfo info ∧ info.tableName = tableName ∧
      info.masterTableId = 0))

/-- The state of a connection says what it has heard, and whether it has asked for the stream. -/
def Knows (c : Connection) (events : List ConnectionEvent) (asked : Nat) : Prop :=
  match c.state with
  | .connecting | .awaitingTableInfo => events = [] ∧ asked = 0 ∧ c.tableInfo = none
  | .ready => asked = 0 ∧ ∃ info, c.tableInfo = some info ∧ events = [.tableInfo info] ∧
      InTurn c.tableName [.tableInfo info]
  | .awaitingStreamStart =>
    asked = 1 ∧ ∃ info, c.tableInfo = some info ∧ events = [.tableInfo info] ∧
      InTurn c.tableName [.tableInfo info]
  | .streamStarted =>
    asked = 1 ∧ c.tableInfo.isSome ∧ ∃ info start, events = [.tableInfo info, .streamStart start] ∧
      InTurn c.tableName [.tableInfo info, .streamStart start]
  | .disconnected | .transferred | .closed => False

section Knows

variable {events : List ConnectionEvent} {asked : Nat} {event : ConnectionEvent} {failure : Failure}

theorem Knows.inTurn (h : c.Knows events asked) : InTurn c.tableName events ∧ asked ≤ 1 := by
  unfold Knows at h
  split at h
  · obtain ⟨rfl, rfl, -⟩ := h
    exact ⟨.nothing, Nat.zero_le 1⟩
  · obtain ⟨rfl, rfl, -⟩ := h
    exact ⟨.nothing, Nat.zero_le 1⟩
  · obtain ⟨rfl, info, -, rfl, hturn⟩ := h
    exact ⟨hturn, Nat.zero_le 1⟩
  · obtain ⟨rfl, info, -, rfl, hturn⟩ := h
    exact ⟨hturn, Nat.le_refl 1⟩
  · obtain ⟨rfl, -, info, start, rfl, hturn⟩ := h
    exact ⟨hturn, Nat.le_refl 1⟩
  all_goals exact h.elim

theorem Step.knows (hstep : Step c hs c') (h : c.Knows events asked) : c'.Knows events asked := by
  have hname : c'.tableName = c.tableName := hstep.same.2.2.2.1
  obtain ⟨hstate, htable, -⟩ := hstep.keeps
  unfold Knows at h ⊢
  rw [htable, hname]
  obtain hstate | ⟨hstate, hstate'⟩ := hstate
  · rwa [hstate]
  · rw [hstate] at h
    rw [hstate']
    exact h

theorem Knows.steps (h : c.Knows events asked) (hsteps : Way Step c hs c') :
    c'.Knows events asked := by
  induction hsteps with
  | refl => exact h
  | tail _ hstep ih => exact hstep.knows ih

/-- What is accepted is welcome. -/
theorem Accepts.welcome (haccepts : Accepts c f event c') (h : c.Knows events asked) :
    Connection.welcome c.tableName asked events f = some event ∧
      c'.Knows (events ++ [event]) asked := by
  cases haccepts with
  | tableInfo hnone hstate hname hid =>
    simp only [Knows, hstate] at h
    obtain ⟨rfl, rfl, -⟩ := h
    exact ⟨if_pos ⟨rfl, hname, hid⟩, rfl, _, rfl, rfl, .described hname hid⟩
  | @streamStart info start hstate htable hid =>
    simp only [Knows, hstate] at h
    obtain ⟨rfl, info', htable', rfl, hturn⟩ := h
    obtain rfl : info = info' := Option.some.inj (htable.symm.trans htable')
    cases hturn with
    | described hname hknown =>
      exact ⟨if_pos ⟨Nat.one_pos, hid.symm⟩, rfl, by simp [htable], info, start, rfl,
        .started hname hknown hid.symm⟩

theorem Knows.nothing_iff (h : c.Knows events asked) : events = [] ↔ c.tableInfo = none := by
  unfold Knows at h
  split at h
  · exact iff_of_true h.1 h.2.2
  · exact iff_of_true h.1 h.2.2
  · obtain ⟨-, info, htable, rfl, -⟩ := h
    simp [htable]
  · obtain ⟨-, info, htable, rfl, -⟩ := h
    simp [htable]
  · obtain ⟨-, hsome, info, start, rfl, -⟩ := h
    simp [Option.isSome_iff_ne_none.1 hsome]
  all_goals exact h.elim

theorem Knows.listens (h : c.Knows events asked) (hconnecting : c.state ≠ .connecting)
    (hstarted : c.state ≠ .streamStarted) :
    c.state = .awaitingTableInfo ∨ c.state = .ready ∨ c.state = .awaitingStreamStart := by
  cases hstate : c.state <;> simp_all [Knows]

/-- A connection that has asked and heard nothing awaits the description of its table. -/
theorem Knows.awaits (h : c.Knows events asked) (hopen : c.hasRequestedTableInfo)
    (hnone : c.tableInfo = none) :
    c.state = .awaitingTableInfo := by
  cases hstate : c.state <;> simp_all [Knows, hasRequestedTableInfo]

theorem Knows.unwelcome_start {start : StartOfReplicationStream} (h : c.Knows events asked)
    (hother : c.state = .awaitingStreamStart →
      c.tableInfo.map (·.masterTableId) ≠ some start.masterTableId) :
    welcome c.tableName asked events (.startOfReplicationStream start) = none := by
  unfold Knows at h
  split at h
  · rw [h.1]
    rfl
  · rw [h.1]
    rfl
  · obtain ⟨rfl, info, -, rfl, -⟩ := h
    simp [welcome]
  next hstate =>
    obtain ⟨rfl, info, htable, rfl, -⟩ := h
    have hother := hother hstate
    rw [htable, Option.map_some, ne_eq, Option.some.injEq] at hother
    exact if_neg fun hsame => hother hsame.2.symm
  · obtain ⟨-, -, info, _, rfl, -⟩ := h
    rfl
  all_goals exact h.elim

theorem Refuses.unwelcome (hrefuses : Refuses c f failure) (h : c.Knows events asked)
    (hopen : c.hasRequestedTableInfo) :
    welcome c.tableName asked events f = none ∧ Blames c.tableName c.label events f failure := by
  have hnothing : c.state = .awaitingTableInfo → events = [] := by
    intro hstate
    simp only [Knows, hstate] at h
    exact h.1
  cases hrefuses with
  | duplicate hsome =>
    have hheard : events ≠ [] :=
      fun hnone => Option.isSome_iff_ne_none.1 hsome (h.nothing_iff.1 hnone)
    exact ⟨if_neg fun hfirst => hheard hfirst.1, .inr ⟨⟨_, rfl⟩, fun hfirst => hheard hfirst.1⟩⟩
  | early hnone hstate => exact absurd (h.awaits hopen hnone) hstate
  | otherTable hstate hname =>
    obtain rfl := hnothing hstate
    refine ⟨if_neg fun hright => hname hright.2.1, .inr ⟨⟨_, rfl⟩, ?_⟩⟩
    rintro ⟨-, _, heq, hright, -⟩
    cases heq
    exact hname hright
  | missing hstate hname hid =>
    obtain rfl := hnothing hstate
    exact ⟨if_neg fun hright => hright.2.2 hid, .inl ⟨rfl, rfl, _, rfl, hname, hid⟩⟩
  | earlyStart hstate =>
    exact ⟨h.unwelcome_start fun hstate' => absurd hstate' hstate, .inr ⟨⟨_, rfl⟩, by simp⟩⟩
  | otherStart _ hother => exact ⟨h.unwelcome_start fun _ => hother, .inr ⟨⟨_, rfl⟩, by simp⟩⟩
  | unasked hkind =>
    cases f with
    | tableInfo | startOfReplicationStream => simp [Frame.kind] at hkind
    | requestTableInfo | requestReplicationStream => exact ⟨rfl, .inr ⟨⟨_, rfl⟩, by simp⟩⟩

end Knows

/-! ### Polls -/

/-- The connection waits for what it hears: for the description of its table, at the latest since it
has asked for it in this poll, or for the start of the stream. -/
def Awaited (c : Connection) (hs : List Happening) (c' : Connection) : ConnectionEvent → Prop
  | .tableInfo _ => (c.state = .awaitingTableInfo ∨
      c.state = .connecting ∧ .requestTableInfo c.request ∈ queuedFrames hs) ∧ c'.state = .ready
  | .streamStart _ => c.state = .awaitingStreamStart ∧ c'.state = .streamStarted

/-- What comes of a poll that takes out a frame: its event, if it is welcome, and
otherwise a failure. -/
def Settles (c : Connection) (t : Conversation) (hs : List Happening) (f : Frame)
    (c' : Connection) :
    Except Failure ConnectionPoll → Prop
  | .ok polled =>
    ∃ event, polled.event = some event ∧ welcome c.tableName t.asked t.events f = some event ∧
      Awaited c hs c' event
  | .error failure => welcome c.tableName t.asked t.events f = none ∧
      Blames c.tableName c.label t.events f failure

/-- What is known of a connection in a session. -/
structure Attends (opened c : Connection) (t : Conversation) (taken : List Frame) : Prop where
  same : Same opened c
  socket : c.socket.isSome
  knows : c.Knows t.events t.asked
  hasTaken : c.HasTaken opened.inbound.capacity t.happened taken

theorem socket_of_steps (hsteps : Way Step c hs c') : c'.socket = c.socket := by
  induction hsteps with
  | refl => rfl
  | tail _ hstep ih => exact hstep.traffic.1.2.1.trans ih

theorem Attends.steps {t : Conversation} (h : opened.Attends c t taken)
    (hsteps : Way Step c hs c') :
    opened.Attends c' { t with happened := t.happened ++ hs } taken where
  same := h.same.trans (same_of_steps hsteps)
  socket := socket_of_steps hsteps ▸ h.socket
  knows := h.knows.steps hsteps
  hasTaken := h.hasTaken.steps hsteps

theorem Step.asks (hstep : Step c hs c') : c'.state = c.state ∨
    c.state = .connecting ∧ c'.state = .awaitingTableInfo ∧
      .requestTableInfo c.request ∈ queuedFrames hs := by
  cases hstep with
  | write h => cases h <;> exact .inl rfl
  | ask _ hstate => exact .inr ⟨hstate, rfl, by simp [queuedFrames, Happening.queued?]⟩
  | wait | read | block => exact .inl rfl

theorem asks_of_steps (hsteps : Way Step c hs c') : c'.state = c.state ∨
    c.state = .connecting ∧ c'.state = .awaitingTableInfo ∧
      .requestTableInfo c.request ∈ queuedFrames hs := by
  induction hsteps with
  | refl => exact .inl rfl
  | @tail c₁ c₂ hs₁ hs₂ hsteps hstep ih =>
    obtain ⟨-, hid, hpeer, hname, -⟩ := same_of_steps hsteps
    have hrequest : c₁.request = c.request := by rw [request, request, hid, hpeer, hname]
    rw [queuedFrames_append, ← hrequest]
    rcases hstep.asks with hsame | ⟨hstate, hstate', hasked⟩
    · rw [hsame]
      exact ih.imp_right fun ⟨hstate, hstate', hasked⟩ =>
        ⟨hstate, hstate', List.mem_append_left _ (hrequest ▸ hasked)⟩
    · rcases ih with hsame | ⟨-, hother, -⟩
      · exact .inr ⟨hsame ▸ hstate, hstate', List.mem_append_right _ hasked⟩
      · rw [hother] at hstate
        cases hstate

theorem decodedKinds_of_steps (hsteps : Way Step c hs c') : decodedKinds hs = [] := by
  induction hsteps with
  | refl => rfl
  | tail _ hstep ih => rw [decodedKinds_append, ih, hstep.takesIn.2, List.append_nil]

/-- What comes of a poll in which this frame was heard. -/
def Judges (c : Connection) (f : Frame) (c' : Connection) : Except Failure ConnectionPoll → Prop
  | .ok polled => ∃ event, polled.event = some event ∧ Accepts c f event c'
  | .error failure => Refuses c f failure ∧ c' = c

/-- After its steps a poll comes to an end without a frame, or over bytes that are no frame, or
with a frame. -/
inductive Concludes (c : Connection) :
    List Happening → Except Failure ConnectionPoll → Connection → Prop where
  | quiet {hs : List Happening} {outcome : Except Failure ConnectionPoll} :
      deliveredBytes hs = [] → decodedKinds hs = [] → emitted outcome = [] →
        Concludes c hs outcome c
  | malformed {hs : List Happening} {outcome : Except Failure ConnectionPoll} {c' : Connection}
      {e : FrameError} {inbound : InboundBuffer} :
      c.inbound.nextFrame = (.error e, inbound) → Concludes c hs outcome c'
  | heard {hs : List Happening} {outcome : Except Failure ConnectionPoll} {c' : Connection}
      {f : Frame} {inbound : InboundBuffer} :
      deliveredBytes hs = [] → decodedKinds hs = [f.kind.name] → c.hasRequestedTableInfo →
      c.inbound.nextFrame = (.ok (some f), inbound) → Judges { c with inbound } f c' outcome →
      Concludes c hs outcome c'

theorem Heard.concludes {polled : ConnectionPoll} (h : Heard c hs polled.event c') :
    Concludes c hs (.ok polled) c' := by
  rcases hevent : polled.event with _ | event <;> rw [hevent] at h
  · obtain ⟨rfl, rfl⟩ := h
    exact .quiet rfl rfl (by simp [emitted, hevent])
  · cases h with
    | accept hopen hnext haccepts => exact .heard rfl rfl hopen hnext ⟨event, hevent, haccepts⟩

theorem Fault.concludes {failure : Failure} (h : Fault c hs failure c') :
    Concludes c hs (.error failure) c' := by
  cases h with
  | connect | ask | writeNothing | write | read | ended => exact .quiet rfl rfl rfl
  | frame _ hnext => exact .malformed hnext
  | refuse hopen hnext hrefuses => exact .heard rfl rfl hopen hnext ⟨hrefuses, rfl⟩

theorem poll_concludes (c : Connection) : Work.Always poll.perform c fun hs outcome c' =>
    ∃ c₁ hs₁ hs₂, hs = hs₁ ++ hs₂ ∧ Way Step c hs₁ c₁ ∧ Concludes c₁ hs₂ outcome c' := by
  refine Task.always_perform.2 ((poll_always c).mono ?_ ?_)
  · rintro _ _ _ ⟨c₁, hs₁, hs₂, rfl, hsteps, hheard⟩
    exact ⟨c₁, hs₁, hs₂, rfl, hsteps, hheard.concludes⟩
  · rintro _ _ _ ⟨c₁, hs₁, hs₂, rfl, hsteps, hfault⟩
    exact ⟨c₁, hs₁, hs₂, rfl, hsteps, hfault.concludes⟩

theorem Accepts.keeps {event : ConnectionEvent} (h : Accepts c f event c') :
    Same c c' ∧ c'.inbound = c.inbound ∧ c'.socket = c.socket := by
  cases h <;> exact ⟨.refl _, rfl, rfl⟩

theorem Accepts.awaited {c₁ : Connection} {inbound : InboundBuffer} {event : ConnectionEvent}
    (h : Accepts { c₁ with inbound } f event c') (hsteps : Way Step c past c₁)
    (hs : List Happening) :
    Awaited c (past ++ hs) c' event := by
  cases h with
  | tableInfo _ hstate =>
    refine ⟨?_, rfl⟩
    rcases asks_of_steps hsteps with hsame | ⟨hconnecting, -, hasked⟩
    · exact .inl (hsame.symm.trans hstate)
    · exact .inr ⟨hconnecting, by rw [queuedFrames_append]; exact List.mem_append_left _ hasked⟩
  | streamStart hstate =>
    refine ⟨?_, rfl⟩
    rcases asks_of_steps hsteps with hsame | ⟨-, hother, -⟩
    · exact hsame.symm.trans hstate
    · cases hother.symm.trans hstate

/-- A poll takes out no frame, or the next one of the stream, and the frame settles what
comes of the poll. -/
theorem Attends.poll {t : Conversation} {entries : List Entry}
    {outcome : Except Failure ConnectionPoll} (h : opened.Attends c t taken)
    (hruns : (poll.perform.run c).Runs entries (outcome, c'))
    (hstream : Frame.split opened.inbound.capacity stream = ⟨frames, [], none⟩)
    (hsent : deliveredBytes (t.happened ++ happenings entries) <+: stream) :
    (opened.Attends c' (t.polled (happenings entries) outcome) taken ∧
      decodedKinds (happenings entries) = [] ∧
      emitted outcome = []) ∨
    ∃ f, taken ++ [f] <+: frames ∧
      opened.Attends c' (t.polled (happenings entries) outcome) (taken ++ [f]) ∧
      decodedKinds (happenings entries) = [f.kind.name] ∧
        Settles c t (happenings entries) f c' outcome := by
  obtain ⟨c₁, hs₁, hs₂, hsplit, hsteps, hconcludes⟩ := poll_concludes c _ _ hruns
  rw [hsplit] at hsent ⊢
  obtain ⟨hstill, hsocket, hknows, htaken⟩ := h.steps hsteps
  have hsame := same_of_steps hsteps
  have hquiet := decodedKinds_of_steps hsteps
  have hfront : deliveredBytes (t.happened ++ hs₁) <+: stream := by
    rw [← List.append_assoc, deliveredBytes_append] at hsent
    exact (List.prefix_append ..).trans hsent
  cases hconcludes with
  | quiet hbytes hkinds hnone =>
    refine .inl ⟨⟨hstill, hsocket, ?_, ?_⟩, by rw [decodedKinds_append, hquiet, hkinds]; rfl, hnone⟩
    · rw [Conversation.polled, hnone, List.append_nil]
      exact hknows
    · rw [Conversation.polled, ← List.append_assoc]
      exact htaken.quiet hbytes hkinds rfl
  | malformed hnext => exact absurd hnext (htaken.ne_error hstream hfront)
  | @heard _ f inbound hbytes hkinds hopen hnext hjudges =>
    have hdecoded : decodedKinds (hs₁ ++ hs₂) = [f.kind.name] := by
      rw [decodedKinds_append, hquiet, hkinds]
      rfl
    have htakes := fun hinbound : c'.inbound = inbound =>
      htaken.take hstream hfront hnext hbytes hkinds hinbound
    rw [List.append_assoc] at htakes
    rcases outcome with failure | polled
    case error =>
      obtain ⟨hrefuses, rfl⟩ := hjudges
      obtain ⟨hnextFrame, htaken'⟩ := htakes rfl
      have hunwelcome := hrefuses.unwelcome hknows hopen
      refine .inr ⟨f, hnextFrame, ⟨hstill, hsocket, ?_, htaken'⟩, hdecoded, ?_⟩
      · rw [Conversation.polled, emitted, List.append_nil]
        exact hknows
      · rw [Settles, ← hsame.label_eq, ← hsame.2.2.2.1]
        exact hunwelcome
    case ok =>
      obtain ⟨event, hevent, haccepts⟩ := hjudges
      obtain ⟨hsame', hinbound, hsocket'⟩ := haccepts.keeps
      obtain ⟨hnextFrame, htaken'⟩ := htakes hinbound
      obtain ⟨hwelcome, hknows'⟩ := haccepts.welcome hknows
      refine .inr ⟨f, hnextFrame, ⟨hstill.trans hsame', hsocket' ▸ hsocket, ?_, htaken'⟩, hdecoded,
        event, hevent, ?_, haccepts.awaited hsteps hs₂⟩
      · rw [Conversation.polled, emitted, hevent]
        exact hknows'
      · rw [← hsame.2.2.2.1]
        exact hwelcome

/-! ### Asking for the stream -/

/-- What comes of asking for the stream: a connection that is ready comes to wait for its start,
unless the request cannot be queued, and any other connection refuses and stays as it is. -/
def Requested (c : Connection) (outcome : Except Failure Unit) (c' : Connection) : Prop :=
  if c.state = .ready then c'.state = .awaitingStreamStart ∨
    c' = c ∧ ∃ failure, outcome = .error failure
  else outcome = .error (c.violation s!"cannot request the stream in state {c.state.name}") ∧ c' = c

theorem requestStream_unready {r : RequestReplicationStream} (hstate : c.state ≠ .ready) :
    Task.Always (requestStream r) c (fun _ _ _ => False) fun hs failure c' =>
      hs = [] ∧ failure = c.violation s!"cannot request the stream in state {c.state.name}" ∧
        c' = c := by
  simp [requestStream, hstate]

/-- A failure to read or to write is no frame that was heard. -/
theorem Fault.io {label : String} {e : SystemError} (h : Fault c hs (.io label e) c') :
    deliveredBytes hs = [] ∧ decodedKinds hs = [] ∧ c' = c := by
  generalize hio : Failure.io label e = failure at h
  cases h with
  | connect | ask | ended | frame => cases hio
  | writeNothing | write | read => exact ⟨rfl, rfl, rfl⟩
  | refuse _ _ hrefuses => cases hrefuses <;> cases hio

/-- A connection that was ready has queued its request, and may have written some of it. -/
theorem Attends.asks {t : Conversation} {r : RequestReplicationStream} {outbound : OutboundBuffer}
    {rest : List Happening}
    (h : opened.Attends c t taken) (hstate : c.state = .ready)
    (hwrites : Way Write { c with outbound, state := .awaitingStreamStart } rest c') :
    c'.state = .awaitingStreamStart ∧
      opened.Attends c' (t.requested (.noted (.queued c.socketId (.requestReplicationStream r)) ::
        .reported (.frameSent FrameKind.requestReplicationStream.name) :: rest) c.state c'.state)
          taken := by
  have hstate' : c'.state = .awaitingStreamStart := (keeps_of_writes hwrites).1
  obtain ⟨hsame, hsocket, hknows, htaken⟩ := h
  simp only [Knows, hstate] at hknows
  have hasked : opened.Attends { c with outbound, state := .awaitingStreamStart }
      { t with
        happened := t.happened ++ [.noted (.queued c.socketId (.requestReplicationStream r)),
          .reported (.frameSent FrameKind.requestReplicationStream.name)]
        asked := t.asked + 1 } taken :=
    ⟨hsame, hsocket, ⟨by rw [hknows.1], hknows.2⟩, htaken.quiet rfl rfl rfl⟩
  have hafter := hasked.steps (hwrites.mono fun _ _ _ => .write)
  refine ⟨hstate', ?_⟩
  rw [Conversation.requested, hstate, hstate']
  simpa using hafter

theorem Attends.request {t : Conversation} {r : RequestReplicationStream} {entries : List Entry}
    {outcome : Except Failure Unit} (h : opened.Attends c t taken)
    (hruns : ((requestStream r).perform.run c).Runs entries (outcome, c')) :
    opened.Attends c' (t.requested (happenings entries) c.state c'.state) taken ∧
      Requested c outcome c' := by
  have hstays : ∀ {hs}, hs = [] → c' = c →
      opened.Attends c' (t.requested hs c.state c'.state) taken := by
    rintro _ rfl rfl
    simpa [Conversation.requested] using h
  by_cases hstate : c.state = .ready
  · rw [Requested, if_pos hstate]
    have hperform : Work.Always (requestStream r).perform c fun hs outcome c' =>
        match outcome with
        | .ok _ => Request r c hs c'
        | .error failure =>
          RequestFault r c hs failure c' := Task.always_perform.2 (requestStream_always hstate)
    have hrequest := hperform _ _ hruns
    generalize happenings entries = hs at hrequest ⊢
    rcases outcome with failure | done
    case error =>
      have hfault : RequestFault r c hs failure c' := hrequest
      cases hfault with
      | queue => exact ⟨hstays rfl rfl, .inr ⟨rfl, _, rfl⟩⟩
      | write _ _ hends =>
        obtain ⟨c₁, hs₁, hs₂, rfl, hwrites, hfault, e, rfl⟩ := hends
        obtain ⟨hbytes, hkinds, rfl⟩ := hfault.io
        obtain ⟨hstate', hsame, hsocket, hknows, htaken⟩ := h.asks (r := r) hstate hwrites
        refine ⟨⟨hsame, hsocket, hknows, ?_⟩, .inl hstate'⟩
        have hquiet := htaken.quiet hbytes hkinds rfl
        rw [Conversation.requested, List.append_assoc] at hquiet
        exact hquiet
    case ok =>
      have hasks : Request r c hs c' := hrequest
      cases hasks with
      | ask _ _ hwrites =>
        obtain ⟨hstate', hattends⟩ := h.asks hstate hwrites
        exact ⟨hattends, .inl hstate'⟩
  · rw [Requested, if_neg hstate]
    have hperform : Work.Always (requestStream r).perform c fun hs outcome c' => hs = [] ∧
        outcome = .error (c.violation s!"cannot request the stream in state {c.state.name}") ∧
          c' = c := by
      refine Task.always_perform.2
        ((requestStream_unready hstate).mono (fun _ _ _ => False.elim) ?_)
      rintro _ _ _ ⟨rfl, rfl, rfl⟩
      exact ⟨rfl, rfl, rfl⟩
    obtain ⟨hnothing, houtcome, hsame⟩ := hperform _ _ hruns
    exact ⟨hstays hnothing hsame, houtcome, hsame⟩

/-! ### Whole sessions -/

theorem attends_opened {instanceId : InstanceId} {peer : PeerId} {tableName : String}
    {endpoint : Endpoint} {entries : List Entry}
    (hopened : (connect.perform.run (new instanceId peer tableName limit endpoint)).Runs entries
      (.ok (), opened)) :
    opened.Attends opened {} [] ∧ opened.tableName = tableName ∧ opened.endpoint = endpoint ∧
      opened.inbound.capacity = limit := by
  have hperform : Work.Always connect.perform (new instanceId peer tableName limit endpoint)
      fun _ outcome c' =>
      outcome = .ok () → c'.Attends c' {} [] ∧ c'.tableName = tableName ∧ c'.endpoint = endpoint ∧
        c'.inbound.capacity = limit := by
    refine Task.always_perform.2 ((connect_always rfl).mono ?_ ?_)
    · rintro _ _ _ ⟨socket, -, rfl⟩ -
      exact ⟨⟨.refl _, rfl, ⟨rfl, rfl, rfl⟩, rfl, rfl, [], Frame.split_nil limit, rfl⟩,
        rfl, rfl, rfl⟩
    · rintro _ _ _ - ⟨⟩
  exact hperform _ _ hopened rfl

/-- Whatever is done with an opened connection, it takes the frames of its master one by one. -/
theorem Session.attends {t : Conversation} (h : Session opened t c)
    (hopened : opened.Attends opened {} [])
    (hstream : Frame.split opened.inbound.capacity stream = ⟨frames, [], none⟩)
    (hsent : deliveredBytes t.happened <+: stream) :
    ∃ taken, taken <+: frames ∧ opened.Attends c t taken := by
  have hearlier : ∀ {t : Conversation} {hs : List Happening},
      deliveredBytes (t.happened ++ hs) <+: stream →
      deliveredBytes t.happened <+: stream := by
    intro t hs hsent
    rw [deliveredBytes_append] at hsent
    exact (List.prefix_append ..).trans hsent
  induction h with
  | start => exact ⟨[], List.nil_prefix, hopened⟩
  | poll _ hruns ih =>
    obtain ⟨taken, htaken, hattends⟩ := ih (hearlier hsent)
    obtain ⟨hattends', -⟩ | ⟨f, hnext, hattends', -⟩ := hattends.poll hruns hstream hsent
    · exact ⟨taken, htaken, hattends'⟩
    · exact ⟨taken ++ [f], hnext, hattends'⟩
  | request _ hruns ih =>
    obtain ⟨taken, htaken, hattends⟩ := ih (hearlier hsent)
    exact ⟨taken, htaken, (hattends.request hruns).1⟩

/-- For every connection that was opened, whatever frames its master sends in whatever pieces, and
whenever the connection is polled and asks for the stream: its events are a front of the description
of its table and the start of this very stream, and by asking for the stream its state has changed
once at most.  Each poll takes out no frame, and then gives no event, or the next one that was sent.
This frame is accepted, in the state that waits for it, if it is welcome after what was heard and
asked, and otherwise the poll fails: the table is missing if the frame is the first description, of
the right name and without an id, and in any other case the protocol is broken.  A poll that
succeeds and takes out no frame leaves none that was delivered as a whole, as long as the connection
listens.  Asking for the stream changes only the state of a connection that is ready. -/
theorem Session.accepts_in_turn {instanceId : InstanceId} {peer : PeerId} {tableName : String}
    {frameBuffer : Nat} {endpoint : Endpoint} {opening : List Entry} {t : Conversation}
    (hopened : (connect.perform.run (new instanceId peer tableName frameBuffer endpoint)).Runs
      opening (.ok (), opened))
    (hsession : Session opened t c) (hstream : Frame.split frameBuffer stream = ⟨frames, [], none⟩)
    (hsent : deliveredBytes t.happened <+: stream) :
    c.tableName = tableName ∧ c.endpoint = endpoint ∧ InTurn tableName t.events ∧ t.asked ≤ 1 ∧
    (∀ {entries outcome c'}, (Connection.poll.perform.run c).Runs entries (outcome, c') →
      deliveredBytes (t.happened ++ happenings entries) <+: stream →
      (decodedKinds (happenings entries) = [] ∧ emitted outcome = [] ∧
        ((∃ polled, outcome = .ok polled) → c'.state ≠ .connecting → c'.state ≠ .streamStarted →
          (Frame.split frameBuffer
            (deliveredBytes (t.happened ++ happenings entries))).frames.length =
            (decodedKinds t.happened).length)) ∨
      ∃ f, frames[(decodedKinds t.happened).length]? = some f ∧
        decodedKinds (happenings entries) = [f.kind.name] ∧
        Settles c t (happenings entries) f c' outcome) ∧
    ∀ {r entries outcome c'}, ((requestStream r).perform.run c).Runs entries (outcome, c') →
      Requested c outcome c' := by
  obtain ⟨hattended, rfl, rfl, rfl⟩ := attends_opened hopened
  obtain ⟨taken, -, hattends⟩ := hsession.attends hattended hstream hsent
  obtain ⟨hturn, hasked⟩ := hattends.knows.inTurn
  obtain ⟨hendpoint, -, -, hname, -⟩ := hattends.same
  rw [hname] at hturn
  have hcount : (decodedKinds t.happened).length = taken.length := by
    rw [hattends.hasTaken.kinds, List.length_map]
  refine ⟨hname, hendpoint, hturn, hasked, fun {entries outcome c'} hruns hsent' => ?_,
    fun hruns => (hattends.request hruns).2⟩
  rw [hcount]
  obtain ⟨hattends', hkinds, hnone⟩ | ⟨f, hnext, -, hkinds, hsettles⟩ :=
    hattends.poll hruns hstream hsent'
  · refine .inl ⟨hkinds, hnone, ?_⟩
    rintro ⟨polled, rfl⟩ hconnecting hstarted
    have hperform : Work.Always Connection.poll.perform c fun _ outcome c' =>
        match outcome with
        | .ok polled => polled.event = none → c'.IsSpent
        | .error _ => True := Task.always_perform.2 (poll_isSpent c)
    have hevent : polled.event = none := by simpa [emitted] using hnone
    have hspent :=
      hperform _ _ hruns hevent hattends'.socket (hattends'.knows.listens hconnecting hstarted)
    exact congrArg List.length (hattends'.hasTaken.all hstream hsent' hspent)
  · obtain ⟨rest, rfl⟩ := hnext
    exact .inr ⟨f, by simp, hkinds, hsettles⟩

section Rehearsal

open Rehearsal

/-- A description of the table `t`. -/
def plainInfo : TableInfo := ⟨7, 0, 3, "t"⟩

/-- A master describes its table twice, in pieces of twenty bytes. -/
def twiceWorld : World where
  network := { masters := [(1,
    { inbound :=
      [.segment (Frame.bytes (.tableInfo plainInfo) ++ Frame.bytes (.tableInfo plainInfo))]
      readLimit := some 20 })] }

/-- Work on a connection, done in a world. -/
def inWorld {α : Type} (work : Work Connection α) (c : Connection) (w : World) :
    (α × Connection) × World × List Entry :=
  (work.run c).perform world w

/-- The connection is opened. -/
def twiceOpened : (Except Failure Unit × Connection) × World × List Entry :=
  inWorld connect.perform (new 0 .first "t" 1024 ⟨"127.0.0.1", 1⟩) twiceWorld

/-- It is polled twice, and then the stream is asked for. -/
def twicePolled : (Except Failure ConnectionPoll × Connection) × World × List Entry :=
  inWorld poll.perform twiceOpened.1.2 twiceOpened.2.1

def twicePolledAgain : (Except Failure ConnectionPoll × Connection) × World × List Entry :=
  inWorld poll.perform twicePolled.1.2 twicePolled.2.1

def twiceAsked : (Except Failure Unit × Connection) × World × List Entry :=
  inWorld (requestStream ⟨7, 3, 0⟩).perform twicePolledAgain.1.2 twicePolledAgain.2.1

/-- The poll after that. -/
def twiceHeard : (Except Failure ConnectionPoll × Connection) × World × List Entry :=
  inWorld poll.perform twiceAsked.1.2 twiceAsked.2.1

/-- What has come of the session until then. -/
def twiceSaid : Conversation :=
  ((({} : Conversation).polled (happenings twicePolled.2.2) twicePolled.1.1).polled
    (happenings twicePolledAgain.2.2)
    twicePolledAgain.1.1).requested (happenings twiceAsked.2.2) twicePolledAgain.1.2.state
      twiceAsked.1.2.state

theorem twice_session : Session twiceOpened.1.2 twiceSaid twiceAsked.1.2 :=
  .request (.poll (.poll .start (Dialogue.perform_runs ..)) (Dialogue.perform_runs ..))
    (Dialogue.perform_runs ..)

/-- The first description is accepted, and when the stream has been asked for, the second one breaks
the protocol. -/
theorem twice_rehearsed :
    Session twiceOpened.1.2 twiceSaid twiceAsked.1.2 ∧ twiceSaid.events = [.tableInfo plainInfo] ∧
      twiceSaid.asked = 1 ∧ ∃ failure, twiceHeard.1.1 = .error failure ∧
        Blames "t" "127.0.0.1:1" [.tableInfo plainInfo] (.tableInfo plainInfo) failure := by
  have hopened : (connect.perform.run (new 0 .first "t" 1024 ⟨"127.0.0.1", 1⟩)).Runs twiceOpened.2.2
      (.ok (), twiceOpened.1.2) := Dialogue.perform_runs ..
  have hstream :
      Frame.split 1024 ([Frame.tableInfo plainInfo, .tableInfo plainInfo].flatMap Frame.bytes) =
      ⟨[.tableInfo plainInfo, .tableInfo plainInfo], [], none⟩ :=
        Frame.split_bytes (by decide +kernel)
  have hevents : twiceSaid.events = [.tableInfo plainInfo] := by decide +kernel
  have hasked : twiceSaid.asked = 1 := by decide +kernel
  obtain ⟨-, -, -, -, hpoll, -⟩ := twice_session.accepts_in_turn hopened hstream (by decide +kernel)
  have hheard : (poll.perform.run twiceAsked.1.2).Runs twiceHeard.2.2
      (twiceHeard.1.1, twiceHeard.1.2) :=
    Dialogue.perform_runs ..
  obtain ⟨hnone, -⟩ | ⟨f, hnext, -, hsettles⟩ := hpoll hheard (by decide +kernel)
  · exact absurd hnone (by decide +kernel)
  · have hone : (decodedKinds twiceSaid.happened).length = 1 := by decide +kernel
    rw [hone] at hnext
    cases hnext
    have hplace : twiceAsked.1.2.tableName = "t" ∧ twiceAsked.1.2.label = "127.0.0.1:1" := by
      decide +kernel
    refine ⟨twice_session, hevents, hasked, ?_⟩
    generalize twiceHeard.1.1 = outcome at hsettles ⊢
    rcases outcome with failure | polled
    · rw [Settles, hevents, hplace.1, hplace.2] at hsettles
      exact ⟨failure, rfl, hsettles.2⟩
    · rw [Settles, hevents] at hsettles
      obtain ⟨event, -, hwelcome, -⟩ := hsettles
      cases hwelcome

end Rehearsal

end Connection

end ReplicaHandshake
