import ReplicaHandshake.Proofs.Connection.Steps

/-!
# The work of a connection

Every piece of work that a connection does is made of the steps of `Connection.Step`,
`Connection.Hear` and `Connection.Fault`: flushing (`flush_always`), taking a frame
(`takeFrame_always`) and a whole poll (`poll_always`).  A poll that succeeds leaves no answer of the
master in the inbound buffer that the connection waits for (`poll_isHeard`).
-/

namespace ReplicaHandshake

theorem InboundBuffer.nextFrame_none {b b' : InboundBuffer} (h : b.nextFrame = (.ok none, b')) :
    b' = b := by
  unfold InboundBuffer.nextFrame at h
  split at h
  · simp at h
  · simpa using h.symm
  split at h
  · simp at h
  split at h
  · simpa using h.symm
  next declared _ _ _ =>
    cases hd : Frame.decode (b.buffered.take declared) <;> simp [hd, Except.map] at h

namespace Connection

/-! ### Writing -/

/-- The connection with other bytes to be written. -/
def withPending (c : Connection) (pending : Bytes) : Connection :=
  { c with outbound := { c.outbound with pending } }

/-- Writing, and then a failure to write, which ends the connection. -/
def WriteEnds (c : Connection) (hs : List Happening) (f : Failure) (c' : Connection) : Prop :=
  ∃ c₁ hs₁ hs₂, hs = hs₁ ++ hs₂ ∧ Way Write c hs₁ c₁ ∧ Fault c₁ hs₂ f c' ∧ ∃ e, f = .io c.label e

theorem WriteEnds.ends {c c' : Connection} {hs : List Happening} {f : Failure}
    (h : WriteEnds c hs f c') : Ends c hs f c' := by
  obtain ⟨c₁, hs₁, hs₂, rfl, hway, hfault, -⟩ := h
  exact ⟨c₁, hs₁, hs₂, rfl, hway.mono fun _ _ _ => .write, hfault⟩

theorem drain_always {c : Connection} {socket : SocketId} (hsocket : c.socket = some socket)
    (hopen : c.hasRequestedTableInfo) :
    (OutboundBuffer.drain (Dialogue.write socket) c.outbound.pending).Always fun hs r =>
      match r.1 with
      | .ok _ => Way Write c hs (c.withPending r.2)
      | .error e => ∃ hs₁ hs₂, hs = hs₁ ++ hs₂ ∧ Way Write c hs₁ (c.withPending r.2) ∧
          Fault (c.withPending r.2) hs₂ (.io c.label e) (c.withPending r.2) := by
  induction hn : c.outbound.pending.length using Nat.strongRecOn generalizing c with
  | ind n ih =>
    unfold OutboundBuffer.drain
    split
    next hp =>
      have hc : c.withPending [] = c := by simp [withPending, ← hp]
      simp [hc, Way.refl]
    next hp =>
      rw [Dialogue.always_bind]
      refine Dialogue.always_call.2 fun answer => ?_
      cases hr : answer.result with
      | error e =>
        have hc : c.withPending c.outbound.pending = c := rfl
        by_cases he : e.kind = .wouldBlock
        · simp only [he, if_true, Dialogue.pure_eq, Dialogue.always_done]
          exact .single (.none hsocket hopen hr he)
        · simp only [he, if_false, Dialogue.pure_eq, Dialogue.always_done]
          exact ⟨[], _, rfl, .refl _, .write hsocket hopen hr he⟩
      | ok k =>
        obtain ⟨k, hk⟩ := k
        cases k with
        | zero => exact Dialogue.always_done.2 ⟨[], _, rfl, .refl _, .writeNothing hsocket hopen hr⟩
        | succ k =>
          have hlt : (c.outbound.pending.drop (k + 1)).length < n := by
            rw [List.length_drop]
            omega
          have hfirst := Write.some hsocket hopen hr
          refine (ih _ hlt (c := c.withPending (c.outbound.pending.drop (k + 1)))
            hsocket hopen rfl).mono ?_
          intro hs r hrest
          split at hrest
          · exact hrest.head hfirst
          · obtain ⟨hs₁, hs₂, rfl, hway, hfault⟩ := hrest
            exact ⟨_, hs₂, (List.append_assoc ..).symm, hway.head hfirst, hfault⟩

theorem flush_always {c : Connection} (hopen : c.hasRequestedTableInfo) :
    Task.Always flush c (fun hs _ c' => Way Write c hs c') (WriteEnds c) := by
  simp only [flush, Task.always_bind, Task.always_get, List.nil_append]
  split
  · simp [Way.refl]
  split
  · simp [Way.refl]
  next socket hsocket =>
    simp only [Dialogue.flush, OutboundBuffer.flush, Task.always_bind, Task.always_lift,
      Dialogue.always_bind, Dialogue.pure_eq, Dialogue.always_done, List.append_nil]
    refine (drain_always hsocket hopen).mono ?_
    rintro hs ⟨result, pending⟩ hr
    rw [Task.always_set]
    cases result with
    | ok done =>
      refine Task.always_pure.2 ?_
      simp only [List.append_nil]
      exact hr
    | error e =>
      refine Task.always_throw.2 ?_
      simp only [List.append_nil]
      obtain ⟨hs₁, hs₂, rfl, hway, hfault⟩ := hr
      exact ⟨_, hs₁, hs₂, rfl, hway, hfault, e, rfl⟩

/-! ### Hearing -/

theorem onTableInfo_always {c : Connection} {info : TableInfo} :
    Task.Always (onTableInfo info) c
      (fun hs event c' => hs = [.noted (.accepted c.socketId (.tableInfo info))] ∧
        Accepts c (.tableInfo info) event c')
      (fun hs f c' => hs = [] ∧ c' = c ∧ Refuses c (.tableInfo info) f) := by
  by_cases hdup : c.tableInfo.isSome
  · simpa [onTableInfo, hdup] using Refuses.duplicate hdup
  have hnone : c.tableInfo = none := by simpa using hdup
  by_cases hstate : c.state = .awaitingTableInfo
  case neg => simpa [onTableInfo, hdup, hstate] using Refuses.early hnone hstate
  by_cases hname : info.tableName = c.tableName
  case neg => simpa [onTableInfo, hdup, hstate, hname] using Refuses.otherTable hstate hname
  by_cases hid : info.masterTableId = 0
  · simpa [onTableInfo, hdup, hstate, hname, hid] using Refuses.missing hstate hname hid
  · simpa [onTableInfo, hdup, hstate, hname, hid, note] using
      Accepts.tableInfo hnone hstate hname hid

theorem onStreamStart_always {c : Connection} {start : StartOfReplicationStream} :
    Task.Always (onStreamStart start) c
      (fun hs event c' => hs = [.noted (.accepted c.socketId (.startOfReplicationStream start))] ∧
        Accepts c (.startOfReplicationStream start) event c')
      (fun hs f c' => hs = [] ∧ c' = c ∧ Refuses c (.startOfReplicationStream start) f) := by
  by_cases hstate : c.state = .awaitingStreamStart
  case neg => simpa [onStreamStart, hstate] using Refuses.earlyStart hstate
  by_cases hid : c.tableInfo.map (·.masterTableId) = some start.masterTableId
  case neg =>
    simp only [onStreamStart, hstate, hid, Task.always_bind, Task.always_get, ne_eq,
      not_true_eq_false, not_false_eq_true, if_false, if_true, Task.always_throw]
    exact ⟨rfl, trivial, .otherStart hstate hid⟩
  obtain ⟨info, htable, hsame⟩ := Option.map_eq_some_iff.1 hid
  have haccept := Accepts.streamStart hstate htable hsame
  simpa only [onStreamStart, hstate, hid, Task.always_bind, Task.always_get, ne_eq,
    not_true_eq_false, if_false, note, Task.always_lift, Dialogue.always_note, Task.always_set,
    Task.always_pure,
    List.nil_append, List.append_nil, true_and] using haccept

theorem onFrame_always {c : Connection} {f : Frame} :
    Task.Always (onFrame f) c
      (fun hs event c' => hs = [.noted (.accepted c.socketId f)] ∧ Accepts c f event c')
      (fun hs e c' => hs = [] ∧ c' = c ∧ Refuses c f e) := by
  cases f with
  | tableInfo info => exact onTableInfo_always
  | startOfReplicationStream start => exact onStreamStart_always
  | requestTableInfo request => simpa [onFrame] using Refuses.unasked (.inl rfl)
  | requestReplicationStream request => simpa [onFrame] using Refuses.unasked (.inr rfl)

/-- What has come of the search for a frame: nothing, or an event. -/
def Heard (c : Connection) (hs : List Happening) (event : Option ConnectionEvent)
    (c' : Connection) : Prop :=
  match event with
  | none => hs = [] ∧ c' = c
  | some event => Hear c hs event c'

theorem takeFrame_always {c : Connection} {busy : Bool} (hopen : c.hasRequestedTableInfo) :
    Task.Always (takeFrame busy) c (fun hs r c' => Heard c hs r.event c') (Fault c) := by
  simp only [takeFrame, Task.always_bind, Task.always_get, Task.always_set, List.nil_append]
  rcases hn : c.inbound.nextFrame with ⟨frame, inbound⟩
  cases frame with
  | error e => exact Task.always_throw.2 (.frame hopen hn)
  | ok f =>
    cases f with
    | none =>
      rw [InboundBuffer.nextFrame_none hn]
      exact Task.always_pure.2 ⟨rfl, rfl⟩
    | some f =>
      simp only [Task.always_bind, Task.always_lift, report, Dialogue.always_metric]
      refine onFrame_always.mono ?_ ?_
      · rintro hs event c' ⟨rfl, haccept⟩
        exact Task.always_pure.2 (.accept hopen hn haccept)
      · rintro hs e c' ⟨rfl, rfl, hrefuse⟩
        exact .refuse hopen hn hrefuse

/-! ### Polling -/

/-- Steps, and then what has come of the search for a frame. -/
def Polled (c : Connection) (hs : List Happening) (event : Option ConnectionEvent)
    (c' : Connection) : Prop :=
  ∃ c₁ hs₁ hs₂, hs = hs₁ ++ hs₂ ∧ Way Step c hs₁ c₁ ∧ Heard c₁ hs₂ event c'

theorem Polled.prepend {c c₁ c' : Connection} {hs hs' : List Happening}
    {event : Option ConnectionEvent} (h : Way Step c hs c₁) (h' : Polled c₁ hs' event c') :
    Polled c (hs ++ hs') event c' := by
  obtain ⟨c₂, hs₁, hs₂, rfl, hway, hheard⟩ := h'
  exact ⟨c₂, hs ++ hs₁, hs₂, by rw [List.append_assoc], h.trans hway, hheard⟩

theorem Write.hasRequestedTableInfo {c c' : Connection} {hs : List Happening}
    (h : Write c hs c') : c'.hasRequestedTableInfo := by
  cases h <;> assumption

theorem hasRequestedTableInfo_of_writes {c c' : Connection} {hs : List Happening}
    (hopen : c.hasRequestedTableInfo) (h : Way Write c hs c') : c'.hasRequestedTableInfo := by
  cases h with
  | refl => exact hopen
  | tail _ hlast => exact hlast.hasRequestedTableInfo

theorem takeFrame_polled {c c' : Connection} {hs : List Happening} {busy : Bool}
    (h : Way Step c hs c') (hopen : c'.hasRequestedTableInfo) :
    Task.Always (takeFrame busy) c'
      (fun hs' r c'' => Polled c (hs ++ hs') r.event c'') (fun hs' => Ends c (hs ++ hs')) :=
  (takeFrame_always hopen).mono
    (fun hs' _ _ hheard => ⟨c', hs, hs', rfl, h, hheard⟩)
    (fun hs' _ _ hfault => ⟨c', hs, hs', rfl, h, hfault⟩)

/-- To poll a connected connection is to write and to read, and then to take a frame. -/
theorem pollIo_of_takeFrame {c : Connection}
    {ok : List Happening → ConnectionPoll → Connection → Prop}
    {error : List Happening → Failure → Connection → Prop} (hopen : c.hasRequestedTableInfo)
    (hends : ∀ hs f c', Ends c hs f c' → error hs f c')
    (hnone : ∀ hs c₁, Way Step c hs c₁ → c₁.socket = none → ok hs {} c₁)
    (htake : ∀ hs c₁ busy, Way Step c hs c₁ → c₁.hasRequestedTableInfo →
      Task.Always (takeFrame busy) c₁ (fun hs' => ok (hs ++ hs')) (fun hs' => error (hs ++ hs'))) :
    Task.Always pollIo c ok error := by
  simp only [pollIo, Task.always_bind, Task.always_get]
  refine (flush_always hopen).mono ?_ fun _ _ _ h => hends _ _ _ h.ends
  intro hs wrote c₁ hwrites
  have hopen₁ := hasRequestedTableInfo_of_writes hopen hwrites
  have hway : Way Step c hs c₁ := hwrites.mono fun _ _ _ => .write
  simp only [List.nil_append]
  split
  next hsocket => simpa using hnone hs c₁ hway hsocket
  next socket hsocket =>
    simp only [Task.always_bind, Task.always_lift, Dialogue.fill, InboundBuffer.fill]
    split
    · simpa using htake hs c₁ wrote hway hopen₁
    simp only [Dialogue.read, Dialogue.call, Dialogue.ask_bind, Dialogue.done_bind,
      Dialogue.pure_eq, Dialogue.always_ask, Dialogue.always_done]
    intro answer
    cases answer with
    | error e =>
      by_cases he : e.isTransient
      · simpa [InboundBuffer.receive, he, Except.map] using
          htake _ c₁ wrote (hway.tail (.block hsocket hopen₁ he)) hopen₁
      · have hread : Ends c _ _ _ :=
          ⟨c₁, hs, _, rfl, hway, .read hsocket hopen₁ (by simpa using he)⟩
        simpa [InboundBuffer.receive, he, Except.map] using hends _ _ _ hread
    | ok bs =>
      by_cases hbs : bs.1 = []
      · obtain ⟨_, hroom⟩ := bs
        subst hbs
        have hended : Ends c _ _ _ :=
          ⟨c₁, hs, _, rfl, hway, .ended (h := hroom) hsocket hopen₁⟩
        simpa [InboundBuffer.receive, Except.map, Reading.ofBytes, report] using hends _ _ _ hended
      · simpa [InboundBuffer.receive, Except.map, Reading.ofBytes, hbs] using
          htake _ _ true (hway.tail (.read hsocket hopen₁ hbs)) hopen₁

theorem pollIo_always {c : Connection} (hopen : c.hasRequestedTableInfo) :
    Task.Always pollIo c (fun hs r c' => Polled c hs r.event c') (Ends c) := by
  refine pollIo_of_takeFrame hopen (fun _ _ _ h => h) ?_ fun _ _ _ => takeFrame_polled
  intro hs c₁ hway _
  exact ⟨c₁, hs, [], (List.append_nil hs).symm, hway, rfl, rfl⟩

theorem queueFrame_always {c : Connection} {f : Frame} :
    Task.Always (queueFrame f) c
      (fun hs _ c' => ∃ outbound, c.outbound.queue f = .ok outbound ∧
        hs = [.noted (.queued c.socketId f), .reported (.frameSent f.kind.name)] ∧
        c' = { c with outbound })
      (fun hs e c' => ∃ error, c.outbound.queue f = .error error ∧ hs = [] ∧
        e = .frame c.label error ∧ c' = c) := by
  simp only [queueFrame, Task.always_bind, Task.always_get]
  split
  next error hqueue => exact Task.always_throw.2 ⟨error, hqueue, rfl, rfl, rfl⟩
  next outbound hqueue => simpa [note, report] using hqueue

theorem pollConnecting_always {c : Connection} (hstate : c.state = .connecting) :
    Task.Always pollConnecting c (fun hs r c' => Polled c hs r.event c') (Ends c) := by
  simp only [pollConnecting, Task.always_bind, Task.always_get, List.nil_append]
  split
  · exact Task.always_pure.2 ⟨c, [], [], rfl, .refl c, rfl, rfl⟩
  next socket hsocket =>
    simp only [Dialogue.pollConnect, Dialogue.call, Task.always_bind, Task.always_lift,
      Dialogue.always_ask, Dialogue.always_done]
    intro answer
    cases hanswer : isConnected answer with
    | error e =>
      have hends : Ends c _ _ _ := ⟨c, [], _, rfl, .refl c, .connect hstate hsocket hanswer⟩
      simpa [report] using hends
    | ok connected =>
      cases connected with
      | false =>
        have hwait : Polled c _ none c :=
          ⟨c, _, [], rfl, .single (.wait hstate hsocket hanswer), rfl, rfl⟩
        simpa using hwait
      | true =>
        simp only [Dialogue.setNoDelay, Dialogue.call, report, bind_pure_comp, List.cons_append,
          List.nil_append, Task.always_bind, Task.always_map, Task.always_modify, Task.always_lift,
          Dialogue.always_metric, Dialogue.always_ask, Dialogue.always_done]
        intro noDelay
        refine queueFrame_always.mono ?_ ?_
        · rintro _ _ _ ⟨outbound, hqueue, rfl, rfl⟩
          have hask := Way.single (Step.ask noDelay hstate hsocket hanswer hqueue)
          refine (pollIo_always rfl).mono ?_ ?_
          · intro hs r c' hpolled
            simpa [Frame.kind] using hpolled.prepend hask
          · intro hs f c' hends
            simpa [Frame.kind] using hends.prepend hask
        · rintro _ _ _ ⟨error, hqueue, rfl, rfl, rfl⟩
          have hfault := Fault.ask noDelay hstate hsocket hanswer hqueue
          exact ⟨_, [], _, rfl, .refl _, hfault⟩

/-- A poll makes steps, hears one frame at most, and may come upon a fault. -/
theorem poll_always (c : Connection) :
    Task.Always poll c (fun hs r c' => Polled c hs r.event c') (Ends c) := by
  simp only [poll, Task.always_bind, Task.always_get, List.nil_append]
  cases hstate : c.state with
  | connecting => exact pollConnecting_always hstate
  | awaitingTableInfo | ready | awaitingStreamStart =>
    exact pollIo_always (by simp [hasRequestedTableInfo, hstate])
  | disconnected | streamStarted | transferred | closed =>
    exact Task.always_pure.2 ⟨c, [], [], rfl, .refl c, rfl, rfl⟩

/-! ### What is left to hear -/

/-- As long as it waits for the answer of its master, the connection has no frame in its
inbound buffer. -/
def IsHeard (c : Connection) : Prop :=
  c.socket.isSome → c.state = .awaitingTableInfo → c.inbound.nextFrame.1 = .ok none

theorem isHeard_of_state {c : Connection} (hstate : c.state ≠ .awaitingTableInfo) : c.IsHeard :=
  fun _ h => absurd h hstate

theorem takeFrame_isHeard {c : Connection} {busy : Bool} :
    Task.Always (takeFrame busy) c (fun _ _ c' => c'.IsHeard) (fun _ _ _ => True) := by
  simp only [takeFrame, Task.always_bind, Task.always_get, Task.always_set]
  rcases hn : c.inbound.nextFrame with ⟨frame, inbound⟩
  cases frame with
  | error e => exact Task.always_throw.2 trivial
  | ok f =>
    cases f with
    | none =>
      rw [InboundBuffer.nextFrame_none hn]
      exact Task.always_pure.2 fun _ _ => congrArg Prod.fst hn
    | some f =>
      simp only [Task.always_bind, Task.always_lift, report, Dialogue.always_metric]
      refine onFrame_always.mono ?_ fun _ _ _ _ => trivial
      rintro _ event c' ⟨-, haccept⟩
      refine Task.always_pure.2 (isHeard_of_state ?_)
      cases haccept <;> exact ConnectionState.noConfusion

theorem pollIo_leaves {P : Option ConnectionEvent → Connection → Prop} {c : Connection}
    (hopen : c.hasRequestedTableInfo)
    (hgone : ∀ c', c'.socket = none → P none c')
    (htake : ∀ c' busy, Task.Always (takeFrame busy) c' (fun _ r c'' => P r.event c'')
      (fun _ _ _ => True)) :
    Task.Always pollIo c (fun _ r c' => P r.event c') (fun _ _ _ => True) :=
  pollIo_of_takeFrame hopen (fun _ _ _ _ => trivial) (fun _ c₁ _ hnone => hgone c₁ hnone)
    fun _ c₁ busy _ _ => htake c₁ busy

/-- What is so when no frame can be taken, and whenever one has been looked for, is so
after a poll. -/
theorem poll_leaves {P : Option ConnectionEvent → Connection → Prop} (c : Connection)
    (hgone : ∀ c', c'.socket = none → P none c')
    (hidle : ∀ c', c'.state ≠ .awaitingTableInfo → c'.state ≠ .ready →
      c'.state ≠ .awaitingStreamStart → P none c')
    (htake : ∀ c' busy, Task.Always (takeFrame busy) c' (fun _ r c'' => P r.event c'')
      (fun _ _ _ => True)) :
    Task.Always poll c (fun _ r c' => P r.event c') (fun _ _ _ => True) := by
  simp only [poll, Task.always_bind, Task.always_get]
  cases hstate : c.state with
  | awaitingTableInfo | ready | awaitingStreamStart =>
    exact pollIo_leaves (by simp [hasRequestedTableInfo, hstate]) hgone htake
  | disconnected | streamStarted | transferred | closed =>
    exact Task.always_pure.2 (hidle c (by simp [hstate]) (by simp [hstate]) (by simp [hstate]))
  | connecting =>
    have hwait : P none c := hidle c (by simp [hstate]) (by simp [hstate]) (by simp [hstate])
    simp only [pollConnecting, Task.always_bind, Task.always_get]
    split
    · exact Task.always_pure.2 hwait
    next socket hsocket =>
      simp only [Dialogue.pollConnect, Dialogue.call, Task.always_bind, Task.always_lift,
        Dialogue.always_ask, Dialogue.always_done]
      intro answer
      cases isConnected answer with
      | error e => simp [report]
      | ok connected =>
        cases connected with
        | false => exact Task.always_pure.2 hwait
        | true =>
          simp only [Dialogue.setNoDelay, Dialogue.call, report, bind_pure_comp, Task.always_bind,
          Task.always_map, Task.always_modify, Task.always_lift, Dialogue.always_metric,
            Dialogue.always_ask, Dialogue.always_done]
          intro _
          exact queueFrame_always.mono (fun _ _ _ _ => pollIo_leaves rfl hgone htake) fun _ _ _ _ =>
            trivial

/-- A connection that was polled has taken out the answer that it waits for, if it was there. -/
theorem poll_isHeard (c : Connection) :
    Task.Always poll c (fun _ _ c' => c'.IsHeard) (fun _ _ _ => True) := by
  refine poll_leaves (P := fun _ c' => c'.IsHeard) c ?_ ?_ fun _ _ => takeFrame_isHeard
  · intro c' hnone hsome
    simp [hnone] at hsome
  · exact fun c' hinfo _ _ => isHeard_of_state hinfo

/-! ### Opening and asking for the stream -/

theorem connect_always {c : Connection} (hsocket : c.socket = none) :
    Task.Always connect c
      (fun hs _ c' => ∃ socket, hs = [.answered (.openSocket c.endpoint) (.ok socket)] ∧
        c' = { c with socketId := some socket, socket := some socket, state := .connecting })
      (fun hs f c' => ∃ e, hs = [.answered (.openSocket c.endpoint) (.error e)] ∧
        f = .connect c.label e ∧ c' = c) := by
  simp only [connect, Dialogue.openSocket, Dialogue.call, hsocket, Task.always_bind,
    Task.always_get, Task.always_lift, Dialogue.always_ask, Dialogue.always_done]
  intro answer
  cases answer with
  | error e => exact Task.always_throw.2 ⟨e, rfl, rfl, rfl⟩
  | ok socket => simp

/-- The stream is asked for, and some of the question may be written at once. -/
inductive Request (r : RequestReplicationStream) :
    Connection → List Happening → Connection → Prop where
  | ask {c c' : Connection} {outbound : OutboundBuffer} {hs : List Happening} :
      c.state = .ready → c.outbound.queue (.requestReplicationStream r) = .ok outbound →
      Way Write { c with outbound, state := .awaitingStreamStart } hs c' →
      Request r c
        (.noted (.queued c.socketId (.requestReplicationStream r)) ::
          .reported (.frameSent FrameKind.requestReplicationStream.name) :: hs) c'

/-- The stream cannot be asked for. -/
inductive RequestFault (r : RequestReplicationStream) :
    Connection → List Happening → Failure → Connection → Prop where
  | queue {c : Connection} {e : FrameError} :
      c.outbound.queue (.requestReplicationStream r) = .error e →
      RequestFault r c [] (.frame c.label e) c
  | write {c c' : Connection} {outbound : OutboundBuffer} {hs : List Happening} {f : Failure} :
      c.state = .ready → c.outbound.queue (.requestReplicationStream r) = .ok outbound →
      WriteEnds { c with outbound, state := .awaitingStreamStart } hs f c' →
      RequestFault r c
        (.noted (.queued c.socketId (.requestReplicationStream r)) ::
          .reported (.frameSent FrameKind.requestReplicationStream.name) :: hs) f c'

theorem requestStream_always {c : Connection} {r : RequestReplicationStream}
    (hstate : c.state = .ready) :
    Task.Always (requestStream r) c (fun hs _ c' => Request r c hs c') (RequestFault r c) := by
  simp only [requestStream, hstate, ne_eq, not_true_eq_false, if_false, Task.always_bind,
    Task.always_get, Task.always_pure, List.nil_append]
  refine queueFrame_always.mono ?_ ?_
  · rintro _ _ _ ⟨outbound, hqueue, rfl, rfl⟩
    rw [Task.always_modify]
    refine (flush_always rfl).mono ?_ ?_
    · intro hs _ c' hwrites
      have hrequest := Request.ask hstate hqueue hwrites
      simpa [Frame.kind] using hrequest
    · intro hs f c' hends
      exact .write hstate hqueue hends
  · rintro _ _ _ ⟨e, hqueue, rfl, rfl, rfl⟩
    exact .queue hqueue

end Connection

end ReplicaHandshake
