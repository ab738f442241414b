import ReplicaHandshake.Proofs.Connection.Transfer
import ReplicaHandshake.Proofs.Renaming

/-!
# Connections under other names

What a connection does, it would do as well under another name: of the identities that it deals
with, it presents its own and compares none (`Connection.Alike`).
-/

namespace ReplicaHandshake

variable {ρ : Renaming}

/-! ### Buffers -/

theorem Renaming.SameBytes.append {bs bs' more more' : Bytes} (h : ρ.SameBytes bs bs')
    (h' : ρ.SameBytes more more') : ρ.SameBytes (bs ++ more) (bs' ++ more') :=
  List.rel_append h h'

theorem Renaming.SameBytes.nil_iff {bs bs' : Bytes} (h : ρ.SameBytes bs bs') :
    bs' = [] ↔ bs = [] := by
  rw [← List.length_eq_zero_iff, ← List.length_eq_zero_iff, List.Forall₂.length_eq h]

namespace Frame

variable {f f' : Frame}

theorem Alike.encodedLength (h : f.Alike ρ f') : f'.encodedLength = f.encodedLength := by
  cases h <;> rfl

theorem Alike.kind (h : f.Alike ρ f') : f'.kind = f.kind := by
  cases h <;> rfl

theorem Alike.bytes (h : f.Alike ρ f') : ρ.SameBytes f.bytes f'.bytes := by
  cases h with
  | question version tableName =>
    have hsplit : ∀ b : Badge,
        Frame.bytes (.requestTableInfo ⟨version, b.instanceId, b.peer.number.toUInt64, tableName⟩) =
          (FrameKind.requestTableInfo.code ::
            (LittleEndian.encode 4 (headerLength + 28 + Utf16.byteLength tableName) ++
            LittleEndian.encode 4 version.toNat)) ++ (b.bytes ++ Utf16.encode tableName) := by
      intro b
      simp only [Frame.bytes, Frame.kind, Frame.body, Frame.encodedLength, Badge.bytes,
        List.cons_append, List.append_assoc]
    rw [hsplit ρ.own, hsplit ρ.other]
    exact (ρ.sameBytes_refl _).append (ρ.sameBytes_badge.append (ρ.sameBytes_refl _))
  | request => exact ρ.sameBytes_refl _

end Frame

namespace OutboundBuffer

theorem queue_alike (b : OutboundBuffer) {pending : Bytes}
    (hpending : ρ.SameBytes b.pending pending) {f f' : Frame} (hf : f.Alike ρ f') :
    (∃ e, b.queue f = .error e ∧ { b with pending }.queue f' = .error e) ∨
    ∃ bs bs', ρ.SameBytes bs bs' ∧ b.queue f = .ok { b with pending := bs } ∧
      { b with pending }.queue f' = .ok { b with pending := bs' } := by
  have hlength : pending.length = b.pending.length := (List.Forall₂.length_eq hpending).symm
  unfold queue
  simp only [hlength, hf.encodedLength, Frame.encode]
  split
  · exact .inl ⟨_, rfl, rfl⟩
  · split
    · exact .inr ⟨_, _, hpending.append hf.bytes, rfl, rfl⟩
    · exact .inl ⟨_, rfl, rfl⟩

theorem drain_alike (socket : SocketId) {bs bs' : Bytes} (h : ρ.SameBytes bs bs') :
    Dialogue.Alike ρ (fun r r' => r'.1 = r.1 ∧ ρ.SameBytes r.2 r'.2)
      (drain (Dialogue.write socket) bs)
      (drain (Dialogue.write (ρ.socket socket)) bs') := by
  induction hlength : bs.length using Nat.strongRecOn generalizing bs bs' with
  | ind n ih =>
    rw [drain, drain]
    simp only [h.nil_iff]
    split
    · exact .done ⟨rfl, .nil⟩
    next hsome =>
      refine (Dialogue.alike_write socket h).bind fun answer answer' hsame => ?_
      obtain ⟨_, result, _⟩ := answer
      obtain ⟨_, result', _⟩ := answer'
      rcases result with e | ⟨_ | m, hm⟩ <;> rcases result' with e' | ⟨_ | m', hm'⟩ <;>
        simp only [Except.map, Except.error.injEq, Except.ok.injEq, reduceCtorEq,
          Nat.add_right_cancel_iff] at hsame
      · subst hsame
        exact .done ⟨rfl, h⟩
      · exact .done ⟨rfl, h⟩
      · subst hsame
        refine ih _ ?_ (List.forall₂_drop _ h) rfl
        rw [← hlength, List.length_drop]
        omega

theorem flush_alike (socket : SocketId) (b : OutboundBuffer) {pending : Bytes}
    (hpending : ρ.SameBytes b.pending pending) :
    Dialogue.Alike ρ (fun r r' => r'.1 = r.1 ∧
        ∃ bs bs', ρ.SameBytes bs bs' ∧ r.2 = { b with pending := bs } ∧
          r'.2 = { b with pending := bs' })
      (Dialogue.flush socket b) (Dialogue.flush (ρ.socket socket) { b with pending }) :=
  (drain_alike socket hpending).bind fun _ _ h => .done ⟨h.1, _, _, h.2, rfl, rfl⟩

end OutboundBuffer

theorem InboundBuffer.fill_alike (socket : SocketId) (b : InboundBuffer) :
    Dialogue.Alike ρ Eq (Dialogue.fill socket b) (Dialogue.fill (ρ.socket socket) b) := by
  unfold Dialogue.fill fill
  split
  · exact .done rfl
  · refine (Dialogue.alike_read socket b.room).bind ?_
    rintro answer _ rfl
    exact .done rfl

namespace Connection

/-! ### Connections -/

/-- A connection under another name, with other bytes pending. -/
def renamed (ρ : Renaming) (pending : Bytes) (c : Connection) : Connection :=
  { c with
    instanceId := ρ.other.instanceId
    peer := ρ.other.peer
    socket := c.socket.map ρ.socket
    socketId := c.socketId.map ρ.socket
    pendingHandoff := c.pendingHandoff.map ρ.handoff
    outbound := { c.outbound with pending } }

/-- The same connection under another name. -/
inductive Alike (ρ : Renaming) (c : Connection) : Connection → Prop where
  | intro {pending : Bytes} : c.instanceId = ρ.own.instanceId → c.peer = ρ.own.peer →
      ρ.SameBytes c.outbound.pending pending → Alike ρ c (c.renamed ρ pending)

variable {c c' : Connection}

theorem Alike.state (h : c.Alike ρ c') : c'.state = c.state := by
  cases h; rfl

theorem Alike.isTransferred (h : c.Alike ρ c') : c'.isTransferred = c.isTransferred := by
  cases h; rfl

theorem Alike.hasRequestedTableInfo (h : c.Alike ρ c') :
    c'.hasRequestedTableInfo = c.hasRequestedTableInfo := by
  cases h; rfl

theorem new_alike (tableName : String) (frameBuffer : Nat) (endpoint : Endpoint) :
    (new ρ.own.instanceId ρ.own.peer tableName frameBuffer endpoint).Alike ρ
      (new ρ.other.instanceId ρ.other.peer tableName frameBuffer endpoint) := by
  have hempty : ρ.SameBytes [] [] := .nil
  exact .intro rfl rfl hempty

/-! ### Opening and asking -/

theorem connect_alike : Task.Alike ρ (Alike ρ) Eq connect connect := by
  unfold connect
  refine Task.alike_get.bind ?_
  rintro c _ ⟨hinstance, hpeer, hpending⟩
  refine (Task.alike_lift (Dialogue.alike_openSocket c.endpoint)).bind ?_
  rintro (e | socket) _ rfl
  · exact Task.alike_throw _
  · refine (Task.alike_set (.intro hinstance hpeer hpending)).bind ?_
    rintro _ _ rfl
    cases hsocket : c.socket with
    | none =>
      simp only [renamed, hsocket, Option.map_none]
      exact Task.alike_pure rfl
    | some old =>
      simp only [renamed, hsocket, Option.map_some]
      exact Task.alike_lift (Dialogue.alike_closeSocket old)

theorem queueFrame_alike {f f' : Frame} (hf : f.Alike ρ f') :
    Task.Alike ρ (Alike ρ) Eq (queueFrame f) (queueFrame f') := by
  unfold queueFrame
  refine Task.alike_get.bind ?_
  rintro c _ ⟨hinstance, hpeer, hpending⟩
  obtain ⟨e, hfirst, hsecond⟩ | ⟨bs, bs', hbytes, hfirst, hsecond⟩ :=
    c.outbound.queue_alike hpending hf
  · simp only [renamed, hfirst, hsecond]
    exact Task.alike_throw _
  · simp only [renamed, hfirst, hsecond, hf.kind]
    refine (Task.alike_set (.intro hinstance hpeer hbytes)).bind ?_
    rintro _ _ rfl
    refine (Task.alike_lift (Dialogue.alike_note (.queued c.socketId hf))).bind ?_
    rintro _ _ rfl
    exact Task.alike_lift (Dialogue.alike_report _)

theorem flush_alike : Task.Alike ρ (Alike ρ) Eq flush flush := by
  unfold flush
  refine Task.alike_get.bind ?_
  rintro c _ ⟨hinstance, hpeer, hpending⟩
  refine Task.alike_ite hpending.nil_iff (fun _ => Task.alike_pure rfl) fun _ => ?_
  dsimp only [renamed, label]
  cases c.socket with
  | none => exact Task.alike_pure rfl
  | some socket =>
    refine (Task.alike_lift (c.outbound.flush_alike socket hpending)).bind ?_
    rintro ⟨_, _⟩ ⟨result, _⟩ ⟨rfl, bs, bs', hbytes, rfl, rfl⟩
    refine (Task.alike_set (.intro hinstance hpeer hbytes)).bind ?_
    rintro _ _ rfl
    cases result with
    | error e => exact Task.alike_throw _
    | ok =>
      dsimp only
      rw [List.Forall₂.length_eq hpending, List.Forall₂.length_eq hbytes]
      exact Task.alike_pure rfl

/-! ### Hearing -/

theorem onTableInfo_alike (info : TableInfo) :
    Task.Alike ρ (Alike ρ) Eq (onTableInfo info) (onTableInfo info) := by
  unfold onTableInfo
  refine Task.alike_get.bind ?_
  rintro c _ ⟨hinstance, hpeer, hpending⟩
  dsimp only [renamed, violation, label]
  refine Task.alike_ite .rfl (fun _ => Task.alike_throw_bind _) fun _ => ?_
  refine Task.alike_ite .rfl (fun _ => Task.alike_throw_bind _) fun _ => ?_
  refine Task.alike_ite .rfl (fun _ => Task.alike_throw_bind _) fun _ => ?_
  refine Task.alike_ite .rfl (fun _ => Task.alike_throw_bind _) fun _ => ?_
  refine (Task.alike_lift (Dialogue.alike_note (.accepted c.socketId (.tableInfo info)))).bind ?_
  rintro _ _ rfl
  refine (Task.alike_set (.intro hinstance hpeer hpending)).bind ?_
  rintro _ _ rfl
  exact Task.alike_pure rfl

theorem onStreamStart_alike (start : StartOfReplicationStream) :
    Task.Alike ρ (Alike ρ) Eq (onStreamStart start) (onStreamStart start) := by
  unfold onStreamStart
  refine Task.alike_get.bind ?_
  rintro c _ ⟨hinstance, hpeer, hpending⟩
  dsimp only [renamed, violation, label]
  refine Task.alike_ite .rfl (fun _ => Task.alike_throw_bind _) fun _ => ?_
  refine Task.alike_ite .rfl (fun _ => Task.alike_throw_bind _) fun _ => ?_
  refine (Task.alike_lift
    (Dialogue.alike_note (.accepted c.socketId (.startOfReplicationStream start)))).bind ?_
  rintro _ _ rfl
  refine (Task.alike_set (.intro hinstance hpeer hpending)).bind ?_
  rintro _ _ rfl
  exact Task.alike_pure rfl

theorem onFrame_alike (f : Frame) : Task.Alike ρ (Alike ρ) Eq (onFrame f) (onFrame f) := by
  have hunexpected : Task.Alike ρ (Alike ρ) Eq
      (do throw ((← get).violation s!"unexpected {f.kind.name} frame from master") :
        Task Connection ConnectionEvent)
      (do throw ((← get).violation s!"unexpected {f.kind.name} frame from master")) := by
    refine Task.alike_get.bind ?_
    rintro c _ ⟨-, -, -⟩
    exact Task.alike_throw _
  cases f with
  | tableInfo info => exact onTableInfo_alike info
  | startOfReplicationStream start => exact onStreamStart_alike start
  | requestTableInfo | requestReplicationStream => exact hunexpected

theorem takeFrame_alike (busy : Bool) :
    Task.Alike ρ (Alike ρ) Eq (takeFrame busy) (takeFrame busy) := by
  unfold takeFrame
  refine Task.alike_get.bind ?_
  rintro c _ ⟨hinstance, hpeer, hpending⟩
  dsimp only [renamed, label]
  obtain ⟨frame, inbound⟩ := c.inbound.nextFrame
  refine (Task.alike_set (.intro hinstance hpeer hpending)).bind ?_
  rintro _ _ rfl
  rcases frame with e | _ | f
  · exact Task.alike_throw _
  · exact Task.alike_pure rfl
  · refine (Task.alike_lift (Dialogue.alike_report _)).bind ?_
    rintro _ _ rfl
    refine (onFrame_alike f).bind ?_
    rintro event _ rfl
    exact Task.alike_pure rfl

theorem pollIo_alike : Task.Alike ρ (Alike ρ) Eq pollIo pollIo := by
  unfold pollIo
  refine flush_alike.bind ?_
  rintro wrote _ rfl
  refine Task.alike_get.bind ?_
  rintro c _ ⟨hinstance, hpeer, hpending⟩
  dsimp only [renamed, label]
  cases hsocket : c.socket with
  | none => exact Task.alike_pure rfl
  | some socket =>
    refine (Task.alike_lift (c.inbound.fill_alike socket)).bind ?_
    rintro ⟨outcome, inbound⟩ _ rfl
    refine (Task.alike_set (.intro hinstance hpeer hpending)).bind ?_
    rintro _ _ rfl
    rcases outcome with e | _ | _ | _ | _
    · exact Task.alike_throw _
    · exact takeFrame_alike true
    · exact takeFrame_alike wrote
    · refine (Task.alike_lift (Dialogue.alike_report _)).bind ?_
      rintro _ _ rfl
      exact Task.alike_throw _
    · exact takeFrame_alike wrote

/-! ### One step -/

theorem pollConnecting_alike : Task.Alike ρ (Alike ρ) Eq pollConnecting pollConnecting := by
  unfold pollConnecting
  refine Task.alike_get.bind ?_
  rintro c _ ⟨hinstance, hpeer, -⟩
  dsimp only [renamed, label]
  cases c.socket with
  | none => exact Task.alike_pure rfl
  | some socket =>
    refine (Task.alike_lift (Dialogue.alike_pollConnect socket)).bind ?_
    rintro answer _ rfl
    rcases isConnected answer with e | _ | _
    · refine (Task.alike_lift (Dialogue.alike_report _)).bind ?_
      rintro _ _ rfl
      exact Task.alike_throw _
    · exact Task.alike_pure rfl
    · refine (Task.alike_lift (Dialogue.alike_setNoDelay socket)).bind ?_
      rintro _ _ rfl
      refine (Task.alike_lift (Dialogue.alike_report _)).bind ?_
      rintro _ _ rfl
      have hquestion : Frame.Alike ρ (.requestTableInfo c.request)
          (.requestTableInfo { c.request with
            instanceId := ρ.other.instanceId, peerId := ρ.other.peer.number.toUInt64 }) := by
        unfold request
        rw [hinstance, hpeer]
        exact .question protocolVersion c.tableName
      refine (queueFrame_alike hquestion).bind ?_
      rintro _ _ rfl
      refine Task.Alike.bind (Task.alike_modify ?_) ?_
      · rintro c _ ⟨hinstance, hpeer, hpending⟩
        exact .intro hinstance hpeer hpending
      rintro _ _ rfl
      refine pollIo_alike.bind ?_
      rintro polled _ rfl
      exact Task.alike_pure rfl

theorem poll_alike : Task.Alike ρ (Alike ρ) Eq poll poll := by
  unfold poll
  refine Task.alike_get.bind fun c c' h => ?_
  rw [h.state]
  cases c.state with
  | connecting => exact pollConnecting_alike
  | awaitingTableInfo | ready | awaitingStreamStart => exact pollIo_alike
  | disconnected | streamStarted | transferred | closed => exact Task.alike_pure rfl

theorem requestStream_alike (r : RequestReplicationStream) :
    Task.Alike ρ (Alike ρ) Eq (requestStream r) (requestStream r) := by
  unfold requestStream
  refine Task.alike_get.bind ?_
  rintro c _ ⟨-, -, -⟩
  dsimp only [renamed, violation, label]
  refine Task.alike_ite .rfl (fun _ => Task.alike_throw_bind _) fun _ => ?_
  refine (queueFrame_alike (.request r)).bind ?_
  rintro _ _ rfl
  refine Task.Alike.bind (Task.alike_modify ?_) ?_
  · rintro c _ ⟨hinstance, hpeer, hpending⟩
    exact .intro hinstance hpeer hpending
  rintro _ _ rfl
  refine flush_alike.bind ?_
  rintro _ _ rfl
  exact Task.alike_pure rfl

/-! ### The end -/

theorem takeHandoff_renamed (pending : Bytes) (c : Connection) :
    (c.renamed ρ pending).takeHandoff =
      (c.takeHandoff.1.map ρ.handoff, c.takeHandoff.2.renamed ρ pending) := by
  unfold takeHandoff
  cases hpending : c.pendingHandoff with
  | some handoff => simp [renamed, hpending]
  | none => cases hsocket : c.socket <;> simp [renamed, hpending, hsocket, Renaming.handoff]

theorem tryTransfer_alike : Task.Alike ρ (Alike ρ) Eq tryTransfer tryTransfer := by
  have hunready : ∀ socket : Option SocketId, Task.Alike ρ (Alike ρ) Eq
      (do note (.unready socket); return false : Task Connection Bool)
      (do note (.unready (socket.map ρ.socket)); return false) := by
    intro socket
    refine (Task.alike_lift (Dialogue.alike_note (.unready socket))).bind ?_
    rintro _ _ rfl
    exact Task.alike_pure rfl
  unfold tryTransfer
  refine Task.alike_get.bind fun c c' h => ?_
  rw [h.state]
  cases c.state with
  | transferred => exact Task.alike_pure rfl
  | ready | streamStarted =>
    refine flush_alike.bind ?_
    rintro _ _ rfl
    refine Task.alike_get.bind ?_
    rintro c _ ⟨hinstance, hpeer, hpending⟩
    refine Task.alike_ite (not_congr hpending.nil_iff) (fun _ => Task.alike_pure rfl) fun _ => ?_
    obtain ⟨hinstance', hpeer', houtbound⟩ := c.takeHandoff_keeps
    rw [takeHandoff_renamed]
    generalize c.takeHandoff = taken at hinstance' hpeer' houtbound ⊢
    obtain ⟨handoff, rest⟩ := taken
    cases handoff with
    | none => exact hunready c.socketId
    | some handoff =>
      dsimp only [Option.map_some, renamed]
      rw [hpeer]
      refine (Task.alike_set ?_).bind ?_
      · refine .intro (hinstance'.trans hinstance) (hpeer'.trans hpeer) ?_
        rw [houtbound]
        exact hpending
      rintro _ _ rfl
      refine (Task.alike_lift (Dialogue.alike_offerSocket handoff)).bind ?_
      rintro accepted _ rfl
      refine Task.alike_ite .rfl (fun _ => ?_) fun _ => ?_
      all_goals
        refine Task.Alike.bind (Task.alike_modify ?_) ?_
        · rintro c _ ⟨hinstance, hpeer, hpending⟩
          exact .intro hinstance hpeer hpending
        · rintro _ _ rfl
          exact Task.alike_pure rfl
  | disconnected | connecting | awaitingTableInfo | awaitingStreamStart | closed =>
    refine Task.alike_get.bind ?_
    rintro c _ ⟨-, -, -⟩
    exact hunready c.socketId

theorem closeSockets_alike (sockets : List SocketId) :
    Dialogue.Alike ρ Eq (closeSockets sockets) (closeSockets (sockets.map ρ.socket)) := by
  induction sockets with
  | nil => exact .done rfl
  | cons socket rest ih =>
    refine (Dialogue.alike_closeSocket socket).bind ?_
    rintro _ _ rfl
    exact ih

theorem ownedSockets_renamed (pending : Bytes) (c : Connection) :
    (c.renamed ρ pending).ownedSockets = c.ownedSockets.map ρ.socket := by
  unfold ownedSockets renamed
  cases c.socket <;> cases c.pendingHandoff <;> rfl

theorem close_alike : Work.Alike ρ (Alike ρ) Eq close close := by
  unfold close
  refine Work.alike_get.bind ?_
  rintro c _ ⟨hinstance, hpeer, hpending⟩
  refine Work.alike_ite .rfl (fun _ => Work.alike_pure rfl) fun _ => ?_
  refine (Work.alike_set (.intro hinstance hpeer hpending)).bind ?_
  rintro _ _ rfl
  rw [ownedSockets_renamed]
  refine (Work.alike_lift (closeSockets_alike _)).bind ?_
  rintro _ _ rfl
  refine Work.alike_ite List.map_eq_nil_iff (fun _ => Work.alike_pure rfl) fun _ => ?_
  refine (Work.alike_lift (Dialogue.alike_report _)).bind ?_
  rintro _ _ rfl
  exact Work.alike_pure rfl

end Connection

end ReplicaHandshake
