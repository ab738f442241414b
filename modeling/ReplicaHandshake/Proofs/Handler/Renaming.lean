import ReplicaHandshake.Handler.Handoff
import ReplicaHandshake.Proofs.Connection.Renaming

/-!
# Handlers under other names

What a handler does, it would do as well if its sockets, its peer and its writer had other names
(`Handler.Alike`). It compares none of them but sockets with sockets.
-/

namespace ReplicaHandshake

variable {ρ : Renaming}

/-! ### Lists -/

section Lists

variable {α : Type} {R : α → α → Prop} {l l' : List α} {p p' : α → Bool}

theorem forall₂_find (h : List.Forall₂ R l l') (hp : ∀ a a', R a a' → p' a' = p a) :
    Option.Rel R (l.find? p) (l'.find? p') := by
  induction h with
  | nil => exact .none
  | @cons a a' _ _ hR _ ih =>
    rw [List.find?_cons, List.find?_cons, hp a a' hR]
    cases p a with
    | true => exact .some hR
    | false => exact ih

theorem forall₂_eraseP (h : List.Forall₂ R l l') (hp : ∀ a a', R a a' → p' a' = p a) :
    List.Forall₂ R (l.eraseP p) (l'.eraseP p') := by
  induction h with
  | nil => exact .nil
  | @cons a a' _ _ hR hrest ih =>
    rw [List.eraseP_cons, List.eraseP_cons, hp a a' hR]
    cases p a with
    | true => exact hrest
    | false => exact .cons hR ih

theorem forall₂_filter (h : List.Forall₂ R l l') (hp : ∀ a a', R a a' → p' a' = p a) :
    List.Forall₂ R (l.filter p) (l'.filter p') := by
  induction h with
  | nil => exact .nil
  | @cons a a' _ _ hR _ ih =>
    rw [List.filter_cons, List.filter_cons, hp a a' hR]
    split
    · exact .cons hR ih
    · exact ih

theorem forall₂_all (h : List.Forall₂ R l l') (hp : ∀ a a', R a a' → p' a' = p a) :
    l'.all p' = l.all p := by
  induction h with
  | nil => rfl
  | @cons a a' _ _ hR _ ih => rw [List.all_cons, List.all_cons, hp a a' hR, ih]

theorem forall₂_isEmpty (h : List.Forall₂ R l l') : l'.isEmpty = l.isEmpty := by
  cases h <;> rfl

theorem forall₂_getElem? (h : List.Forall₂ R l l') (i : Nat) : Option.Rel R l[i]? l'[i]? := by
  induction h generalizing i with
  | nil => exact .none
  | cons hR _ ih =>
    cases i with
    | zero => exact .some hR
    | succ i => exact ih i

theorem forall₂_set (h : List.Forall₂ R l l') (i : Nat) {a a' : α} (ha : R a a') :
    List.Forall₂ R (l.set i a) (l'.set i a') := by
  induction h generalizing i with
  | nil => exact .nil
  | cons hR hrest ih =>
    cases i with
    | zero => exact .cons ha hrest
    | succ i => exact .cons hR (ih i)

end Lists

/-- The same writer; writers are counted independently. -/
def SameWriter (w w' : TableWriter) : Prop :=
  ∃ serial, w' = { w with serial }

namespace Handler

/-- A handler under another name, with other connections and another writer. -/
def renamed (ρ : Renaming) (connections : List Connection) (writer : Option TableWriter)
    (h : Handler) : Handler :=
  { h with peer := ρ.other.peer, connections, writer }

/-- The same handler under another name. -/
inductive Alike (ρ : Renaming) (h : Handler) : Handler → Prop where
  | intro {connections : List Connection} {writer : Option TableWriter} : h.peer = ρ.own.peer →
      List.Forall₂ (Connection.Alike ρ) h.connections connections →
      Option.Rel SameWriter h.writer writer →
      Alike ρ h (h.renamed ρ connections writer)

variable {h h' : Handler}

theorem new_alike (table : TableSettings) (frameBuffer : Nat) (timeout : Duration) (now : Instant) :
    (new ρ.own.instanceId ρ.own.peer table frameBuffer timeout now).Alike ρ
      (new ρ.other.instanceId ρ.other.peer table frameBuffer timeout now) := by
  have hnone : Option.Rel SameWriter none none := .none
  refine .intro rfl ?_ hnone
  refine List.forall₂_map_left_iff.2
    (List.forall₂_map_right_iff.2 (List.forall₂_same.2 fun endpoint _ => ?_))
  exact Connection.new_alike table.tableName frameBuffer endpoint

theorem Alike.phase (h₁ : h.Alike ρ h') : h'.phase = h.phase := by
  cases h₁; rfl

theorem Alike.tableName (h₁ : h.Alike ρ h') : h'.tableName = h.tableName := by
  cases h₁; rfl

theorem Alike.connections (h₁ : h.Alike ρ h') :
    List.Forall₂ (Connection.Alike ρ) h.connections h'.connections := by
  cases h₁; assumption

theorem Alike.allReady (h₁ : h.Alike ρ h') : h'.allReady = h.allReady := by
  obtain ⟨-, hconnections, -⟩ := h₁
  unfold Handler.allReady
  dsimp only [renamed]
  rw [List.Forall₂.length_eq hconnections]
  rfl

theorem Alike.isDrained (h₁ : h.Alike ρ h') : h'.isDrained = h.isDrained := by
  obtain ⟨-, hconnections, -⟩ := h₁
  unfold Handler.isDrained
  dsimp only [renamed]
  rw [forall₂_isEmpty hconnections]
  rfl

theorem enter_alike (new : Phase) : Task.Alike ρ (Alike ρ) Eq (enter new) (enter new) := by
  unfold enter
  refine Task.alike_get.bind ?_
  rintro h _ ⟨hpeer, hconnections, hwriter⟩
  dsimp only [renamed]
  cases h.phase.moveTo new with
  | error f =>
    refine (Task.alike_lift (Dialogue.alike_note (.refused h.phase new))).bind ?_
    rintro _ _ rfl
    exact Task.alike_throw f
  | ok phase =>
    refine (Task.alike_set (.intro hpeer hconnections hwriter)).bind ?_
    rintro _ _ rfl
    exact Task.alike_lift (Dialogue.alike_report _)

theorem onConnection_alike {α : Type} {R : α → α → Prop} (i : Nat) {c c' : Connection}
    (hc : c.Alike ρ c') {task task' : Task Connection α}
    (htask : Task.Alike ρ (Connection.Alike ρ) R task task') :
    Task.Alike ρ (Alike ρ) R (onConnection i c task) (onConnection i c' task') := by
  unfold onConnection
  refine (Task.alike_lift (htask.perform c c' hc)).bind ?_
  rintro ⟨result, c₁⟩ ⟨result', c₁'⟩ ⟨hresult, hc₁⟩
  refine Task.Alike.bind (Task.alike_modify ?_) ?_
  · rintro h _ ⟨hpeer, hconnections, hwriter⟩
    exact .intro hpeer (forall₂_set hconnections i hc₁) hwriter
  rintro _ _ rfl
  exact Task.alike_ofExcept hresult

/-! ### Stopping -/

theorem closeAll_alike {cs cs' : List Connection} (h : List.Forall₂ (Connection.Alike ρ) cs cs') :
    Dialogue.Alike ρ (List.Forall₂ (Connection.Alike ρ)) (closeAll cs) (closeAll cs') := by
  induction h with
  | nil => exact .done .nil
  | cons hc _ ih =>
    refine (Connection.close_alike _ _ hc).bind ?_
    rintro ⟨_, c⟩ ⟨_, c'⟩ ⟨rfl, hc⟩
    refine ih.bind fun rest rest' hrest => ?_
    exact .done (.cons hc hrest)

theorem releaseWriter_alike : Work.Alike ρ (Alike ρ) Eq releaseWriter releaseWriter := by
  unfold releaseWriter
  refine Work.alike_get.bind ?_
  rintro h _ ⟨hpeer, hconnections, hwriter⟩
  refine Work.alike_ite .rfl (fun _ => ?_) fun _ => Work.alike_pure rfl
  refine (Work.alike_set (.intro hpeer hconnections .none)).bind ?_
  rintro _ _ rfl
  dsimp only [renamed]
  generalize h.writer = writer at hwriter ⊢
  cases hwriter with
  | none => exact Work.alike_pure rfl
  | some hsame =>
    obtain ⟨serial, rfl⟩ := hsame
    exact Work.alike_lift (Dialogue.alike_releaseWriter _ serial)

theorem stop_alike : Work.Alike ρ (Alike ρ) Eq stop stop := by
  unfold stop
  refine Work.alike_get.bind fun h h' hh => Work.alike_get.bind fun h₁ h₁' hh₁ => ?_
  rw [hh.phase, hh₁.phase]
  refine Work.alike_ite .rfl (fun _ => Work.alike_pure rfl) fun _ => ?_
  refine (enter_alike .stopping).perform.bind ?_
  rintro _ _ (⟨rfl⟩ | ⟨f⟩)
  · refine Work.alike_get.bind fun h h' hh => ?_
    refine (Work.alike_lift (closeAll_alike hh.connections)).bind fun cs cs' hcs => ?_
    refine Work.Alike.bind (Work.alike_modify ?_) ?_
    · rintro h _ ⟨hpeer, -, hwriter⟩
      exact .intro hpeer (forall₂_filter hcs fun _ _ => Connection.Alike.isTransferred) hwriter
    rintro _ _ rfl
    refine releaseWriter_alike.bind ?_
    rintro _ _ rfl
    refine Work.alike_modify ?_
    rintro h _ ⟨hpeer, hconnections, hwriter⟩
    dsimp only [renamed]
    rw [← forall₂_isEmpty hconnections]
    exact .intro hpeer hconnections hwriter
  · exact Work.alike_pure rfl

theorem stopFor_alike (kind : String) (reason : StopReason) :
    Work.Alike ρ (Alike ρ) Eq (stopFor kind reason) (stopFor kind reason) := by
  unfold stopFor
  refine (Work.alike_lift (Dialogue.alike_report _)).bind ?_
  rintro _ _ rfl
  refine Work.Alike.bind (Work.alike_modify ?_) ?_
  · rintro h _ ⟨hpeer, hconnections, hwriter⟩
    exact .intro hpeer hconnections hwriter
  rintro _ _ rfl
  exact stop_alike

theorem fail_alike (f : Failure) : Work.Alike ρ (Alike ρ) Eq (fail f) (fail f) :=
  stopFor_alike f.kind (.failed f)

theorem isTakenAs_alike (socket : SocketId) {c c' : Connection} (h : c.Alike ρ c') :
    isTakenAs (ρ.socket socket) c' = isTakenAs socket c := by
  obtain ⟨-, -, -⟩ := h
  have hsame : c.socketId.map ρ.socket = some (ρ.socket socket) ↔ c.socketId = some socket := by
    rw [← Option.map_some, (Option.map_injective ρ.injective).eq_iff]
  unfold isTakenAs
  exact congrArg (c.isTransferred && ·) (decide_eq_decide.2 hsame)

theorem onDisconnect_alike (socket : SocketId) :
    Work.Alike ρ (Alike ρ) Eq (onDisconnect socket) (onDisconnect (ρ.socket socket)) := by
  unfold onDisconnect
  refine Work.alike_get.bind ?_
  rintro h _ ⟨hpeer, hconnections, hwriter⟩
  have hfound := forall₂_find hconnections fun _ _ => isTakenAs_alike socket
  dsimp only [renamed]
  generalize h.connections.find? (isTakenAs socket) = found at hfound ⊢
  generalize List.find? (isTakenAs (ρ.socket socket)) _ = found' at hfound ⊢
  cases hfound with
  | none => exact Work.alike_pure rfl
  | some hc =>
    refine (Work.alike_set
      (.intro hpeer (forall₂_eraseP hconnections fun _ _ => isTakenAs_alike socket)
      hwriter)).bind ?_
    rintro _ _ rfl
    obtain ⟨-, -, -⟩ := hc
    refine Work.alike_ite .rfl (fun _ => ?_) fun _ => Work.alike_pure rfl
    refine (stopFor_alike _ _).bind ?_
    rintro _ _ rfl
    exact Work.alike_pure rfl

theorem pollStopping_alike : Work.Alike ρ (Alike ρ) Eq pollStopping pollStopping := by
  unfold pollStopping
  refine Work.alike_get.bind ?_
  rintro h _ ⟨hpeer, hconnections, hwriter⟩
  refine Work.alike_ite .rfl (fun _ => Work.alike_pure rfl) fun _ => ?_
  rw [hpeer]
  refine (Work.alike_lift Dialogue.alike_stopPeer).bind ?_
  rintro accepted _ rfl
  refine Work.alike_ite .rfl (fun _ => ?_) fun _ => ?_
  · refine (Work.alike_set (.intro rfl hconnections hwriter)).bind ?_
    rintro _ _ rfl
    exact Work.alike_pure rfl
  · refine (Work.alike_lift (Dialogue.alike_report _)).bind ?_
    rintro _ _ rfl
    exact Work.alike_pure rfl

theorem finish_alike (voluntary : Bool) :
    Work.Alike ρ (Alike ρ) Eq (finish voluntary) (finish voluntary) := by
  unfold finish
  refine (enter_alike _).perform.bind fun _ _ _ => ?_
  refine Work.alike_get.bind fun h h' hh => ?_
  rw [hh.phase]
  exact Work.alike_pure rfl

/-! ### Starting -/

theorem openAll_alike {cs cs' : List Connection} (h : List.Forall₂ (Connection.Alike ρ) cs cs') :
    Dialogue.Alike ρ (fun r r' => r'.1 = r.1 ∧ List.Forall₂ (Connection.Alike ρ) r.2 r'.2)
      (openAll cs)
      (openAll cs') := by
  induction h with
  | nil => exact .done ⟨rfl, .nil⟩
  | cons hc hrest ih =>
    refine (Connection.connect_alike.perform _ _ hc).bind ?_
    rintro ⟨_, c⟩ ⟨_, c'⟩ ⟨⟨rfl⟩ | ⟨f⟩, hc⟩
    · refine ih.bind ?_
      rintro ⟨failure, rest⟩ ⟨_, rest'⟩ ⟨rfl, hrest⟩
      exact .done ⟨rfl, .cons hc hrest⟩
    · exact .done ⟨rfl, .cons hc hrest⟩

theorem start_alike : Work.Alike ρ (Alike ρ) Eq start start := by
  unfold start
  refine Work.alike_get.bind ?_
  rintro h _ ⟨-, hconnections, -⟩
  dsimp only [renamed]
  rw [← List.Forall₂.length_eq hconnections]
  refine (Work.alike_lift (Dialogue.alike_note (.started h.tableName h.connections.length))).bind ?_
  rintro _ _ rfl
  refine (Work.alike_lift (Dialogue.alike_report _)).bind ?_
  rintro _ _ rfl
  refine Work.alike_get.bind fun h h' hh => ?_
  refine (Work.alike_lift (openAll_alike hh.connections)).bind ?_
  rintro ⟨_, cs⟩ ⟨failure, cs'⟩ ⟨rfl, hcs⟩
  refine Work.Alike.bind (Work.alike_modify ?_) ?_
  · rintro h _ ⟨hpeer, -, hwriter⟩
    exact .intro hpeer hcs hwriter
  rintro _ _ rfl
  cases failure with
  | none => exact Work.alike_pure rfl
  | some f => exact fail_alike f

/-! ### The rendezvous -/

theorem onTableInfo_alike (label : String) (info : TableInfo) :
    Task.Alike ρ (Alike ρ) Eq (onTableInfo label info) (onTableInfo label info) := by
  unfold onTableInfo
  refine Task.alike_get.bind ?_
  rintro h _ ⟨hpeer, hconnections, hwriter⟩
  refine Task.alike_ite .rfl (fun _ => Task.alike_set (.intro hpeer hconnections hwriter)) fun _ =>
    ?_
  exact Task.alike_ite .rfl (fun _ => Task.alike_throw _) fun _ =>
    Task.alike_set (.intro hpeer hconnections hwriter)

theorem resolveTable_alike : Task.Alike ρ (Alike ρ) Eq resolveTable resolveTable := by
  unfold resolveTable
  refine Task.alike_get.bind ?_
  rintro h _ ⟨hpeer, hconnections, -⟩
  refine (Task.alike_lift (Dialogue.alike_tableExists h.tableName)).bind ?_
  rintro answer _ rfl
  rcases answer with e | _ | _
  · exact Task.alike_throw _
  · exact Task.alike_pure rfl
  · refine (Task.alike_lift (Dialogue.alike_openWriter h.tableName)).bind ?_
    rintro _ _ (⟨e⟩ | ⟨writer, serial⟩)
    · exact Task.alike_throw _
    · refine Task.alike_ite .rfl (fun _ => ?_) fun _ => ?_
      · refine (Task.alike_lift (Dialogue.alike_releaseWriter writer serial)).bind ?_
        rintro _ _ rfl
        exact Task.alike_throw_bind _
      · refine (Task.alike_set (.intro hpeer hconnections (.some ⟨serial, rfl⟩))).bind ?_
        rintro _ _ rfl
        exact Task.alike_pure rfl

theorem onRendezvous_alike : Task.Alike ρ (Alike ρ) Eq onRendezvous onRendezvous := by
  unfold onRendezvous
  refine resolveTable_alike.bind ?_
  rintro rows _ rfl
  refine Task.alike_get.bind ?_
  rintro h _ ⟨-, hconnections, -⟩
  dsimp only [renamed]
  generalize h.connections = cs at hconnections ⊢
  cases hconnections with
  | nil => exact Task.alike_throw _
  | cons hc =>
    refine (onConnection_alike 0 hc (Connection.requestStream_alike _)).bind ?_
    rintro _ _ rfl
    exact enter_alike _

theorem onStreamStart_alike (start : StartOfReplicationStream) :
    Task.Alike ρ (Alike ρ) Eq (onStreamStart start) (onStreamStart start) := by
  unfold onStreamStart
  refine Task.alike_get.bind ?_
  rintro h _ ⟨hpeer, hconnections, hwriter⟩
  refine Task.alike_ite ?_ (fun _ => ?_) fun _ => enter_alike _
  · dsimp only [renamed]
    generalize h.writer = writer at hwriter ⊢
    cases hwriter <;> exact .rfl
  · refine (Task.alike_lift
      (Dialogue.alike_createTable h.tableName start.metadata start.symbols)).bind ?_
    rintro _ _ (⟨e⟩ | ⟨writer, serial⟩)
    · exact Task.alike_throw_bind _
    · refine (Task.alike_lift (Dialogue.alike_report _)).bind ?_
      rintro _ _ rfl
      refine (Task.alike_set (.intro hpeer hconnections (.some ⟨serial, rfl⟩))).bind ?_
      rintro _ _ rfl
      exact enter_alike _

theorem onEvent_alike (label : String) (event : ConnectionEvent) :
    Task.Alike ρ (Alike ρ) Eq (onEvent label event) (onEvent label event) := by
  cases event with
  | tableInfo info => exact onTableInfo_alike label info
  | streamStart start => exact onStreamStart_alike start

theorem pollConnections_alike (is : List Nat) :
    Task.Alike ρ (Alike ρ) Eq (pollConnections is) (pollConnections is) := by
  induction is with
  | nil => exact Task.alike_pure rfl
  | cons i rest ih =>
    unfold pollConnections
    refine Task.alike_get.bind ?_
    rintro h _ ⟨-, hconnections, -⟩
    have hfound := forall₂_getElem? hconnections i
    dsimp only [renamed]
    generalize h.connections[i]? = found at hfound ⊢
    generalize (_ : List Connection)[i]? = found' at hfound ⊢
    cases hfound with
    | none =>
      refine (Task.alike_lift (Dialogue.alike_note (.absent i))).bind ?_
      rintro _ _ rfl
      exact ih
    | some hc =>
      refine (onConnection_alike i hc Connection.poll_alike).bind ?_
      rintro ⟨busy, event⟩ _ rfl
      have hrest : Task.Alike ρ (Alike ρ) Eq
          (do return busy || (← pollConnections rest) : Task Handler Bool)
          (do return busy || (← pollConnections rest)) := by
        refine ih.bind ?_
        rintro more _ rfl
        exact Task.alike_pure rfl
      obtain ⟨-, -, -⟩ := hc
      cases event with
      | none => exact hrest
      | some event =>
        refine (onEvent_alike _ event).bind ?_
        rintro _ _ rfl
        exact hrest

/-! ### The handoff -/

theorem handWriter_alike : Task.Alike ρ (Alike ρ) Eq handWriter handWriter := by
  unfold handWriter
  refine Task.alike_get.bind ?_
  rintro h _ ⟨hpeer, hconnections, hwriter⟩
  refine Task.alike_ite .rfl (fun _ => Task.alike_pure rfl) fun _ => ?_
  dsimp only [renamed]
  generalize h.writer = writer at hwriter ⊢
  cases hwriter with
  | none => exact Task.alike_throw _
  | some hsame =>
    obtain ⟨serial, rfl⟩ := hsame
    rw [hpeer]
    refine (Task.alike_lift (Dialogue.alike_offerWriter h.masterTableId _ serial)).bind ?_
    rintro accepted _ rfl
    refine Task.alike_ite .rfl (fun _ => ?_) fun _ => ?_
    · refine (Task.alike_set (.intro rfl hconnections .none)).bind ?_
      rintro _ _ rfl
      exact Task.alike_pure rfl
    · refine (Task.alike_lift (Dialogue.alike_report _)).bind ?_
      rintro _ _ rfl
      exact Task.alike_pure rfl

theorem handConnections_alike (is : List Nat) :
    Task.Alike ρ (Alike ρ) Eq (handConnections is) (handConnections is) := by
  induction is with
  | nil => exact Task.alike_pure rfl
  | cons i rest ih =>
    unfold handConnections
    refine Task.alike_get.bind ?_
    rintro h _ ⟨-, hconnections, -⟩
    have hfound := forall₂_getElem? hconnections i
    dsimp only [renamed]
    generalize h.connections[i]? = found at hfound ⊢
    generalize (_ : List Connection)[i]? = found' at hfound ⊢
    cases hfound with
    | none =>
      refine (Task.alike_lift (Dialogue.alike_note (.absent i))).bind ?_
      rintro _ _ rfl
      exact ih
    | some hc =>
      refine Task.alike_ite (by rw [hc.isTransferred]) (fun _ => ih) fun _ => ?_
      refine (onConnection_alike i hc Connection.tryTransfer_alike).bind ?_
      rintro taken _ rfl
      refine Task.alike_ite .rfl (fun _ => ?_) fun _ => ?_
      · refine ih.bind ?_
        rintro handing _ rfl
        exact Task.alike_pure rfl
      · refine (Task.alike_lift (Dialogue.alike_report _)).bind ?_
        rintro _ _ rfl
        exact Task.alike_pure rfl

theorem pollHandoff_alike (now : Instant) :
    Task.Alike ρ (Alike ρ) Eq (pollHandoff now) (pollHandoff now) := by
  unfold pollHandoff
  refine Task.alike_get.bind ?_
  rintro h _ ⟨-, -, -⟩
  refine handWriter_alike.bind ?_
  rintro handed _ rfl
  refine Task.alike_ite .rfl (fun _ => Task.alike_pure rfl) fun _ => ?_
  refine Task.alike_get.bind fun h₁ h₁' hh₁ => ?_
  rw [← List.Forall₂.length_eq hh₁.connections]
  refine (handConnections_alike _).bind ?_
  rintro handing _ rfl
  refine Task.alike_ite .rfl (fun _ => Task.alike_pure rfl) fun _ => ?_
  refine (enter_alike _).bind ?_
  rintro _ _ rfl
  refine Task.alike_get.bind ?_
  rintro h₂ _ ⟨-, -, -⟩
  refine (Task.alike_lift (Dialogue.alike_report _)).bind ?_
  rintro _ _ rfl
  exact Task.alike_pure rfl

/-! ### One step -/

theorem advance_alike (now : Instant) : Task.Alike ρ (Alike ρ) Eq (advance now) (advance now) := by
  have hlast : ∀ busy : Bool, Task.Alike ρ (Alike ρ) Eq
      (do if (← get).phase = .handingOff then
            let moved ← pollHandoff now
            return busy || moved
          return busy : Task Handler Bool)
      (do if (← get).phase = .handingOff then
            let moved ← pollHandoff now
            return busy || moved
          return busy) := by
    intro busy
    refine Task.alike_get.bind fun h h' hh => ?_
    rw [hh.phase]
    refine Task.alike_ite .rfl (fun _ => ?_) fun _ => Task.alike_pure rfl
    refine (pollHandoff_alike now).bind ?_
    rintro moved _ rfl
    exact Task.alike_pure rfl
  unfold advance
  refine Task.alike_get.bind fun h h' hh => ?_
  rw [hh.phase, forall₂_all hh.connections fun _ _ => Connection.Alike.hasRequestedTableInfo]
  have hnext : ∀ connected : Bool, Task.Alike ρ (Alike ρ) Eq
      (do let h ← get
          let agreed := h.phase = .awaitingRendezvous && h.allReady
          if agreed then onRendezvous
          if (← get).phase = .handingOff then
            let moved ← pollHandoff now
            return connected || agreed || moved
          return connected || agreed : Task Handler Bool)
      (do let h ← get
          let agreed := h.phase = .awaitingRendezvous && h.allReady
          if agreed then onRendezvous
          if (← get).phase = .handingOff then
            let moved ← pollHandoff now
            return connected || agreed || moved
          return connected || agreed) := by
    intro connected
    refine Task.alike_get.bind fun h h' hh => ?_
    rw [hh.phase, hh.allReady]
    refine Task.alike_ite .rfl (fun _ => ?_) fun _ => hlast _
    refine onRendezvous_alike.bind ?_
    rintro _ _ rfl
    exact hlast _
  refine Task.alike_ite .rfl (fun _ => ?_) fun _ => hnext _
  refine (enter_alike _).bind ?_
  rintro _ _ rfl
  exact hnext _

theorem pollHandshake_alike (now : Instant) :
    Task.Alike ρ (Alike ρ) Eq (pollHandshake now) (pollHandshake now) := by
  unfold pollHandshake
  refine Task.alike_get.bind fun h h' hh => ?_
  have hpositions : h'.polledPositions = h.polledPositions := by
    unfold polledPositions
    rw [hh.allReady, List.Forall₂.length_eq hh.connections]
  rw [hpositions]
  obtain ⟨-, -, -⟩ := hh
  refine Task.alike_ite .rfl (fun _ => pollHandoff_alike now) fun _ => ?_
  refine Task.alike_ite .rfl (fun _ => Task.alike_throw _) fun _ => ?_
  refine (pollConnections_alike _).bind ?_
  rintro busy _ rfl
  refine (advance_alike now).bind ?_
  rintro advanced _ rfl
  exact Task.alike_pure rfl

theorem poll_alike (now : Instant) : Work.Alike ρ (Alike ρ) Eq (poll now) (poll now) := by
  unfold poll
  refine Work.alike_get.bind fun h h' hh => ?_
  rw [hh.phase]
  refine Work.alike_ite .rfl (fun _ => ?_) fun _ => ?_
  · refine (pollHandshake_alike now).perform.bind ?_
    rintro _ _ (⟨rfl⟩ | ⟨f⟩)
    · exact Work.alike_pure rfl
    · refine (fail_alike f).bind ?_
      rintro _ _ rfl
      exact Work.alike_pure rfl
  · exact Work.alike_ite .rfl (fun _ => pollStopping_alike) fun _ => Work.alike_pure rfl

end Handler

end ReplicaHandshake
