import Mathlib.Data.List.TakeWhile
import ReplicaHandshake.Proofs.Connection.Retries
import ReplicaHandshake.Proofs.Handler.Drained
import ReplicaHandshake.Proofs.Handler.Postings

/-!
# Retries

A handler reports that something is to be tried again when the multiplexer has refused it, and of
connections also when one cannot be offered yet, since bytes are still to be written and the call
that writes them would have had to wait.  The latter are the *stalls* of a handler: the calls that
would have had to wait after the multiplexer has taken the writer.  There are no other such reports
(`Booked.retries`, `poll_settles`).

Before the handoff nothing is offered and nothing to be tried again
(`pollConnections_precedes`, `advance_early`); in the handoff every attempt that comes to
nothing is reported at once (`handConnections_due`).
-/

namespace ReplicaHandshake

/-! ### Writers and peers -/

section Booked

variable {tableName target : String} {isOver : Bool} {hs : List Happening}

theorem Happening.retries_of_isPlain {x : Happening} (h : x.isPlain = true) :
    x.retried? = none ∧ x.refused? = none := by
  constructor
  · unfold retried?
    split
    · cases h
    · rfl
  · unfold refused?
    split <;> first | rfl | cases h

/-- Except for connections, only what was refused is tried again. -/
theorem Posting.retries (hpost : Posting tableName isOver hs) (hother : target ≠ "connection") :
    (retries hs).count target = (refusals hs).count target := by
  cases hpost with
  | plain hplain =>
    obtain ⟨hretried, hrefused⟩ := Happening.retries_of_isPlain hplain
    simp [ReplicaHandshake.retries, refusals, hretried, hrefused]
  | waits =>
    exact List.count_eq_zero.2
      (by simpa [ReplicaHandshake.retries, Happening.retried?] using hother)
  | _ => rfl

theorem Booked.retries (hbooked : Booked tableName isOver hs) (hother : target ≠ "connection") :
    (retries hs).count target = (refusals hs).count target := by
  induction hbooked with
  | nil => rfl
  | post hpost _ ih =>
    rw [retries_append, refusals_append, List.count_append, List.count_append, hpost.retries hother,
      ih]

end Booked

/-! ### Stalls -/

/-- The calls that would have had to wait after the multiplexer has taken the writer. -/
def stalls (hs : List Happening) : Nat :=
  (hs.dropWhile (·.takenWriter?.isNone)).countP (·.isBlocked)

variable {hs hs' : List Happening}

theorem stalls_of_untaken (h : takenWriters hs = []) : stalls hs = 0 := by
  have hnone : ∀ x ∈ hs, x.takenWriter?.isNone = true := fun x hx => by
    rw [List.filterMap_eq_nil_iff.1 h x hx]
    rfl
  rw [stalls, List.dropWhile_eq_nil_iff.2 hnone]
  rfl

theorem stalls_append (past hs : List Happening) :
    stalls (past ++ hs) = stalls past + if takenWriters past = [] then
      stalls hs else hs.countP (·.isBlocked) := by
  induction past with
  | nil => simp [stalls, takenWriters]
  | cons x past ih =>
    cases htaken : x.takenWriter? with
    | none => simpa [stalls, takenWriters, htaken] using ih
    | some writer => simp [stalls, takenWriters, htaken, List.countP_cons, Nat.add_right_comm]

/-- Every report that a connection is to be offered again has its refusal or its stall, whether the
multiplexer had taken the writer before or not. -/
def Settles (given : Bool) (hs : List Happening) : Prop :=
  (retries hs).count "connection" =
    (refusals hs).count "connection" + if given then hs.countP (·.isBlocked) else stalls hs

theorem Due.settles (h : Due 0 hs) : Settles true hs :=
  h

theorem Settles.append {given later : Bool} (h : Settles given hs) (h' : Settles later hs')
    (hlater : later = true ↔ given = true ∨ takenWriters hs ≠ []) : Settles given (hs ++ hs') := by
  unfold Settles at *
  rw [retries_append, refusals_append, List.count_append, List.count_append, List.countP_append,
    stalls_append, h, h']
  cases given with
  | true =>
    rw [if_pos rfl, if_pos (hlater.2 (.inl rfl)), if_pos rfl]
    omega
  | false =>
    by_cases hnone : takenWriters hs = []
    · have hearly : ¬later = true :=
        fun h => (hlater.1 h).elim Bool.false_ne_true fun hsome => hsome hnone
      rw [if_neg Bool.false_ne_true, if_neg hearly, if_neg Bool.false_ne_true, if_pos hnone]
      omega
    · rw [if_neg Bool.false_ne_true, if_pos (hlater.2 (.inr hnone)), if_neg Bool.false_ne_true,
        if_neg hnone]
      omega

/-- Nothing is refused and nothing to be tried again, and no call that writes would
have had to wait. -/
structure Happening.IsSmooth (x : Happening) : Prop where
  retried : x.retried? = none
  refused : x.refused? = none
  blocked : x.isBlocked = false

theorem settles_of_smooth {given : Bool} (h : ∀ x ∈ hs, x.IsSmooth) : Settles given hs := by
  have hretries : retries hs = [] := List.filterMap_eq_nil_iff.2 fun x hx => (h x hx).retried
  have hrefusals : refusals hs = [] := List.filterMap_eq_nil_iff.2 fun x hx => (h x hx).refused
  have hblocked : ∀ l : List Happening, (∀ x ∈ l, x ∈ hs) → l.countP (·.isBlocked) = 0 :=
      fun l hl =>
    List.countP_eq_zero.2 fun x hx => by simp [(h x (hl x hx)).blocked]
  have hstalls : stalls hs = 0 := hblocked _ fun x hx => List.dropWhile_subset _ hx
  rw [Settles, hretries, hrefusals, hstalls, hblocked hs fun _ hx => hx]
  cases given <;> rfl

theorem Settles.smooth {given : Bool} (h : Settles given hs) (hsmooth : ∀ x ∈ hs', x.IsSmooth) :
    Settles given (hs ++ hs') :=
  h.append (settles_of_smooth hsmooth)
    (decide_eq_true_iff (p := given = true ∨ takenWriters hs ≠ []))

/-! ### Before the handoff -/

/-- Nothing is offered, and nothing to be tried again. -/
def Early (hs : List Happening) : Prop :=
  ∀ x ∈ hs, x.isOffer = false ∧ x.retried? = none

theorem early_nil : Early [] :=
  List.forall_mem_nil _

theorem Early.append (h : Early hs) (h' : Early hs') : Early (hs ++ hs') :=
  List.forall_mem_append.2 ⟨h, h'⟩

theorem Early.untaken (h : Early hs) : takenWriters hs = [] :=
  Handler.Unoffered.taken (fun x hx => (h x hx).1) |>.2

/-- Where nothing is offered, no connection is refused. -/
theorem Happening.refused?_of_isOffer {x : Happening} (h : x.isOffer = false) :
    x.refused? ≠ some "connection" := by
  unfold refused?
  split
  · cases h
  · cases h
  · decide
  · exact nofun

theorem Early.settles (h : Early hs) : Settles false hs := by
  have hretries : retries hs = [] := List.filterMap_eq_nil_iff.2 fun x hx => (h x hx).2
  have hrefusals : (refusals hs).count "connection" = 0 := by
    refine List.count_eq_zero.2 fun hmem => ?_
    obtain ⟨x, hx, hrefused⟩ := List.mem_filterMap.1 hmem
    exact Happening.refused?_of_isOffer (h x hx).1 hrefused
  rw [Settles, hretries, hrefusals, if_neg Bool.false_ne_true, stalls_of_untaken h.untaken]
  rfl

namespace Connection

variable {c c' : Connection}

theorem early_of_traffic (h : ∀ x ∈ hs, Traffic c x) : Early hs := by
  intro x hx
  cases h x hx <;> exact ⟨rfl, rfl⟩

theorem early_of_steps (h : Way Step c hs c') : Early hs := by
  induction h with
  | refl => exact early_nil
  | tail _ hstep ih => exact ih.append (early_of_traffic hstep.traffic.2)

theorem Heard.early {event : Option ConnectionEvent} (h : Heard c hs event c') : Early hs := by
  cases event with
  | none => exact h.1 ▸ early_nil
  | some event =>
    cases h with
    | accept => simp [Early, Happening.isOffer, Happening.retried?]

theorem poll_early (c : Connection) : Task.Happens poll c Early := by
  refine (poll_always c).mono ?_ ?_
  · rintro _ _ _ ⟨_, hs₁, hs₂, rfl, hsteps, hheard⟩
    exact (early_of_steps hsteps).append hheard.early
  · rintro _ _ _ ⟨_, hs₁, hs₂, rfl, hsteps, hfault⟩
    exact (early_of_steps hsteps).append (early_of_traffic hfault.traffic.2)

theorem requestStream_early (r : RequestReplicationStream) (c : Connection) :
    Task.Happens (requestStream r) c Early := by
  by_cases hstate : c.state = .ready
  case neg => simpa [requestStream, hstate] using early_nil
  have hasked : ∀ {hs : List Happening}, (∀ x ∈ hs, Traffic c x) →
      Early (.noted (.queued c.socketId (.requestReplicationStream r)) :: hs) :=
    fun h => List.forall_mem_cons.2 ⟨⟨rfl, rfl⟩, early_of_traffic h⟩
  refine (requestStream_always hstate).mono ?_ ?_
  · intro hs _ _ hrequest
    obtain ⟨-, rest, rfl, htraffic⟩ := hrequest.traffic
    exact hasked htraffic
  · intro hs _ _ hfault
    obtain ⟨-, rfl | ⟨rest, rfl, htraffic⟩⟩ := hfault.traffic
    · exact early_nil
    · exact hasked htraffic

end Connection

namespace Handler

variable {h h' : Handler} {past : List Happening} {table : TableSettings}

/-- A task that comes before the handoff: nothing is offered by it, and the writer
stays where it is. -/
def Precedes {α : Type} (t : Task Handler α) : Prop :=
  ∀ h, Task.Always t h (fun hs _ h' => Early hs ∧ h'.writerTransferred = h.writerTransferred)
    (fun hs _ h' => Early hs ∧ h'.writerTransferred = h.writerTransferred)

section Precedes

variable {α β : Type}

theorem precedes_pure (a : α) : Precedes (pure a) :=
  fun _ => Task.always_pure.2 ⟨early_nil, rfl⟩

theorem precedes_throw (f : Failure) : Precedes (throw f : Task Handler α) :=
  fun _ => Task.always_throw.2 ⟨early_nil, rfl⟩

theorem precedes_bind {t : Task Handler α} {f : α → Task Handler β} (ht : Precedes t)
    (hf : ∀ a, Precedes (f a)) :
    Precedes (t >>= f) := by
  intro h
  rw [Task.always_bind]
  refine (ht h).mono ?_ fun _ _ _ h => h
  rintro hs a h₁ ⟨hearly, hsame⟩
  refine (hf a h₁).mono ?_ ?_
  all_goals
    rintro hs' _ h₂ ⟨hearly', hsame'⟩
    exact ⟨hearly.append hearly', hsame'.trans hsame⟩

theorem onConnection_precedes {i : Nat} {c : Connection} {task : Task Connection α}
    (h : Task.Happens task c Early) : Precedes (onConnection i c task) :=
  fun _ => onConnection_always.2
    (Task.Always.mono h (fun _ _ _ h => ⟨h, rfl⟩) fun _ _ _ h => ⟨h, rfl⟩)

theorem enter_precedes (new : Phase) : Precedes (enter new) := by
  intro h
  simp only [enter, Task.always_bind, Task.always_get, List.nil_append]
  split
  · simp [note, Early, Happening.isOffer, Happening.retried?]
  · simp [report, Early, Happening.isOffer, Happening.retried?]

theorem onTableInfo_precedes (label : String) (info : TableInfo) :
    Precedes (onTableInfo label info) := by
  intro h
  refine onTableInfo_always.mono ?_ ?_
  · rintro _ _ _ ⟨-, rfl, rfl⟩
    exact ⟨early_nil, rfl⟩
  · rintro _ _ _ ⟨-, rfl, rfl, -⟩
    exact ⟨early_nil, rfl⟩

theorem onStreamStart_precedes (start : StartOfReplicationStream) :
    Precedes (onStreamStart start) := by
  intro h
  simp only [onStreamStart, Task.always_bind, Task.always_get, List.nil_append]
  cases h.writer with
  | some writer => simpa using enter_precedes .handingOff h
  | none =>
    simp only [Option.isNone_none, if_true, Dialogue.createTable, Dialogue.call, Task.always_bind,
      Task.always_lift, Dialogue.always_ask, Dialogue.always_done]
    intro answer
    cases answer with
    | error e => simp [Early, Happening.isOffer, Happening.retried?]
    | ok writer =>
      have hfront : Early
          [.answered (.createTable h.tableName start.metadata start.symbols) (.ok writer),
          .reported (.tableCreated h.tableName)] := by
        simp [Early, Happening.isOffer, Happening.retried?]
      simp only [report, Task.always_bind, Task.always_lift, Task.always_set,
        Dialogue.always_metric, List.cons_append, List.nil_append]
      refine (enter_precedes .handingOff { h with writer := some writer }).mono ?_ ?_
      all_goals exact fun _ _ _ hentered => hentered.imp_left hfront.append

theorem onEvent_precedes (label : String) (event : ConnectionEvent) :
    Precedes (onEvent label event) := by
  cases event with
  | tableInfo info => exact onTableInfo_precedes label info
  | streamStart start => exact onStreamStart_precedes start

theorem pollConnections_precedes (positions : List Nat) : Precedes (pollConnections positions) := by
  induction positions with
  | nil => exact precedes_pure false
  | cons i positions ih =>
    intro h
    simp only [pollConnections]
    rw [Task.always_bind, Task.always_get]
    simp only [List.nil_append]
    split
    · refine precedes_bind (fun h => ?_) (fun _ => ih) h
      simp [note, Early, Happening.isOffer, Happening.retried?]
    next c _ =>
      refine precedes_bind (onConnection_precedes c.poll_early) (fun polled => ?_) h
      have hrest : Precedes (do let busy ← pollConnections positions; return polled.busy || busy) :=
        precedes_bind ih fun _ => precedes_pure _
      cases polled.event with
      | none => exact hrest
      | some event => exact precedes_bind (onEvent_precedes c.label event) fun _ => hrest

theorem resolveTable_precedes : Precedes resolveTable := by
  intro h
  simp only [resolveTable, Task.always_bind, Task.always_get, Dialogue.tableExists,
  Dialogue.openWriter, Dialogue.releaseWriter, Dialogue.call, Task.always_lift,
    Dialogue.always_ask, Dialogue.always_done, List.nil_append]
  intro answer
  rcases answer with e | _ | _
  · simp [Early, Happening.isOffer, Happening.retried?]
  · simp [Early, Happening.isOffer, Happening.retried?]
  · simp only [Task.always_bind, Task.always_lift, Dialogue.always_ask, Dialogue.always_done]
    intro answer
    cases answer with
    | error e => simp [Early, Happening.isOffer, Happening.retried?]
    | ok writer =>
      by_cases hversion : writer.structureVersion = h.structureVersion <;>
        simp [hversion, Early, Happening.isOffer, Happening.retried?]

theorem onRendezvous_precedes : Precedes onRendezvous := by
  refine precedes_bind resolveTable_precedes fun rows h => ?_
  rw [Task.always_bind, Task.always_get]
  simp only [List.nil_append]
  split
  · exact precedes_throw _ h
  next first _ _ =>
    refine precedes_bind (onConnection_precedes (first.requestStream_early _)) (fun _ => ?_) h
    exact enter_precedes .requestingStream

end Precedes

theorem enter_phase (new : Phase) :
    Task.Always (enter new) h (fun _ _ h' => h'.phase = new) (fun _ _ _ => True) := by
  simp only [enter, Phase.moveTo, Task.always_bind, Task.always_get]
  by_cases hmove : h.phase.canMoveTo new <;> simp [hmove, report, note]

theorem onRendezvous_phase :
    Task.Always onRendezvous h (fun _ _ h' => h'.phase = .requestingStream)
      (fun _ _ _ => True) := by
  rw [onRendezvous, Task.always_bind]
  refine Task.always_of_forall (fun _ rows h₁ => ?_) fun _ _ _ => trivial
  rw [Task.always_bind, Task.always_get]
  split
  · exact Task.always_throw.2 trivial
  · rw [Task.always_bind]
    refine Task.always_of_forall (fun _ _ h₂ => ?_) fun _ _ _ => trivial
    exact enter_phase .requestingStream

theorem early_bind {σ α β : Type} {t : Task σ α} {f : α → Task σ β} {s : σ}
    (h : Task.Always t s (fun hs a s' => Early hs ∧ Task.Happens (f a) s' Early)
      (fun hs _ _ => Early hs)) :
    Task.Happens (t >>= f) s Early := by
  rw [Task.happens_bind]
  refine h.mono ?_ fun _ _ _ h => h
  rintro hs a s' ⟨hearly, hrest⟩
  exact hrest.mono fun _ => hearly.append

/-- Where it does not come to the handoff, a step to the next phase comes before it. -/
theorem advance_early {now : Instant} (hphase : h.phase ≠ .handingOff) :
    Task.Happens (advance now) h Early := by
  have hlast : ∀ (busy : Bool) (h : Handler), h.phase ≠ .handingOff → Task.Happens (do
      if (← get).phase = .handingOff then
        let moved ← pollHandoff now
        return busy || moved
      return busy) h Early := by
    intro busy h hphase
    simpa [hphase] using early_nil
  have hagree : ∀ (connected : Bool) (h : Handler), h.phase ≠ .handingOff → Task.Happens (do
      let h ← get
      let agreed := h.phase = .awaitingRendezvous && h.allReady
      if agreed then onRendezvous
      if (← get).phase = .handingOff then
        let moved ← pollHandoff now
        return connected || agreed || moved
      return connected || agreed) h Early := by
    intro connected h hphase
    refine Task.always_bind.2 (Task.always_get.2 ?_)
    simp only [List.nil_append]
    split
    · refine early_bind
        (((onRendezvous_precedes h).and onRendezvous_phase).mono ?_ fun _ _ _ h => h.1.1)
      rintro hs _ h₁ ⟨⟨hearly, -⟩, hphase₁⟩
      exact ⟨hearly, hlast _ h₁ (by rw [hphase₁]; decide)⟩
    · exact hlast _ h hphase
  refine Task.always_bind.2 (Task.always_get.2 ?_)
  simp only [List.nil_append]
  split
  · refine early_bind
      (((enter_precedes .awaitingRendezvous h).and (enter_phase _)).mono ?_ fun _ _ _ h => h.1.1)
    rintro hs _ h₁ ⟨⟨hearly, -⟩, hphase₁⟩
    exact ⟨hearly, hagree _ h₁ (by rw [hphase₁]; decide)⟩
  · exact hagree _ h hphase

/-! ### The handoff -/

/-- A connection of a handler writes what it has to write, before it offers its socket. -/
theorem Life.canWrite (hlife : Life table past h) : ∀ c ∈ h.connections, c.CanWrite := by
  refine hlife.forall_connections (P := fun _ c => c.CanWrite)
    (fun hopened => .inl hopened.holds.2.2) ?_
    (fun h _ => h) (fun hact hwrites => hact.canWrite hwrites)
  intro past c hsound htransferred
  rw [Connection.isTransferred, decide_eq_true_eq] at htransferred
  simp only [Connection.Sound, htransferred] at hsound
  exact .inl hsound.1.2.2

/-- Every attempt to hand over a connection that comes to nothing is reported at once. -/
theorem handConnections_due (given : List Connection) {left : List Connection} (hsound : h.Sound)
    (hphase : h.phase = .handingOff) (hwriter : h.writerTransferred = true)
    (hconnections : h.connections = given ++ left) (hgiven : ∀ c ∈ given, c.isTransferred)
    (hwrites : ∀ c ∈ left, c.CanWrite) :
    Task.Happens (handConnections (List.range' given.length left.length)) h (Due 0) := by
  induction left generalizing given h with
  | nil => exact Task.always_pure.2 due_nil
  | cons c left ih =>
    obtain ⟨hwrites, hlater⟩ := List.forall_mem_cons.1 hwrites
    have hc : h.connections[given.length]? = some c := by simp [hconnections]
    have hset : ∀ c', { h with connections := h.connections.set given.length c' } =
        h.put given c' left := by
      simp [put, hconnections]
    have hrest : ∀ c', (h.put given c' left).Sound → c'.isTransferred →
        Task.Happens (handConnections (List.range' (given.length + 1) left.length))
          (h.put given c' left) (Due 0) := by
      intro c' hsound' htransferred
      have hmore : ∀ x ∈ given ++ [c'], x.isTransferred :=
        List.forall_mem_append.2 ⟨hgiven, by simpa using htransferred⟩
      have hlast := ih (given ++ [c']) hsound' hphase hwriter (by simp) hmore hlater
      rwa [List.length_append, List.length_singleton] at hlast
    simp only [List.length_cons, List.range'_succ, handConnections, Task.always_bind,
      Task.always_get, hc, List.nil_append]
    split
    next htransferred =>
      have hself := hrest c (by rwa [put_self hconnections]) htransferred
      rwa [put_self hconnections] at hself
    next hfree =>
      rw [Bool.not_eq_true] at hfree
      have hhands : h.Hands given c left := ⟨hphase, hwriter, hconnections, hgiven, hfree⟩
      simp only [Task.always_bind, onConnection_always, hset]
      refine ((tryTransfer_moves hsound hhands).and
        (Connection.tryTransfer_due (hsound.state_of_hands hhands)
        (hsound.kept_of_hands hhands) hwrites)).mono ?_ fun _ _ _ h => h.2
      rintro hs taken c' ⟨⟨htaken, hway⟩, hdue⟩
      cases taken with
      | true =>
        simp only [if_true, Task.always_bind, Task.always_pure, List.append_nil]
        exact (hrest c' (hsound.of_way hway) htaken).mono fun _ => hdue.append
      | false => simpa [report] using hdue.reported

theorem handWriter_settles (hfree : h.writerTransferred = false) :
    Task.Always handWriter h
      (fun hs given _ => Settles false hs ∧ (given = true → takenWriters hs ≠ []))
      (fun hs _ _ => Settles false hs) := by
  simp only [handWriter, hfree, Bool.false_eq_true, if_false, Task.always_bind, Task.always_get,
    List.nil_append]
  cases h.writer with
  | none => exact Task.always_throw.2 rfl
  | some writer =>
    simp only [Dialogue.offerWriter, Dialogue.call, Task.always_bind, Task.always_lift,
      Dialogue.always_ask, Dialogue.always_done]
    intro taken
    cases taken with
    | true =>
      simp only [if_true, Task.always_bind, Task.always_set, Task.always_pure, List.append_nil]
      exact ⟨rfl, fun _ => List.cons_ne_nil _ _⟩
    | false =>
      simp only [Bool.false_eq_true, if_false, Task.always_bind, Task.always_lift, report,
        Dialogue.always_metric, Task.always_pure, false_implies, and_true]
      rfl

theorem streams_due (now : Instant) (h : Handler) :
    Task.Happens (do
      enter .streaming
      let h ← get
      report (.handshakeDuration h.tableName (h.elapsed now))
      return true) h (Due 0) := by
  have henter : Task.Happens (enter .streaming) h (Due 0) := by
    simp only [enter, Task.always_bind, Task.always_get, List.nil_append]
    split
    · simp only [note, Task.always_bind, Task.always_lift, Dialogue.always_note, Task.always_throw,
        List.append_nil]
      rfl
    · simp only [report, Task.always_bind, Task.always_set, Task.always_lift,
        Dialogue.always_metric]
      rfl
  rw [Task.happens_bind]
  refine Task.Always.mono henter ?_ fun _ _ _ h => h
  intro hs _ h₁ hdue
  simp only [report, Task.always_bind, Task.always_get, Task.always_lift, Dialogue.always_metric,
    Task.always_pure, List.nil_append, List.append_nil]
  exact hdue.append (m := 0) rfl

theorem pollHandoff_settles {now : Instant} (hlife : Life table past h)
    (hphase : h.phase = .handingOff) :
    Task.Happens (pollHandoff now) h (Settles h.writerTransferred) := by
  have hsound := hlife.sound
  have hrest : ∀ (h : Handler) (hadWriter : Bool), h.Sound → h.phase = .handingOff →
      h.writerTransferred = true →
      (∀ c ∈ h.connections, c.CanWrite) → Task.Happens (do
        let handing ← handConnections (List.range (← get).connections.length)
        if !handing.complete then return !hadWriter || handing.progress
        enter .streaming
        let h ← get
        report (.handshakeDuration h.tableName (h.elapsed now))
        return true) h (Settles true) := by
    intro h hadWriter hsound hphase hwriter hwrites
    have hhand :=
      handConnections_due [] hsound hphase hwriter (List.nil_append _).symm (by simp) hwrites
    rw [List.length_nil, ← List.range_eq_range'] at hhand
    rw [Task.happens_bind, Task.always_get]
    simp only [List.nil_append]
    rw [Task.happens_bind]
    refine Task.Always.mono hhand ?_ fun _ _ _ h => h.settles
    intro hs handing h₁ hdue
    cases handing.complete with
    | false => simpa using hdue.settles
    | true => exact (streams_due now h₁).mono fun _ => hdue.append
  rw [pollHandoff, Task.happens_bind, Task.always_get]
  simp only [List.nil_append]
  rw [Task.happens_bind]
  cases hwriter : h.writerTransferred with
  | true =>
    simp only [handWriter, hwriter, if_true, Task.always_bind, Task.always_get, Task.always_pure,
      List.nil_append]
    exact hrest h true hsound hphase hwriter hlife.canWrite
  | false =>
    refine ((handWriter_always hsound hphase).and (handWriter_settles hwriter)).mono ?_
      fun _ _ _ h => h.2
    rintro hs given h₁ ⟨⟨hway, hphase₁, hwriter₁⟩, hsettles, htaken⟩
    cases given with
    | false => simpa using hsettles
    | true =>
      have hlater : true = true ↔ false = true ∨ takenWriters hs ≠ [] :=
        iff_of_true rfl (.inr (htaken rfl))
      have hlife₁ := hlife.of_way (hway.mono fun _ _ _ => .move)
      exact (hrest h₁ false hlife₁.sound hphase₁ hwriter₁ hlife₁.canWrite).mono fun _ h =>
        hsettles.append h hlater

/-! ### Polls -/

theorem pollHandshake_settles {now : Instant} (hlife : Life table past h)
    (hphase : h.phase.isHandshaking) :
    Task.Happens (pollHandshake now) h (Settles h.writerTransferred) := by
  rw [pollHandshake, Task.happens_bind, Task.always_get]
  simp only [List.nil_append]
  split
  next hoff => exact pollHandoff_settles hlife hoff
  next hoff =>
    have hsound := hlife.sound
    have hpolls : h.IsGathering ∨ h.phase = .requestingStream := by
      unfold IsGathering
      cases hp : h.phase <;> simp_all [Phase.isHandshaking]
    have hfree : h.writerTransferred = false :=
      hpolls.elim (fun h => (hsound.gathers h).writerTransferred) fun h =>
        (hsound.requests h).writerTransferred
    rw [hfree]
    split
    · exact Task.always_throw.2 early_nil.settles
    rw [Task.happens_bind]
    refine ((pollConnections_always hsound hpolls).and (pollConnections_precedes _ h)).mono ?_
      fun _ _ _ h => h.2.1.settles
    rintro hs busy h₁ ⟨⟨hway, -⟩, hearly, hsame⟩
    have hlife₁ := hlife.of_way (hway.mono fun _ _ _ => .move)
    have hfree₁ : h₁.writerTransferred = false := hsame.trans hfree
    have hnever : false = true ↔ false = true ∨ takenWriters hs ≠ [] := by simp [hearly.untaken]
    have hadvance : Task.Happens (advance now) h₁ (Settles false) := by
      by_cases hoff₁ : h₁.phase = .handingOff
      · have hhands : Task.Happens (pollHandoff now) h₁ _ := pollHandoff_settles hlife₁ hoff₁
        rw [hfree₁] at hhands
        simpa [advance, hoff₁] using hhands
      · exact (advance_early hoff₁).mono fun _ => Early.settles
    simp only [Task.always_bind, Task.always_pure, List.append_nil]
    exact hadvance.mono fun _ h => hearly.settles.append h hnever

theorem stopHappenings_smooth (h : Handler) : ∀ x ∈ h.stopHappenings, x.IsSmooth := by
  intro x hx
  obtain rfl | hx := mem_stopHappenings hx
  · exact ⟨rfl, rfl, rfl⟩
  · cases hx <;> exact ⟨rfl, rfl, rfl⟩

theorem stopForHappenings_smooth (h : Handler) (kind : String) :
    ∀ x ∈ h.stopForHappenings kind, x.IsSmooth :=
  List.forall_mem_cons.2 ⟨⟨rfl, rfl, rfl⟩, h.stopHappenings_smooth⟩

theorem pollStopping_settles (given : Bool) :
    Work.Always pollStopping h fun hs _ _ => Settles given hs := by
  simp only [pollStopping, Work.always_bind, Work.always_get, List.nil_append]
  split
  · exact Work.always_pure.2 (settles_of_smooth (List.forall_mem_nil _))
  simp only [Dialogue.stopPeer, Dialogue.call, Work.always_bind, Work.always_lift,
    Dialogue.always_ask, Dialogue.always_done]
  intro accepted
  cases accepted with
  | true =>
    simp only [if_true, Work.always_bind, Work.always_set, Work.always_pure, List.append_nil]
    exact settles_of_smooth (List.forall_mem_singleton.2 ⟨rfl, rfl, rfl⟩)
  | false =>
    simp only [Bool.false_eq_true, if_false, Work.always_bind, Work.always_lift, report,
      Dialogue.always_metric, Work.always_pure, List.append_nil]
    cases given <;> rfl

theorem poll_settles {now : Instant} (hlife : Life table past h) :
    Work.Always (poll now) h fun hs _ _ => Settles h.writerTransferred hs := by
  rw [poll, Work.always_bind, Work.always_get]
  simp only [List.nil_append]
  split
  next hphase =>
    simp only [Work.always_bind, Task.always_perform]
    refine ((pollHandshake_always hlife.sound hphase).and (pollHandshake_settles hlife hphase)).mono
      ?_ ?_
    · rintro hs busy h' ⟨-, hsettles⟩
      simpa using hsettles
    · rintro hs f h' ⟨⟨h₁, hs₁, hs₂, rfl, -, hfault⟩, hsettles⟩
      have hlive := isLive_of_isHandshaking (hfault.phase_eq ▸ hfault.isHandshaking)
      simp only [Work.always_pure, List.append_nil]
      refine (fail_always hlive.1 hlive.2).mono ?_
      rintro _ _ _ ⟨rfl, -⟩
      exact hsettles.smooth (h'.stopForHappenings_smooth f.kind)
  split
  · exact pollStopping_settles _
  · exact Work.always_pure.2 (settles_of_smooth (List.forall_mem_nil _))

/-! ### From the beginning on -/

theorem Opens.smooth {cs cs' : List Connection} {f : Option Failure} (hopens : Opens cs hs f cs') :
    ∀ x ∈ hs, x.IsSmooth := by
  induction hopens with
  | done => exact List.forall_mem_nil _
  | opened _ _ ih => exact List.forall_mem_cons.2 ⟨⟨rfl, rfl, rfl⟩, ih⟩
  | refused => exact List.forall_mem_singleton.2 ⟨rfl, rfl, rfl⟩

theorem Begins.smooth (hbegins : Begins h hs h') : ∀ x ∈ hs, x.IsSmooth := by
  have hgreetings : ∀ x ∈ h.greetings, x.IsSmooth :=
    List.forall_mem_cons.2 ⟨⟨rfl, rfl, rfl⟩, List.forall_mem_singleton.2 ⟨rfl, rfl, rfl⟩⟩
  cases hbegins with
  | opens hopens => exact List.forall_mem_append.2 ⟨hgreetings, hopens.smooth⟩
  | fails hopens =>
    exact List.forall_mem_append.2 ⟨List.forall_mem_append.2 ⟨hgreetings, hopens.smooth⟩,
      stopForHappenings_smooth _ _⟩

theorem Stops.smooth (hstops : Stops h hs h') : ∀ x ∈ hs, x.IsSmooth := by
  cases hstops with
  | stops => exact h.stopHappenings_smooth
  | isStopping => exact List.forall_mem_nil _

theorem Hears.smooth {socket : SocketId} (hhears : Hears socket h hs h') :
    ∀ x ∈ hs, x.IsSmooth := by
  cases hhears with
  | isOther | letsGo => exact List.forall_mem_nil _
  | loses => exact stopForHappenings_smooth _ _

end Handler

end ReplicaHandshake
