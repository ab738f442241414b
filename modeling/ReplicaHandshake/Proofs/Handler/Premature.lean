import ReplicaHandshake.Proofs.Handler.Rest
import ReplicaHandshake.Proofs.Handler.Starts
import ReplicaHandshake.Proofs.Reading

/-!
# Premature starts

A start of the data stream that comes before it was asked for lies in an inbound buffer until its
connection takes it out.  What is read behind it does not hide it
(`Connection.Step.isPremature`), so the connection cannot be polled without a failure
(`Connection.poll_premature`).  As long as a handler waits for its masters it polls all its
connections, so its next poll is its last one (`Handler.Life.poll_premature`).
-/

namespace ReplicaHandshake

/-- A start of the data stream is the next frame, and is there as a whole. -/
def InboundBuffer.StartsNext (b : InboundBuffer) : Prop :=
  ∃ start, b.nextFrame.1 = .ok (some (.startOfReplicationStream start))

theorem InboundBuffer.StartsNext.append {b : InboundBuffer} (hnext : b.StartsNext) (bs : Bytes) :
    StartsNext { b with buffered := b.buffered ++ bs } := by
  obtain ⟨start, hnext⟩ := hnext
  rcases hframe : b.nextFrame with ⟨frame, b'⟩
  rw [hframe] at hnext
  subst hnext
  exact ⟨start, by rw [nextFrame_append hframe]⟩

/-! ### Connections -/

namespace Connection

variable {c c' : Connection} {hs : List Happening}

/-- A start of the data stream is next, and the connection does not await it. -/
structure IsPremature (c : Connection) : Prop where
  next : c.inbound.StartsNext
  state : c.state = .awaitingTableInfo ∨ c.state = .ready
  holds : c.Holds

theorem IsPremature.ne_awaitingStreamStart (hpremature : c.IsPremature) :
    c.state ≠ .awaitingStreamStart := by
  obtain h | h := hpremature.state <;> simp [h]

theorem Write.inbound (hwrite : Write c hs c') : c'.inbound = c.inbound := by
  cases hwrite <;> rfl

/-- No step hides a premature start: what is read comes behind it. -/
theorem Step.isPremature (hstep : Step c hs c') (hpremature : c.IsPremature) : c'.IsPremature := by
  obtain ⟨hnext, hstate, hholds⟩ := hpremature
  cases hstep with
  | write hwrite =>
    obtain ⟨hsame, -, hkept⟩ := keeps_of_writes (.single hwrite)
    exact ⟨hwrite.inbound ▸ hnext, hsame ▸ hstate, hkept hholds⟩
  | wait hconnecting | ask _ hconnecting => simp [hconnecting] at hstate
  | read => exact ⟨hnext.append _, hstate, hholds⟩
  | block => exact ⟨hnext, hstate, hholds⟩

theorem IsPremature.of_steps (hpremature : c.IsPremature) (hsteps : Way Step c hs c') :
    c'.IsPremature := by
  induction hsteps with
  | refl => exact hpremature
  | tail _ hstep ih => exact hstep.isPremature ih

theorem takeFrame_premature {busy : Bool} (hpremature : c.IsPremature) :
    Task.Always (takeFrame busy) c (fun _ _ _ => False) (fun _ _ _ => True) := by
  have hstate := hpremature.ne_awaitingStreamStart
  obtain ⟨start, hnext⟩ := hpremature.next
  rcases hframe : c.inbound.nextFrame with ⟨frame, inbound⟩
  rw [hframe] at hnext
  subst hnext
  simp only [takeFrame, onFrame, onStreamStart, hframe, Task.always_bind, Task.always_get,
    Task.always_set, Task.always_lift, report, Dialogue.always_metric, hstate, ne_eq,
    not_false_eq_true, if_true, Task.always_throw]

theorem pollIo_premature (hpremature : c.IsPremature) :
    Task.Always pollIo c (fun _ _ _ => False) (fun _ _ _ => True) := by
  have hopen : c.hasRequestedTableInfo := by
    obtain h | h := hpremature.state <;> simp [hasRequestedTableInfo, h]
  refine pollIo_of_takeFrame hopen (fun _ _ _ _ => trivial) ?_ ?_
  · intro hs c₁ hsteps hnone
    obtain ⟨hsome, hsame, -⟩ := (hpremature.of_steps hsteps).holds
    simp [← hsame, hnone] at hsome
  · intro hs c₁ busy hsteps _
    exact takeFrame_premature (hpremature.of_steps hsteps)

/-- Over a premature start no poll succeeds. -/
theorem poll_premature (hpremature : c.IsPremature) :
    Task.Always poll c (fun _ _ _ => False) (fun _ _ _ => True) := by
  simp only [poll, Task.always_bind, Task.always_get]
  obtain h | h := hpremature.state <;> simpa only [h] using pollIo_premature hpremature

/-! ### Before a connection asks its master -/

/-- Before the master was asked, nothing has been read. -/
def IsUnread (c : Connection) : Prop :=
  c.state = .connecting → c.inbound.buffered = []

theorem Act.isUnread (hact : Act c hs c') (hunread : c.IsUnread) : c'.IsUnread := by
  intro hstate
  cases hact with
  | step hstep =>
    cases hstep with
    | write hwrite =>
      rw [hwrite.inbound]
      exact hunread ((keeps_of_writes (.single hwrite)).1.symm.trans hstate)
    | wait | block => exact hunread hstate
    | ask => cases hstate
    | read _ hopen =>
      have hconnecting : c.state = .connecting := hstate
      simp [hasRequestedTableInfo, hconnecting] at hopen
  | hear _ hhear =>
    cases hhear with
    | accept _ _ haccept => cases haccept <;> cases hstate
  | request _ hrequest => simp [hrequest.keeps.1] at hstate
  | offer _ hoffer =>
    cases hoffer with
    | taken => cases hstate
    | refused _ htake =>
      unfold takeHandoff at htake
      split at htake <;> cases htake
      · exact hunread hstate
      · rfl

end Connection

/-! ### Handlers -/

namespace Handler

variable {h h' : Handler} {past hs : List Happening} {table : TableSettings} {c : Connection}

/-- All its life, a handler has read nothing from a master that it has not asked. -/
theorem Life.isUnread (hlife : Life table past h) : ∀ c ∈ h.connections, c.IsUnread := by
  refine hlife.forall_connections (P := fun _ c => c.IsUnread) ?_ ?_ (fun hunread _ => hunread)
    fun hact hunread => hact.isUnread hunread
  · intro past c hopened _
    exact hopened.buffered
  · intro past c _ htransferred hstate
    simp [Connection.isTransferred, hstate] at htransferred

/-- As long as a handler waits for its masters, each start that is next is premature. -/
theorem Life.isPremature (hlife : Life table past h) (hphase : h.IsGathering)
    (hc : c ∈ h.connections) (hnext : c.inbound.StartsNext) : c.IsPremature := by
  have hgathers := hlife.sound.gathers hphase
  refine ⟨hnext, (hgathers.states c hc).resolve_left fun hconnecting => ?_, hgathers.holds c hc⟩
  obtain ⟨start, hnext⟩ := hnext
  simp [InboundBuffer.nextFrame, hlife.isUnread c hc hconnecting, Frame.peekHeader] at hnext

theorem pollConnections_premature {positions : List Nat} {i : Nat} (hsound : h.Sound)
    (hphase : h.IsGathering) (hinside : ∀ j ∈ positions, j < h.connections.length)
    (hi : i ∈ positions) (hc : h.connections[i]? = some c) (hpremature : c.IsPremature) :
    Task.Always (pollConnections positions) h (fun _ _ _ => False) (fun _ _ _ => True) := by
  induction positions generalizing h with
  | nil => cases hi
  | cons j positions ih =>
    obtain ⟨hj, hlater⟩ := List.forall_mem_cons.1 hinside
    by_cases heq : i = j
    · subst heq
      simp only [pollConnections, Task.always_bind, Task.always_get, hc, onConnection_always]
      exact (Connection.poll_premature hpremature).mono (fun _ _ _ => False.elim) fun _ _ _ _ =>
        trivial
    · refine pollConnections_cons hsound hphase (List.getElem?_eq_getElem hj)
        (fun _ _ _ _ => trivial) fun hs h₁ hmoves => ?_
      have hphase₁ : h₁.IsGathering := by rw [IsGathering, hmoves.phase]; exact hphase
      have hinside₁ : ∀ k ∈ positions, k < h₁.connections.length := fun k hk => by
        simpa [hmoves.length] using hlater k hk
      exact ih (hsound.of_way hmoves.way) hphase₁ hinside₁ ((List.mem_cons.1 hi).resolve_left heq)
        ((hmoves.others i heq).trans hc)

theorem pollHandshake_premature {now : Instant} (hsound : h.Sound) (hsettled : h.Settled)
    (hphase : h.IsGathering) (hc : c ∈ h.connections) (hpremature : c.IsPremature) :
    Task.Always (pollHandshake now) h (fun _ _ _ => False) (BreaksWithin h) := by
  have hoff : h.phase ≠ .handingOff :=
    fun hoff => not_isGathering hoff (by decide) (by decide) hphase
  by_cases htimeout : h.handshakeTimeout.nanoseconds ≤ (h.elapsed now).nanoseconds
  · have hbreaks : BreaksWithin h _ _ h :=
      ⟨⟨h, [], [], rfl, .refl h, .timeout now (.inl hphase) htimeout⟩, rfl⟩
    simpa [pollHandshake, hoff, htimeout] using hbreaks
  have hpositions : h.polledPositions = List.range h.connections.length := by
    simp [polledPositions, hsettled.gathering hphase]
  have hinside := hsound.polledPositions_lt (isHandshaking_of_early (.inl hphase))
  obtain ⟨i, hi, rfl⟩ := List.mem_iff_getElem.1 hc
  have hpolled : i ∈ h.polledPositions := hpositions ▸ List.mem_range.2 hi
  have htrips :=
    pollConnections_premature hsound hphase hinside hpolled (List.getElem?_eq_getElem hi) hpremature
  simp only [pollHandshake, hoff, htimeout, Task.always_bind, Task.always_get, if_false,
    List.nil_append]
  refine (htrips.and (pollConnections_gathering hsound hphase hinside)).mono ?_ fun _ _ _ =>
    And.right
  rintro _ _ _ ⟨hnever, -⟩
  exact hnever.elim

/-- The handler has failed and is stopping, and never came to the handoff. -/
structure HasGivenUp (past : List Happening) (h : Handler) : Prop where
  phase : h.phase = .stopping
  failure : h.failure.isSome
  never : NeverHandsOff past

theorem BreaksWithin.hasGivenUp {f : Failure} (hbreaks : BreaksWithin h hs f h')
    (hlife : Life table past h) (hphase : h.IsGathering) :
    HasGivenUp (past ++ (hs ++ h'.stopForHappenings f.kind)) (h'.stoppedFor (.failed f)) := by
  obtain ⟨⟨h₁, hs₁, hs₂, rfl, hway, hfault⟩, hsame⟩ := hbreaks
  have hlife₁ := hlife.of_way (hway.mono fun _ _ _ => .move)
  have hearly₁ : h₁.IsEarly := by
    refine .inl ?_
    rwa [IsGathering, ← hfault.phase_eq, hsame]
  have hover : ¬(h'.stoppedFor (.failed f)).AtWork := not_atWork_stopping rfl
  refine ⟨rfl, by simp [stoppedFor, stopped], ?_⟩
  have hturn : Turn h₁ _ _ := .move (.fails hfault)
  have hlast :=
    hturn.neverHandsOff hlife₁.sound hearly₁.not_delivering (not_delivering_of_over hover)
  simpa using (hlife₁.neverHandsOff hearly₁).append hlast

/-- A handler that waits for its masters gives up at its next poll, if a start of the data stream is
next on any of its connections. -/
theorem Life.poll_premature {now : Instant} (hlife : Life table past h) (hsettled : h.Settled)
    (hphase : h.IsGathering) (hc : c ∈ h.connections) (hnext : c.inbound.StartsNext) :
    Work.Always (poll now) h fun hs _ h' => HasGivenUp (past ++ hs) h' := by
  have hsound := hlife.sound
  have hhandshaking : h.phase.isHandshaking := isHandshaking_of_early (.inl hphase)
  have hpremature := hlife.isPremature hphase hc hnext
  simp only [poll, Work.always_bind, Work.always_get, hhandshaking, if_true, Task.always_perform]
  refine (pollHandshake_premature hsound hsettled hphase hc hpremature).mono
    (fun _ _ _ => False.elim) ?_
  intro hs f h' hbreaks
  have hlive := isLive_of_isHandshaking (show h'.phase.isHandshaking by rwa [hbreaks.2])
  refine (fail_always hlive.1 hlive.2).mono ?_
  rintro _ _ _ ⟨rfl, rfl⟩
  simpa using hbreaks.hasGivenUp hlife hphase

end Handler

end ReplicaHandshake
