import ReplicaHandshake.Proofs.Handler.Setbacks
import ReplicaHandshake.Proofs.Handler.Starts

/-!
# The time for the handshake

Before it comes to the handoff a handler fails in the first poll at which its time is up, and does
nothing in this poll but to stop (`Life.poll_overdue`).  No other poll makes it fail for that: not
one before its time is up, and none after the handoff has begun (`Life.poll_inTime`).  So it comes
to the handoff only in time (`Life.poll_handsOff`), and then has nothing to fear from the clock any
more (`Life.never_late`).
-/

namespace ReplicaHandshake

/-- Whether the handshake took too long. -/
def Failure.isTimeout : Failure → Bool
  | handshakeTimeout .. => true
  | _ => false

theorem Failure.kind_eq_timeout {f : Failure} :
    f.kind = "handshake_timeout" ↔ f.isTimeout = true := by
  cases f <;> simp [kind, isTimeout]

theorem Phase.name_injective {old new : Phase} (hname : old.name = new.name) : old = new := by
  revert hname
  cases old <;> cases new <;> decide

/-! ### Patience -/

namespace Task

variable {σ α β : Type}

/-- The task does not fail because it took too long. -/
def IsPatient (t : Task σ α) : Prop :=
  ∀ s, Always t s (fun _ _ _ => True) fun _ f _ => f.isTimeout = false

theorem isPatient_pure {a : α} : IsPatient (pure a : Task σ α) :=
  fun _ => always_pure.2 trivial

theorem isPatient_throw {f : Failure} (hf : f.isTimeout = false) : IsPatient (throw f : Task σ α) :=
  fun _ => always_throw.2 hf

theorem isPatient_get : IsPatient (get : Task σ σ) :=
  fun _ => always_get.2 trivial

theorem isPatient_set {s : σ} : IsPatient (set s : Task σ PUnit) :=
  fun _ => always_set.2 trivial

theorem isPatient_lift {d : Dialogue α} : IsPatient (liftM d : Task σ α) :=
  fun _ => always_lift.2 fun _ _ _ => trivial

theorem isPatient_bind {t : Task σ α} {f : α → Task σ β} (ht : IsPatient t)
    (hf : ∀ a, IsPatient (f a)) :
    IsPatient (t >>= f) :=
  fun s => always_bind.2 ((ht s).mono (fun _ a s' _ => hf a s') fun _ _ _ => id)

theorem isPatient_ite {t t' : Task σ α} {p : Prop} [Decidable p] (ht : IsPatient t)
    (ht' : IsPatient t') :
    IsPatient (if p then t else t') := by
  split
  · exact ht
  · exact ht'

end Task

open ReplicaHandshake.Task

namespace Connection

theorem Fault.isTimeout {c c' : Connection} {hs : List Happening} {f : Failure}
    (hfault : Fault c hs f c') :
    f.isTimeout = false := by
  cases hfault with
  | refuse _ _ hrefuses => cases hrefuses <;> rfl
  | _ => rfl

theorem poll_isPatient : IsPatient poll :=
  fun c => (poll_always c).mono (fun _ _ _ _ => trivial) fun _ _ _ ⟨_, _, _, _, _, hfault⟩ =>
    hfault.isTimeout

theorem RequestFault.isTimeout {c c' : Connection} {r : RequestReplicationStream}
    {hs : List Happening} {f : Failure} (hfault : RequestFault r c hs f c') :
    f.isTimeout = false := by
  cases hfault with
  | queue => rfl
  | write _ _ hends =>
    obtain ⟨_, _, _, -, -, hfault, -⟩ := hends
    exact hfault.isTimeout

theorem requestStream_isPatient {r : RequestReplicationStream} : IsPatient (requestStream r) := by
  intro c
  by_cases hstate : c.state = .ready
  · exact (requestStream_always hstate).mono (fun _ _ _ _ => trivial) fun _ _ _ hfault =>
      hfault.isTimeout
  · simp [requestStream, hstate, violation, Failure.isTimeout]

theorem tryTransfer_isPatient : IsPatient tryTransfer := by
  intro c
  by_cases hstate : c.state = .ready ∨ c.state = .streamStarted
  · refine (tryTransfer_always hstate).mono (fun _ _ _ _ => trivial) fun _ _ _ hends => ?_
    obtain ⟨_, _, _, -, -, hfault, -⟩ := hends
    exact hfault.isTimeout
  · cases hother : c.state with
    | ready | streamStarted => simp [hother] at hstate
    | _ => simp [tryTransfer, hother, note]

end Connection

namespace Handler

variable {h h' : Handler} {past hs before after : List Happening} {table : TableSettings}
  {now : Instant}

theorem onConnection_isPatient {α : Type} {i : Nat} {c : Connection} {task : Task Connection α}
    (htask : IsPatient task) : IsPatient (onConnection i c task) :=
  fun _ => onConnection_always.2 (htask c)

theorem enter_isPatient {new : Phase} : IsPatient (enter new) := by
  refine isPatient_bind isPatient_get fun h => ?_
  unfold Phase.moveTo
  split
  next f hmove =>
    split at hmove
    · cases hmove
    · cases hmove
      exact isPatient_bind isPatient_lift fun _ => isPatient_throw rfl
  · exact isPatient_bind isPatient_set fun _ => isPatient_lift

theorem onTableInfo_isPatient {label : String} {info : TableInfo} :
    IsPatient (onTableInfo label info) :=
  isPatient_bind isPatient_get fun _ =>
    isPatient_ite isPatient_set (isPatient_ite (isPatient_throw rfl) isPatient_set)

theorem resolveTable_isPatient : IsPatient resolveTable := by
  refine isPatient_bind isPatient_get fun h => isPatient_bind isPatient_lift fun found => ?_
  split
  · exact isPatient_throw rfl
  · exact isPatient_pure
  · refine isPatient_bind isPatient_lift fun opened => ?_
    split
    · exact isPatient_throw rfl
    · refine isPatient_ite
        (isPatient_bind isPatient_lift fun _ => isPatient_bind (isPatient_throw rfl) fun _ => ?_) ?_
      all_goals exact isPatient_bind isPatient_set fun _ => isPatient_pure

theorem onRendezvous_isPatient : IsPatient onRendezvous := by
  refine isPatient_bind resolveTable_isPatient fun rows => isPatient_bind isPatient_get fun h => ?_
  split
  · exact isPatient_throw rfl
  · exact isPatient_bind (onConnection_isPatient Connection.requestStream_isPatient) fun _ =>
      enter_isPatient

theorem onStreamStart_isPatient {start : StartOfReplicationStream} :
    IsPatient (onStreamStart start) := by
  refine isPatient_bind isPatient_get fun h => isPatient_ite ?_ enter_isPatient
  refine isPatient_bind isPatient_lift fun created => ?_
  split
  · exact isPatient_bind (isPatient_throw rfl) fun _ => enter_isPatient
  · exact isPatient_bind isPatient_lift fun _ => isPatient_bind isPatient_set fun _ =>
      enter_isPatient

theorem pollConnections_isPatient (positions : List Nat) :
    IsPatient (pollConnections positions) := by
  induction positions with
  | nil => exact isPatient_pure
  | cons i positions ih =>
    refine isPatient_bind isPatient_get fun h => ?_
    split
    · exact isPatient_bind isPatient_lift fun _ => ih
    · refine isPatient_bind (onConnection_isPatient Connection.poll_isPatient) fun polled => ?_
      have hrest : IsPatient
          (do let busy ← pollConnections positions; return polled.busy || busy) :=
        isPatient_bind ih fun _ => isPatient_pure
      split
      next event _ =>
        refine isPatient_bind ?_ fun _ => hrest
        cases event with
        | tableInfo => exact onTableInfo_isPatient
        | streamStart => exact onStreamStart_isPatient
      · exact hrest

theorem handWriter_isPatient : IsPatient handWriter := by
  refine isPatient_bind isPatient_get fun h => isPatient_ite isPatient_pure ?_
  split
  · exact isPatient_throw rfl
  · refine isPatient_bind isPatient_lift fun _ => isPatient_ite ?_ ?_
    · exact isPatient_bind isPatient_set fun _ => isPatient_pure
    · exact isPatient_bind isPatient_lift fun _ => isPatient_pure

theorem handConnections_isPatient (positions : List Nat) :
    IsPatient (handConnections positions) := by
  induction positions with
  | nil => exact isPatient_pure
  | cons i positions ih =>
    refine isPatient_bind isPatient_get fun h => ?_
    split
    · exact isPatient_bind isPatient_lift fun _ => ih
    · refine isPatient_ite ih
        (isPatient_bind (onConnection_isPatient Connection.tryTransfer_isPatient) fun _ => ?_)
      exact isPatient_ite (isPatient_bind ih fun _ => isPatient_pure)
        (isPatient_bind isPatient_lift fun _ => isPatient_pure)

theorem pollHandoff_isPatient : IsPatient (pollHandoff now) := by
  refine isPatient_bind isPatient_get fun h => isPatient_bind handWriter_isPatient fun _ =>
    isPatient_ite isPatient_pure ?_
  refine isPatient_bind isPatient_get fun h => isPatient_bind (handConnections_isPatient _) fun _ =>
    isPatient_ite isPatient_pure ?_
  exact isPatient_bind enter_isPatient fun _ => isPatient_bind isPatient_get fun h =>
    isPatient_bind isPatient_lift fun _ => isPatient_pure

theorem advance_isPatient : IsPatient (advance now) := by
  refine isPatient_bind isPatient_get fun h => isPatient_ite
    (isPatient_bind enter_isPatient fun _ => ?_) ?_
  all_goals
    refine isPatient_bind isPatient_get fun h => isPatient_ite
      (isPatient_bind onRendezvous_isPatient fun _ => ?_) ?_
    all_goals
      refine isPatient_bind isPatient_get fun h => isPatient_ite ?_ isPatient_pure
      exact isPatient_bind pollHandoff_isPatient fun _ => isPatient_pure

/-! ### The clock -/

theorem Resolves.clock {rows : UInt64} (hresolves : h.Resolves hs rows h') :
    h'.startedAt = h.startedAt ∧ h'.handshakeTimeout = h.handshakeTimeout := by
  cases hresolves <;> exact ⟨rfl, rfl⟩

theorem Fault.clock {f : Failure} (hfault : Fault h hs f h') :
    h'.startedAt = h.startedAt ∧ h'.handshakeTimeout = h.handshakeTimeout := by
  cases hfault with
  | request _ _ _ hresolves => exact hresolves.clock
  | _ => exact ⟨rfl, rfl⟩

theorem Turn.clock (hturn : Turn h hs h') :
    h'.startedAt = h.startedAt ∧ h'.handshakeTimeout = h.handshakeTimeout := by
  cases hturn with
  | move hmove =>
    cases hmove with
    | rendezvous _ _ _ hresolves => exact hresolves.clock
    | fails hfault => exact hfault.clock
    | _ => exact ⟨rfl, rfl⟩
  | loses _ _ _ heq =>
    subst heq
    exact ⟨rfl, rfl⟩
  | _ => exact ⟨rfl, rfl⟩

/-- The time of a handler is not started again, and it gets no more of it. -/
theorem clock_of_way (hway : Way Turn h hs h') :
    h'.startedAt = h.startedAt ∧ h'.handshakeTimeout = h.handshakeTimeout := by
  induction hway with
  | refl => exact ⟨rfl, rfl⟩
  | tail _ hturn ih => exact ⟨hturn.clock.1.trans ih.1, hturn.clock.2.trans ih.2⟩

/-! ### Polls -/

/-- The time of the handler is up. -/
def IsOverdue (h : Handler) (now : Instant) : Prop :=
  h.handshakeTimeout.nanoseconds ≤ (h.elapsed now).nanoseconds

/-- The failure of a handler whose time is up. -/
def lateness (h : Handler) (now : Instant) : Failure :=
  .handshakeTimeout h.tableName (h.elapsed now).milliseconds

/-- The handler fails because its time is up, and does nothing else: no call is made but to close
its sockets and to release its writer. -/
structure TimesOut (now : Instant) (h : Handler) (hs : List Happening) (h' : Handler) : Prop where
  happenings : hs = h.stopForHappenings "handshake_timeout"
  quiet : ∀ x ∈ hs, x.IsRelease ∨ ∃ m, x = .reported m
  handler : h' = { h with failure := some (.failed (h.lateness now)) }.stopped

/-- The handler has failed because its time was up. -/
def HasTimedOut (h : Handler) : Prop :=
  ∃ f, h.failure = some (.failed f) ∧ f.isTimeout

/-- A handler that has not come to the handoff fails in the first poll at which its time is up, and
does nothing else. -/
theorem Life.poll_overdue (hlife : Life table past h) (hearly : h.IsEarly)
    (hoverdue : h.IsOverdue now) :
    Work.Always (poll now) h fun hs busy h' => busy = true ∧ TimesOut now h hs h' := by
  have hwork := hearly.atWork
  have hhandshaking := isHandshaking_of_early hearly
  have hlive := isLive_of_isHandshaking hhandshaking
  unfold IsOverdue at hoverdue
  simp only [poll, pollHandshake, Work.always_bind, Work.always_get, hhandshaking, if_true,
    Task.always_perform, Task.always_bind, Task.always_get, hearly.phase, if_false, hoverdue,
    Task.always_throw, Work.always_pure,
    List.nil_append, List.append_nil]
  refine (fail_always hlive.1 hlive.2).mono ?_
  rintro _ _ _ ⟨rfl, rfl⟩
  obtain ⟨hnone, -⟩ := hlife.fails.resolve_right fun hfailed => hfailed.1 hwork
  refine ⟨trivial, rfl, fun x hx => ?_, by rw [stoppedFor, hnone, Option.none_or]; rfl⟩
  obtain rfl | hx := List.mem_cons.1 hx
  · exact .inr ⟨_, rfl⟩
  · exact (mem_stopHappenings hx).symm.imp_right fun hx => ⟨_, hx⟩

theorem pollHandshake_inTime (hphase : h.phase.isHandshaking)
    (hintime : ¬(h.IsEarly ∧ h.IsOverdue now)) :
    Task.Always (pollHandshake now) h (fun _ _ _ => True) fun _ f _ => f.isTimeout = false := by
  simp only [pollHandshake, Task.always_bind, Task.always_get]
  split
  · exact pollHandoff_isPatient h
  next hoff =>
    have hearly : h.IsEarly := by
      unfold IsEarly IsGathering
      cases hp : h.phase <;> simp_all [Phase.isHandshaking]
    have hnot : ¬h.handshakeTimeout.nanoseconds ≤ (h.elapsed now).nanoseconds :=
      fun hoverdue => hintime ⟨hearly, hoverdue⟩
    rw [if_neg hnot]
    exact isPatient_bind (pollConnections_isPatient _)
        (fun _ => isPatient_bind advance_isPatient fun _ =>
      isPatient_pure) h

theorem Fault.of_isTimeout {f : Failure} (hfault : Fault h hs f h') (hf : f.isTimeout) :
    hs = [] ∧ h.IsEarly ∧ ∃ now, h.IsOverdue now := by
  cases hfault with
  | timeout now hphase hoverdue => exact ⟨rfl, hphase, now, hoverdue⟩
  | connection _ _ hfault | handoff _ hfault => simp [hfault.isTimeout] at hf
  | request _ _ _ _ hrequest => simp [hrequest.isTimeout] at hf
  | divergence | tableExists | openWriter | mismatch | createTable => cases hf

theorem Life.hasTimedOut_of_way (hlife : Life table past h) (hway : Way Turn h hs h')
    (hnone : "handshake_timeout" ∉ failures hs) (htimedOut : h'.HasTimedOut) : h.HasTimedOut := by
  obtain ⟨f, hfailure, hf⟩ := htimedOut
  cases hbefore : h.failure with
  | some reason => exact ⟨f, by rw [hbefore, ← failure_of_way hway hbefore, hfailure], hf⟩
  | none =>
    have hpast : failures past = [] := by
      obtain ⟨-, hpast⟩ | ⟨-, _, hsome, -⟩ := hlife.fails
      · exact hpast
      · cases hbefore.symm.trans hsome
    obtain ⟨before, kind, after, hsplit, -, -, hincident⟩ := (hlife.of_way hway).failedOnce hfailure
    have hmem : kind ∈ failures (past ++ hs) := by
      rw [hsplit]
      exact failures_append _ _ ▸ List.mem_append_right _ List.mem_cons_self
    rw [failures_append, hpast, List.nil_append] at hmem
    cases hincident with
    | refused => cases hf
    | fault =>
      rw [Failure.kind_eq_timeout.2 hf] at hmem
      exact absurd hmem hnone

/-- In any other poll a handler does not fail because its time is up. -/
theorem Life.poll_inTime (hlife : Life table past h) (hintime : ¬(h.IsEarly ∧ h.IsOverdue now)) :
    Work.Always (poll now) h fun hs _ h' =>
      "handshake_timeout" ∉ failures hs ∧ (h'.HasTimedOut → h.HasTimedOut) := by
  have hpoll : Work.Always (poll now) h fun hs _ _ => "handshake_timeout" ∉ failures hs := by
    by_cases hphase : h.phase.isHandshaking
    · simp only [poll, Work.always_bind, Work.always_get, hphase, if_true, Task.always_perform,
        List.nil_append]
      refine ((pollHandshake_always hlife.sound hphase).and
        (pollHandshake_inTime hphase hintime)).mono ?_ ?_
      · rintro hs busy h' ⟨hadvances, -⟩
        have hlive := isLive_of_isHandshaking hphase
        have hsmooth := smooth_of_way hadvances.way fun _ => hadvances.unstopped hlive.2
        rw [Work.always_pure, List.append_nil, hsmooth.failures]
        exact List.not_mem_nil
      · rintro _ f h' ⟨⟨h₁, hs₁, hs₂, rfl, hway, hfault⟩, hf⟩
        have hlive₁ := isLive_of_isHandshaking hfault.isHandshaking
        have hlive' := isLive_of_isHandshaking (hfault.phase_eq ▸ hfault.isHandshaking)
        have hsmooth := smooth_of_way hway fun _ => hlive₁.2
        refine (fail_always hlive'.1 hlive'.2).mono ?_
        rintro _ _ _ ⟨rfl, rfl⟩
        have hstop : failures (h'.stopForHappenings f.kind) = [f.kind] := by
          rw [stopForHappenings, ← h'.failures_stop]
          rfl
        simp only [Work.always_pure, failures_append, hsmooth.failures, hfault.uneventful.failures,
          hstop, List.append_nil, List.nil_append]
        intro hmem
        have hkind : f.kind = "handshake_timeout" := (List.mem_singleton.1 hmem).symm
        simp [Failure.kind_eq_timeout.1 hkind] at hf
    · refine (poll_always hlife.sound).mono fun hs _ h' hmoves => ?_
      rw [(smooth_of_way hmoves.1 fun h => absurd h hphase).failures]
      exact List.not_mem_nil
  refine (hpoll.and (poll_always hlife.sound)).mono ?_
  rintro hs _ h' ⟨hnone, hmoves⟩
  exact ⟨hnone, hlife.hasTimedOut_of_way (moves_behaves.way hmoves) hnone⟩

/-! ### The handoff -/

theorem isEarly_of_way (hway : Way Turn h hs h') (hearly : h'.IsEarly) : h.IsEarly := by
  induction hway with
  | refl => exact hearly
  | tail _ hturn ih => exact ih (hturn.isEarly hearly)

theorem Turn.early_of_handsOff (hturn : Turn h hs h') (hmem : Phase.handingOff.name ∈ phases hs) :
    h.IsEarly := by
  obtain ⟨hnone, -⟩ | ⟨hone, hnext⟩ := hturn.course.phases
  · simp [hnone] at hmem
  · rw [hone, List.mem_singleton] at hmem
    rw [← Phase.name_injective hmem] at hnext
    cases hbefore : h.phase <;> rw [hbefore] at hnext <;>
      first | exact .inr hbefore | exact absurd hnext (by decide)

theorem early_of_way (hway : Way Turn h hs h') (hmem : Phase.handingOff.name ∈ phases hs) :
    h.IsEarly := by
  induction hway with
  | refl => cases hmem
  | tail hway hturn ih =>
    rw [phases_append, List.mem_append] at hmem
    exact hmem.elim ih fun hmem => isEarly_of_way hway (hturn.early_of_handsOff hmem)

/-- A handler comes to the handoff only in a poll before its time is up. -/
theorem Life.poll_handsOff (hlife : Life table past h) : Work.Always (poll now) h fun hs _ _ =>
    Phase.handingOff.name ∈ phases hs → h.IsEarly ∧ ¬h.IsOverdue now := by
  by_cases hlate : h.IsEarly ∧ h.IsOverdue now
  · refine (hlife.poll_overdue hlate.1 hlate.2).mono fun hs _ h' htimesOut hmem => ?_
    have hstop : phases (h.stopForHappenings "handshake_timeout") = [Phase.stopping.name] :=
      h.phases_stop
    rw [htimesOut.2.happenings, hstop] at hmem
    exact absurd hmem (by decide)
  · refine (poll_always hlife.sound).mono fun hs _ h' hmoves hmem => ?_
    have hearly := early_of_way (moves_behaves.way hmoves) hmem
    exact ⟨hearly, fun hoverdue => hlate ⟨hearly, hoverdue⟩⟩

/-! ### After the handoff has begun -/

/-- The phases before the handoff. -/
def earlyPhases : List Phase :=
  [.initializing, .awaitingRendezvous, .requestingStream]

theorem isEarly_iff : h.IsEarly ↔ h.phase ∈ earlyPhases := by
  simp [IsEarly, IsGathering, earlyPhases, or_assoc]

theorem Turn.phases_early (hturn : Turn h hs h') (hearly : h'.IsEarly) {phase : Phase}
    (hphase : phase ∉ earlyPhases) :
    phase.name ∉ phases hs := by
  obtain ⟨hnone, -⟩ | ⟨hone, -⟩ := hturn.course.phases
  · rw [hnone]
    exact List.not_mem_nil
  · rw [hone, List.mem_singleton]
    intro hname
    exact hphase (Phase.name_injective hname ▸ isEarly_iff.1 hearly)

theorem Life.phases_early (hlife : Life table past h) :
    h.IsEarly → ∀ phase, phase ∉ earlyPhases → phase.name ∉ phases past := by
  refine hlife.invariant ?_ ?_ ?_
  · intro hs h hopened _ phase hphase hmem
    obtain ⟨x, hx, hentered⟩ := List.mem_filterMap.1 hmem
    have hname : phase.name = Phase.initializing.name := by
      cases hopened.overture x hx <;> simp_all [Happening.entered?]
    rw [Phase.name_injective hname] at hphase
    exact hphase (by decide)
  · intro hs h hrefused hearly
    exact absurd hearly.atWork (not_atWork_stopping hrefused.phase)
  · intro past h hs h' _ ih hturn hearly phase hphase
    rw [phases_append, List.mem_append, not_or]
    exact ⟨ih (hturn.isEarly hearly) phase hphase, hturn.phases_early hearly hphase⟩

theorem Incident.of_timeout {kind : String} {reason : StopReason}
    (hincident : Incident table past kind reason) (hkind : kind = "handshake_timeout") :
    ∃ now h, Life table past h ∧ h.IsEarly ∧ h.IsOverdue now := by
  cases hincident with
  | refused | dropped => exact absurd hkind (by decide)
  | fault hlife hfault =>
    obtain ⟨rfl, hearly, now, hoverdue⟩ := hfault.of_isTimeout (Failure.kind_eq_timeout.1 hkind)
    rw [List.append_nil]
    exact ⟨now, _, hlife, hearly, hoverdue⟩

/-- Whoever has come to the handoff, or stops, does not fail because its time is up any more. -/
theorem Life.never_late (hlife : Life table past h) {phase : Phase}
    (hsplit : past = before ++ .reported (.phaseEntered phase.name) :: after)
    (hphase : phase ∉ earlyPhases) :
    "handshake_timeout" ∉ failures after := by
  intro hlate
  have hfailures : "handshake_timeout" ∈ failures past := by
    rw [hsplit]
    exact failures_append _ _ ▸ List.mem_append_right _ hlate
  obtain ⟨-, hnone⟩ | ⟨-, reason, -, front, kind, back, rfl, hfront, hback, hincident⟩ :=
    hlife.fails
  · rw [hnone] at hfailures
    cases hfailures
  have hone : failures (front ++ .reported (.failure kind) :: back) =
      failures front ++ kind :: failures back :=
    failures_append ..
  rw [hone, hfront, hback, List.nil_append, List.mem_singleton] at hfailures
  subst hfailures
  obtain ⟨middle, rfl, hlater⟩ | ⟨rest, hearlier, rfl⟩ := split_of_append hsplit
  · obtain ⟨-, hback'⟩ | ⟨middle', rfl, hback'⟩ := List.cons_eq_append_iff.1 hlater
    · cases (List.cons.inj hback').1
    · rw [hback', failures_append] at hback
      have hafter : failures after = [] := (List.append_eq_nil_iff.1 hback).2
      rw [hafter] at hlate
      cases hlate
  · obtain ⟨now, h₀, hlife₀, hearly, -⟩ := hincident.of_timeout rfl
    refine hlife₀.phases_early hearly phase hphase ?_
    rw [hearlier, phases_append]
    exact List.mem_append_right _ List.mem_cons_self

end Handler

end ReplicaHandshake
