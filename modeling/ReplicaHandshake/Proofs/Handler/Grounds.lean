import Mathlib.Data.List.Chain
import ReplicaHandshake.Proofs.Handler.Failing

/-!
# What a handler never comes to

Some branches of the work of a handler are there for its own mistakes: it is told to turn to a phase
that may not follow, to a connection that it does not have, or to hand over what is not ready.  A
handler makes none of them.

* Nothing in its life is a lapse (`Life.no_lapse`), and the phases that it enters are a
  path (`Life.path`).
* If it fails, then the failure is `Grounded`: it comes from the masters, the store, the network or
  the clock, and not from the handler itself (`Life.grounded`).
-/

namespace ReplicaHandshake

/-- The operation that the store refused, and its error. -/
def Happening.storeError? : Happening → Option (StoreOperation × StoreError)
  | answered (.tableExists _) (.error e) => some (.tableExists, e)
  | answered (.openWriter _) (.error e) => some (.openWriter, e)
  | answered (.createTable _ _ _) (.error e) => some (.createTable, e)
  | _ => none

/-- What the store refused, with its errors. -/
def storeErrors (hs : List Happening) : List (StoreOperation × StoreError) :=
  hs.filterMap (·.storeError?)

@[simp] theorem storeErrors_append (past hs : List Happening) :
    storeErrors (past ++ hs) = storeErrors past ++ storeErrors hs :=
  List.filterMap_append

namespace Failure

/-- A failure is not of a handler's own making: the settings were good, no phase was out of
turn, the stream was not asked for out of turn, and every error of the store was an answer
of the store. -/
def Grounded (past : List Happening) : Failure → Prop
  | settings _ | invalidTransition _ _ => False
  | protocol _ text =>
    ∀ state : ConnectionState, text ≠ s!"cannot request the stream in state {state.name}"
  | storage _ operation e => (operation, e) ∈ storeErrors past
  | _ => True

variable {past : List Happening} {f : Failure}

theorem Grounded.mono (h : f.Grounded past) (hs : List Happening) : f.Grounded (past ++ hs) := by
  cases f with
  | storage table operation e =>
    have hmem : (operation, e) ∈ storeErrors past := h
    show (operation, e) ∈ storeErrors (past ++ hs)
    rw [storeErrors_append]
    exact List.mem_append_left _ hmem
  | _ => exact h

theorem Grounded.kind (h : f.Grounded past) :
    f.kind ≠ "invalid_transition" ∧ f.kind ≠ "config" := by
  cases f with
  | settings | invalidTransition => exact h.elim
  | _ => simp [kind]

end Failure

/-! ### Connections -/

theorem ne_of_head?_toList {s t : String} (h : s.toList.head? ≠ t.toList.head?) : s ≠ t :=
  fun heq => h (heq ▸ rfl)

namespace Connection

variable {c c' : Connection} {past hs : List Happening} {f : Failure}

theorem Refuses.grounded {frame : Frame} (hrefuses : Refuses c frame f) : f.Grounded past := by
  cases hrefuses with
  | missing => trivial
  | duplicate | early | otherTable | earlyStart | otherStart | unasked =>
    exact fun state => ne_of_head?_toList (by simp [toString])

theorem Fault.grounded (hfault : Fault c hs f c') : f.Grounded past := by
  cases hfault with
  | refuse _ _ hrefuses => exact hrefuses.grounded
  | connect | ask | writeNothing | write | read | ended | frame => trivial

theorem RequestFault.grounded {r : RequestReplicationStream} (hfault : RequestFault r c hs f c') :
    f.Grounded past := by
  cases hfault with
  | queue => trivial
  | write _ _ hends =>
    obtain ⟨_, _, _, -, -, hfault, -⟩ := hends
    exact hfault.grounded

end Connection

namespace Handler

variable {h h' : Handler} {past hs : List Happening} {table : TableSettings}

/-! ### Lapses -/

theorem Uneventful.no_lapse (hquiet : Uneventful hs) : ∀ x ∈ hs, x.isLapse = false :=
  fun x hx => (Happening.of_isMilestone (hquiet x hx)).2.2.2

theorem no_lapse_stop (h : Handler) : ∀ x ∈ h.stopHappenings, x.isLapse = false := by
  obtain ⟨back, hback, heq⟩ := h.stopHappenings_eq
  rw [heq]
  exact List.forall_mem_cons.2 ⟨rfl, hback.no_lapse⟩

theorem Course.no_lapse (hcourse : Course h hs h') : ∀ x ∈ hs, x.isLapse = false := by
  cases hcourse with
  | stays hquiet => exact hquiet.no_lapse
  | enters _ _ _ hfront hback =>
    exact List.forall_mem_append.2 ⟨hfront.no_lapse, List.forall_mem_cons.2 ⟨rfl, hback.no_lapse⟩⟩
  | stops => exact h.no_lapse_stop
  | @fails h₁ _ kind reason hbefalls =>
    exact List.forall_mem_append.2
      ⟨hbefalls.uneventful.no_lapse, List.forall_mem_cons.2 ⟨rfl, h₁.no_lapse_stop⟩⟩
  | freed => exact List.forall_mem_singleton.2 rfl

/-- A handler tries nothing that cannot be done. -/
theorem Life.no_lapse (hlife : Life table past h) : ∀ x ∈ past, x.isLapse = false := by
  refine hlife.along ?_ ?_
  · intro instanceId peer frameBuffer timeout now
    exact List.forall_mem_cons.2 ⟨rfl, List.forall_mem_singleton.2 rfl⟩
  · intro past h hs h' ih hcourse
    exact List.forall_mem_append.2 ⟨ih, hcourse.no_lapse⟩

/-! ### Phases -/

/-- Each of these phases may follow the one before it. -/
abbrev IsPath (phases : List Phase) : Prop :=
  phases.IsChain fun old new => new ∈ old.next

/-- The phases that a handler enters are a path, from the first phase to the one that the
handler is in. -/
theorem Life.path (hlife : Life table past h) : ∃ path, phases past = path.map Phase.name ∧
    path.head? = some .initializing ∧ path.getLast? = some h.phase ∧ IsPath path := by
  refine hlife.along ?_ ?_
  · intro instanceId peer frameBuffer timeout now
    exact ⟨[.initializing], rfl, rfl, rfl, .singleton _⟩
  · rintro past h hs h' ⟨path, hphases, hhead, hlast, hpath⟩ hcourse
    obtain ⟨hnone, hphase⟩ | ⟨hsome, hnext⟩ := hcourse.phases
    · exact ⟨path, by rw [phases_append, hnone, hphases,
        List.append_nil], hhead, hphase ▸ hlast, hpath⟩
    · refine ⟨path ++ [h'.phase], ?_, ?_, List.getLast?_concat, ?_⟩
      · rw [phases_append, hphases, hsome, List.map_append]
        rfl
      · rw [List.head?_append, hhead]
        rfl
      · refine hpath.append (.singleton _) fun old hold new hnew => ?_
        rw [hlast] at hold
        cases hold
        cases hnew
        exact hnext

/-! ### Failures -/

theorem Fault.grounded {f : Failure} (hfault : Fault h hs f h') (past : List Happening) :
    f.Grounded (past ++ hs) := by
  cases hfault with
  | timeout | divergence | mismatch => trivial
  | connection _ _ hfault | handoff _ hfault => exact hfault.grounded
  | request _ _ _ _ hrequest => exact hrequest.grounded
  | tableExists | openWriter | createTable =>
    simp [Failure.Grounded, storeFailure, storeErrors, Happening.storeError?]

theorem Incident.grounded {kind : String} {reason : StopReason}
    (hincident : Incident table past kind reason) :
    (kind ≠ "invalid_transition" ∧ kind ≠ "config") ∧ ∀ f, reason = .failed f →
      f.Grounded past := by
  cases hincident with
  | refused => exact ⟨⟨by decide, by decide⟩, fun f heq => by cases heq; trivial⟩
  | @fault past _ _ _ _ _ hfault =>
    exact ⟨(hfault.grounded past).kind, fun f heq => by cases heq; exact hfault.grounded past⟩
  | dropped => exact ⟨⟨by decide, by decide⟩, fun f heq => by cases heq⟩

/-- If a handler has failed, then not of its own making. -/
theorem Life.grounded (hlife : Life table past h) {f : Failure}
    (hfailed : h.failure = some (.failed f)) :
    f.Grounded past := by
  obtain ⟨before, kind, after, rfl, -, -, hincident⟩ := hlife.failedOnce hfailed
  exact (hincident.grounded.2 f rfl).mono _

theorem Life.failure_kinds (hlife : Life table past h) :
    ∀ kind ∈ failures past, kind ≠ "invalid_transition" ∧ kind ≠ "config" := by
  intro kind hkind
  obtain ⟨-, hnone⟩ | ⟨-, reason, -, before, kind', after, rfl, hbefore, hafter, hincident⟩ :=
    hlife.fails
  · rw [hnone] at hkind
    cases hkind
  · have hone : failures (before ++ .reported (.failure kind') :: after) =
        failures before ++ kind' :: failures after := failures_append ..
    rw [hone, hbefore, hafter, List.nil_append, List.mem_singleton] at hkind
    exact hkind ▸ hincident.grounded.1

end Handler

end ReplicaHandshake
