import ReplicaHandshake.Proofs.Controller.Closing
import ReplicaHandshake.Proofs.Handler.Deadline

/-!
# Deadlines

A handler has only so much time until its handoff.  Whether this is up is asked once in each poll,
before anything is done; so the handoff begins only in a tick in which there was still time, and
after it has begun nobody asks again.

Neither does a handler come to the handoff by routine, nor does it fail so because its
time is up (`isUntimed_routine`).  So both happen only in ticks, where the handler is
polled (`Controller.Run.polled`).
-/

namespace ReplicaHandshake

open Handler Registry

/-! ### Routine -/

/-- Neither does a handler come to the handoff, nor does it fail because its time is up. -/
structure Happening.IsUntimed (x : Happening) : Prop where
  entered : x.entered? ≠ some Phase.handingOff.name
  failure : x.failure? ≠ some "handshake_timeout"

theorem Happening.IsRelease.isUntimed {x : Happening} (h : x.IsRelease) : x.IsUntimed := by
  cases h <;> exact ⟨nofun, nofun⟩

theorem Happening.IsClosing.isUntimed {x : Happening} (h : x.IsClosing) : x.IsUntimed := by
  cases h with
  | releases hx => exact hx.isUntimed
  | stops | ends => exact ⟨by decide, nofun⟩
  | reads | urges | retries | concludes => exact ⟨nofun, nofun⟩

theorem Overture.isUntimed {x : Happening} (h : Overture x) : x.IsUntimed := by
  cases h with
  | entered => exact ⟨by decide, nofun⟩
  | started | openSocket => exact ⟨nofun, nofun⟩

namespace Handler

variable {h h' : Handler} {hs : List Happening}

theorem Opens.isTimeout {cs cs' : List Connection} {f : Failure}
    (hopens : Opens cs hs (some f) cs') :
    f.isTimeout = false := by
  generalize hsome : some f = failed at hopens
  induction hopens with
  | done => cases hsome
  | opened _ _ ih => exact ih hsome
  | refused =>
    cases hsome
    rfl

theorem stopFor_isUntimed (h : Handler) {kind : String} (hkind : kind ≠ "handshake_timeout") :
    ∀ x ∈ h.stopForHappenings kind, x.IsUntimed := by
  refine List.forall_mem_cons.2 ⟨⟨nofun, fun heq => hkind (Option.some.inj heq)⟩, fun x hx => ?_⟩
  exact (mem_stopHappenings hx).elim (fun heq => heq ▸ ⟨by decide, nofun⟩) (·.isUntimed)

theorem Begins.isUntimed {instanceId : InstanceId} {peer : PeerId} {table : TableSettings}
    {frameBuffer : Nat} {timeout : Duration} {now : Instant}
    (hbegins : Begins (new instanceId peer table frameBuffer timeout now) hs h) :
    ∀ x ∈ hs, x.IsUntimed := by
  have hgreetings :=
    fun x hx => (overture_greetings instanceId peer table frameBuffer timeout now x hx).isUntimed
  cases hbegins with
  | opens hopens =>
    exact List.forall_mem_append.2 ⟨hgreetings, fun x hx => (hopens.overture x hx).isUntimed⟩
  | @fails _ _ f hopens =>
    have hkind : f.kind ≠ "handshake_timeout" := fun hkind => by
      have htimeout := Failure.kind_eq_timeout.1 hkind
      rw [hopens.isTimeout] at htimeout
      cases htimeout
    refine List.forall_mem_append.2 ⟨List.forall_mem_append.2 ⟨hgreetings, fun x hx => ?_⟩,
      stopFor_isUntimed _ hkind⟩
    exact (hopens.overture x hx).isUntimed

theorem Hears.isUntimed {socket : SocketId} (hhears : Hears socket h hs h') :
    ∀ x ∈ hs, x.IsUntimed := by
  cases hhears with
  | isOther | letsGo => exact List.forall_mem_nil _
  | loses => exact stopFor_isUntimed _ (by decide)

theorem endings_isUntimed (h : Handler) {last : Phase} (hlast : last.isTerminal) :
    ∀ x ∈ endings h last, x.IsUntimed := by
  refine List.forall_mem_cons.2 ⟨⟨fun heq => ?_, nofun⟩, List.forall_mem_singleton.2 ⟨nofun, nofun⟩⟩
  rw [Phase.name_injective (Option.some.inj heq)] at hlast
  cases hlast

end Handler

/-- Handlers come to the handoff, or fail because their time is up, only when they are polled. -/
theorem isUntimed_routine : Routine Happening.IsUntimed where
  begins hbegins := hbegins.isUntimed
  stops hstops x hx := (hstops.isClosing x hx).isUntimed
  hears hhears := hhears.isUntimed
  ends := endings_isUntimed
  instructed _ _ := ⟨nofun, nofun⟩
  counted _ _ _ := ⟨nofun, nofun⟩
  waiting _ := ⟨nofun, nofun⟩

namespace Controller

open Ledger

variable {settings : Settings} {past : List Entry} {c : Controller} {peer : PeerId} {x : Happening}

/-! ### Polls -/

/-- On behalf of this peer this happened in a tick of the run, when its handler was polled. -/
inductive Polled (settings : Settings) (past : List Entry) (peer : PeerId) (x : Happening)
    (now : Instant) (h : Handler) : Prop where
  | intro {before told after first : List Entry} {c c' : Controller} {busy : Bool}
      {did : List Happening} {h' : Handler} :
      Run settings before c → ((Controller.tick now).run c).Runs told (busy, c') →
      past = before ++ told ++ after →
      c.Visits now first h → h.peer = peer → Does (Handler.poll now) h did h' →
      first ++ marked peer did <+: told → x ∈ did → Polled settings past peer x now h

theorem Polled.later {now : Instant} {h : Handler} (hpolled : Polled settings past peer x now h)
    (entries : List Entry) : Polled settings (past ++ entries) peer x now h := by
  cases hpolled with
  | @intro before told after _ _ _ _ _ _ hrun hticks hpast hvisits hpeer hdoes hleads hx =>
    have hlater : past ++ entries = before ++ told ++ (after ++ entries) := by
      rw [hpast, List.append_assoc]
    exact .intro hrun hticks hlater hvisits hpeer hdoes hleads hx

theorem submit_impersonal (i : Instruction) :
    Work.Records (submit i) c fun entries _ _ => history peer entries = [] := by
  simp only [submit, Work.records_bind, Work.records_get, Work.records_modify, report_records,
    Work.records_pure, List.nil_append, List.append_nil]
  rfl

/-- What happens on behalf of a peer and is no routine, happens in a tick when its
handler is polled. -/
theorem Run.polled {P : Happening → Prop} (hP : Routine P) (hclosing : ∀ x, x.IsClosing → P x)
    (hfetched : ∀ ds, P (.answered .fetchDisconnections ds)) (hrun : Run settings past c)
    (hx : x ∈ history peer past) (hnot : ¬P x) : ∃ now h, Polled settings past peer x now h := by
  have extend : ∀ {past entries : List Entry},
      (x ∈ history peer past → ∃ now h, Polled settings past peer x now h) →
      (x ∈ history peer entries → ∃ now h, Polled settings (past ++ entries) peer x now h) →
      x ∈ history peer (past ++ entries) →
        ∃ now h, Polled settings (past ++ entries) peer x now h := by
    intro past entries hbefore hnow hx
    rw [history_append, List.mem_append] at hx
    refine hx.elim (fun hx => ?_) hnow
    obtain ⟨now, h, hpolled⟩ := hbefore hx
    exact ⟨now, h, hpolled.later entries⟩
  induction hrun with
  | start hruns =>
    obtain ⟨-, hway⟩ := start_way _ settings _ _ hruns _ rfl
    rw [(absent_of_way hway fun ⟨_, hh, _⟩ => nomatch hh).2] at hx
    cases hx
  | submit i _ hruns ih =>
    refine extend ih (fun hx => ?_) hx
    rw [submit_impersonal i _ _ hruns] at hx
    cases hx
  | tick now hrun hruns ih =>
    refine extend ih (fun hx => ?_) hx
    obtain ⟨e, he, howner, rfl⟩ := mem_of_history hx
    obtain ⟨more, hticks⟩ := tick_iff.1 hruns
    obtain ⟨h, first, did, h', hvisits, hdoes, hleads, hmem⟩ :=
      hticks.polls hrun.inOrder hP hfetched he hnot
    obtain ⟨y, hy, rfl⟩ := List.mem_map.1 hmem
    obtain rfl : h.peer = peer := Option.some.inj howner
    have hlast : ∀ past entries : List Entry, past ++ entries = past ++ entries ++ [] := fun _ _ =>
      (List.append_nil _).symm
    exact ⟨now, h, .intro hrun hruns (hlast _ _) hvisits rfl hdoes hleads hy⟩
  | close hrun hruns ih =>
    refine extend ih (fun hx => absurd ?_ hnot) hx
    obtain ⟨e, he, -, rfl⟩ := mem_of_history hx
    exact hclosing _ ((close_closes hrun.inOrder _ _ hruns).isClosing e he)

theorem Polled.handsOff {now : Instant} {h : Handler}
    (hpolled : Polled settings past peer (.reported (.phaseEntered Phase.handingOff.name)) now h) :
    h.IsEarly ∧ ¬h.IsOverdue now := by
  cases hpolled with
  | intro hrun _ _ hvisits _ hdoes _ hx =>
    obtain ⟨-, table, hlife⟩ := hrun.visits hvisits
    exact hdoes.of_always hlife.poll_handsOff (List.mem_filterMap.2 ⟨_, hx, rfl⟩)

theorem Polled.timesOut {now : Instant} {h : Handler}
    (hpolled : Polled settings past peer (.reported (.failure "handshake_timeout")) now h) :
    h.IsEarly ∧ h.IsOverdue now := by
  cases hpolled with
  | intro hrun _ _ hvisits _ hdoes _ hx =>
    obtain ⟨-, table, hlife⟩ := hrun.visits hvisits
    refine Classical.byContradiction fun hintime => ?_
    exact (hdoes.of_always (hlife.poll_inTime hintime)).1 (List.mem_filterMap.2 ⟨_, hx, rfl⟩)

/-- The handshake has its deadline.  A handler that has not come to the handoff fails in the first
poll at which its time is up, and no call is made in it but to close its sockets and to release its
writer; in any other poll it does not fail so.  A handler comes to the handoff only in a poll before
its time is up, and fails so only in one when it is; both polls are made in ticks.  Its time is not
started again, and it gets no more of it.  After the handoff has begun, or the handler has come to
any later phase, it never fails so. -/
theorem Run.meets_deadlines (hrun : Run settings past c) :
    (∀ now entries h, c.Visits now entries h →
      (h.IsEarly → h.IsOverdue now → Work.Always (Handler.poll now) h fun hs busy h' =>
        busy = true ∧ TimesOut now h hs h') ∧
      (¬(h.IsEarly ∧ h.IsOverdue now) → Work.Always (Handler.poll now) h fun hs _ h' =>
        "handshake_timeout" ∉ failures hs ∧ (h'.HasTimedOut → h.HasTimedOut))) ∧
    (∀ peer, .reported (.phaseEntered Phase.handingOff.name) ∈ history peer past → ∃ now h,
      Polled settings past peer (.reported (.phaseEntered Phase.handingOff.name)) now h ∧
        h.IsEarly ∧ ¬h.IsOverdue now) ∧
    (∀ peer, .reported (.failure "handshake_timeout") ∈ history peer past → ∃ now h,
      Polled settings past peer (.reported (.failure "handshake_timeout")) now h ∧ h.IsEarly ∧
        h.IsOverdue now) ∧
    (∀ entries c', Way Continues c entries c' → ∀ h ∈ c.registry.handlers,
      ∀ h' ∈ c'.registry.handlers, h'.peer = h.peer →
        h'.startedAt = h.startedAt ∧ h'.handshakeTimeout = h.handshakeTimeout) ∧
    ∀ peer before phase after, phase ∉ earlyPhases →
      history peer past = before ++ .reported (.phaseEntered phase.name) :: after →
        "handshake_timeout" ∉ failures after := by
  have hpolled : ∀ {peer x}, x ∈ history peer past → ¬x.IsUntimed →
      ∃ now h, Polled settings past peer x now h :=
    hrun.polled isUntimed_routine (fun _ => (·.isUntimed)) fun _ => ⟨nofun, nofun⟩
  refine ⟨fun now entries h hvisits => ?_, fun peer hmem => ?_, fun peer hmem => ?_,
    fun entries c' hway h hh h' hh' hsame => ?_, fun peer before phase after hphase hsplit => ?_⟩
  · obtain ⟨-, table, hlife⟩ := hrun.visits hvisits
    exact ⟨hlife.poll_overdue, hlife.poll_inTime⟩
  · obtain ⟨now, h, hpolled⟩ := hpolled hmem fun huntimed => huntimed.entered rfl
    exact ⟨now, h, hpolled, hpolled.handsOff⟩
  · obtain ⟨now, h, hpolled⟩ := hpolled hmem fun huntimed => huntimed.failure rfl
    exact ⟨now, h, hpolled, hpolled.timesOut⟩
  · obtain ⟨asked, -, hord⟩ := hrun.way
    obtain ⟨_, hway⟩ := continues_way hway hord
    obtain ⟨hcomes, -⟩ := comes_of_way hway hord.atRest
    exact clock_of_way (House.turns_of_way hcomes hrun.chronicle hh hh' hsame)
  · obtain ⟨table, h, -, hlife⟩ := hrun.chronicle.every peer (by rw [hsplit]; simp)
    exact hlife.never_late hsplit hphase

section Rehearsal

open Rehearsal

/-- The third tick comes when the time of the handler is just up. -/
def belated : Performance World :=
  (rehearsed 2).goOn world (tick 5000000000)

/-- The table streams, and the next tick comes much later. -/
def streamsOn : Performance World :=
  (rehearsed 4).goOn world (tick 20000000000)

/-- The handler times out in the tick that comes when its time is just up.  If it has come to the
handoff before, it never does. -/
theorem deadline_rehearsed :
    (∃ entries h, (rehearsed 2).controller.Visits 5000000000 entries h ∧ h.IsEarly ∧
      h.IsOverdue 5000000000 ∧
      Work.Always (Handler.poll 5000000000) h fun hs busy h' => busy = true ∧
        TimesOut 5000000000 h hs h') ∧
    (∃ now h, Polled .small belated.past .first (.reported (.failure "handshake_timeout")) now h ∧
      h.IsOverdue now) ∧
    (∃ now h, Polled .small streamsOn.past .first (.reported (.phaseEntered Phase.handingOff.name))
      now h ∧
      ¬h.IsOverdue now) ∧
    ∃ before after, history .first streamsOn.past =
      before ++ .reported (.phaseEntered Phase.handingOff.name) :: after ∧
      "handshake_timeout" ∉ failures after := by
  have hbelated : Run .small belated.past belated.controller :=
    Performance.run_tick (rehearsed_run 2) _
  have hstreams : Run .small streamsOn.past streamsOn.controller :=
    Performance.run_tick (rehearsed_run 4) _
  have hsplit : ∃ before after, history .first streamsOn.past =
      before ++ .reported (.phaseEntered Phase.handingOff.name) :: after :=
    Happening.split_of_metric (by decide +kernel)
  obtain ⟨before, after, hsplit⟩ := hsplit
  refine ⟨?_, ?_, ?_, before, after, hsplit, ?_⟩
  · have hseen : (((rehearsed 2).goOn world (drainInstructions 5000000000)).goOn world
        drainDisconnections).controller.registry.live.map
          (fun h => (h.phase, h.handshakeTimeout.nanoseconds, h.startedAt)) =
        [(.requestingStream, 5000000000, 0)] := by
      decide +kernel
    obtain ⟨h, after, hlive, hh, -⟩ := List.map_eq_cons_iff.1 hseen
    obtain ⟨hphase, hclock⟩ := Prod.mk.inj hh
    obtain ⟨htime, hstart⟩ := Prod.mk.inj hclock
    obtain ⟨entries, -, hvisits⟩ := Performance.visits_first hlive
    have hoverdue : h.IsOverdue 5000000000 := by
      rw [IsOverdue, elapsed, htime, hstart]
      exact Nat.le_refl _
    exact ⟨entries, h, hvisits, .inr hphase, hoverdue,
      ((rehearsed_run 2).meets_deadlines.1 _ _ _ hvisits).1 (.inr hphase) hoverdue⟩
  · have hfails : ∃ before after, history .first belated.past =
        before ++ .reported (.failure "handshake_timeout") :: after :=
          Happening.split_of_metric (by decide +kernel)
    obtain ⟨before, after, hfails⟩ := hfails
    obtain ⟨now, h, hpolled, -, hoverdue⟩ :=
      hbelated.meets_deadlines.2.2.1 .first (by rw [hfails]; simp)
    exact ⟨now, h, hpolled, hoverdue⟩
  · obtain ⟨now, h, hpolled, -, hintime⟩ :=
      hstreams.meets_deadlines.2.1 .first (by rw [hsplit]; simp)
    exact ⟨now, h, hpolled, hintime⟩
  · exact hstreams.meets_deadlines.2.2.2.2 .first before .handingOff after (by decide) hsplit

end Rehearsal

end Controller

end ReplicaHandshake
