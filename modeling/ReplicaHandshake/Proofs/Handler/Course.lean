import ReplicaHandshake.Proofs.Handler.Rendezvous

/-!
# The course of a handler

The *milestones* on the way of a handler are that it enters a phase or fails, that the multiplexer
lets go of it, and that it tries something that cannot be done.  `Handler.Course` says which of them
a turn passes and what they have to do with the handler: most turns pass none or enter the next
phase; a handler that is stopped enters `stopping`, and if something befell it (`Handler.Befalls`),
it reports the failure before.

So the phases that a handler entered follow each other as they should, and the last one is the one
that it is in (`Life.phase`).
-/

namespace ReplicaHandshake

/-- Whether a happening is a milestone on the way of a handler. -/
def Happening.isMilestone (x : Happening) : Bool :=
  x.entered?.isSome || x.failure?.isSome || x.freed?.isSome || x.isLapse

theorem Happening.of_isMilestone {x : Happening} (h : x.isMilestone = false) :
    x.entered? = none ∧ x.failure? = none ∧ x.freed? = none ∧ x.isLapse = false := by
  simpa [isMilestone, and_assoc] using h

theorem Connection.Traffic.isMilestone {c : Connection} {x : Happening} (h : Traffic c x) :
    x.isMilestone = false := by
  cases h <;> rfl

namespace Handler

variable {h h' h₁ : Handler} {past hs : List Happening} {table : TableSettings}

/-! ### Milestones -/

/-- No milestone is passed. -/
def Uneventful (hs : List Happening) : Prop :=
  ∀ x ∈ hs, x.isMilestone = false

theorem Uneventful.append {hs' : List Happening} (h : Uneventful hs) (h' : Uneventful hs') :
    Uneventful (hs ++ hs') :=
  fun x hx => (List.mem_append.1 hx).elim (h x) (h' x)

theorem Uneventful.phases (h : Uneventful hs) : phases hs = [] :=
  List.filterMap_eq_nil_iff.2 fun x hx => (Happening.of_isMilestone (h x hx)).1

theorem Uneventful.failures (h : Uneventful hs) : failures hs = [] :=
  List.filterMap_eq_nil_iff.2 fun x hx => (Happening.of_isMilestone (h x hx)).2.1

theorem Uneventful.freedPeers (h : Uneventful hs) : freedPeers hs = [] :=
  List.filterMap_eq_nil_iff.2 fun x hx => (Happening.of_isMilestone (h x hx)).2.2.1

theorem uneventful_of_traffic {c : Connection} (h : ∀ x ∈ hs, Connection.Traffic c x) :
    Uneventful hs :=
  fun x hx => (h x hx).isMilestone

theorem uneventful_of_hear {c c' : Connection} {event : ConnectionEvent}
    (h : Connection.Hear c hs event c') : Uneventful hs := by
  cases h with
  | accept => exact List.forall_mem_cons.2 ⟨rfl, by simp [Happening.isMilestone, Happening.entered?,
      Happening.failure?, Happening.freed?, Happening.isLapse]⟩

theorem uneventful_of_offer {c c' : Connection} {taken : Bool}
    (h : Connection.Offer c hs taken c') :
    Uneventful hs := by
  cases h <;> exact List.forall_mem_singleton.2 rfl

theorem Resolves.uneventful {rows : UInt64} (h : h.Resolves hs rows h') : Uneventful hs := by
  cases h with
  | absent => exact List.forall_mem_singleton.2 rfl
  | present => exact List.forall_mem_cons.2 ⟨rfl, List.forall_mem_singleton.2 rfl⟩

theorem Supplies.uneventful {tableName : String} {owned : Option TableWriter}
    {start : StartOfReplicationStream} {writer : TableWriter}
    (h : Supplies tableName owned start hs writer) : Uneventful hs := by
  cases h with
  | kept => exact List.forall_mem_nil _
  | created => exact List.forall_mem_cons.2 ⟨rfl, List.forall_mem_singleton.2 rfl⟩

theorem Fault.uneventful {f : Failure} (hfault : Fault h hs f h') : Uneventful hs := by
  cases hfault with
  | timeout => exact List.forall_mem_nil _
  | tableExists => exact List.forall_mem_singleton.2 rfl
  | openWriter => exact List.forall_mem_cons.2 ⟨rfl, List.forall_mem_singleton.2 rfl⟩
  | mismatch =>
    exact List.forall_mem_cons.2
      ⟨rfl, List.forall_mem_cons.2 ⟨rfl, List.forall_mem_singleton.2 rfl⟩⟩
  | connection _ _ hfault | handoff _ hfault => exact uneventful_of_traffic hfault.traffic.2
  | divergence _ _ hhear => exact uneventful_of_hear hhear
  | createTable _ _ hhear =>
    exact (uneventful_of_hear hhear).append (List.forall_mem_singleton.2 rfl)
  | request _ _ _ hresolves hrequest =>
    refine hresolves.uneventful.append ?_
    obtain ⟨-, rfl | ⟨back, rfl, htraffic⟩⟩ := hrequest.traffic
    · exact List.forall_mem_nil _
    · exact List.forall_mem_cons.2 ⟨rfl, uneventful_of_traffic htraffic⟩

theorem Opens.uneventful {cs cs' : List Connection} {f : Option Failure} (h : Opens cs hs f cs') :
    Uneventful hs := by
  induction h with
  | done => exact List.forall_mem_nil _
  | opened _ _ ih => exact List.forall_mem_cons.2 ⟨rfl, ih⟩
  | refused => exact List.forall_mem_singleton.2 rfl

/-- To stop is to enter `stopping`, and no other milestone. -/
theorem stopHappenings_eq (h : Handler) : ∃ back, Uneventful back ∧
    h.stopHappenings = .reported (.phaseEntered Phase.stopping.name) :: back := by
  obtain ⟨back, hback, heq⟩ := h.stopHappenings_releases
  exact ⟨back, fun x hx => by cases hback x hx <;> rfl, heq⟩

/-! ### What befalls a handler -/

/-- Something befalls a handler that makes it stop without being asked to. -/
inductive Befalls : Handler → List Happening → String → StopReason → Handler → Prop where
  | refused {h : Handler} {cs : List Connection} {hs : List Happening} {f : Failure} :
      h.phase = .initializing → Opens h.connections hs (some f) cs →
      Befalls h hs f.kind (.failed f) { h with connections := cs }
  | fault {h h₁ : Handler} {hs : List Happening} {f : Failure} :
      Fault h hs f h₁ → Befalls h hs f.kind (.failed f) h₁
  | dropped {h : Handler} {c : Connection} {socket : SocketId} :
      h.phase.isLive → h.phase ≠ .stopping → h.connections.find? (isTakenAs socket) = some c →
      Befalls h [] "connection_closed" (.dropped c.endpoint)
        { h with connections := h.connections.eraseP (isTakenAs socket) }

variable {kind : String} {reason : StopReason}

theorem Befalls.atWork (hbefalls : Befalls h hs kind reason h₁) : h.AtWork := by
  cases hbefalls with
  | refused hphase => exact atWork_of_phase hphase (by decide) rfl
  | fault hfault => exact hfault.atWork
  | dropped hlive hphase => exact atWork_of_live hlive hphase

theorem Befalls.uneventful (hbefalls : Befalls h hs kind reason h₁) : Uneventful hs := by
  cases hbefalls with
  | refused _ hopens => exact hopens.uneventful
  | fault hfault => exact hfault.uneventful
  | dropped => exact List.forall_mem_nil _

/-- What milestones leave on a handler: the reason for which it failed, and whether the multiplexer
said that it lets go. -/
def marks (h : Handler) : Option StopReason × Bool :=
  (h.failure, h.peerStopAccepted)

theorem Resolves.marks {rows : UInt64} (hresolves : h.Resolves hs rows h') :
    h'.marks = h.marks := by
  cases hresolves <;> rfl

/-- What befalls a handler leaves no mark on it before it stops. -/
theorem Befalls.marks (hbefalls : Befalls h hs kind reason h₁) : h₁.marks = h.marks := by
  cases hbefalls with
  | refused | dropped => rfl
  | fault hfault =>
    cases hfault with
    | request _ _ _ hresolves => exact hresolves.marks
    | _ => rfl

/-! ### Courses -/

/-- Which milestones a turn passes, and what they have to do with the handler. -/
inductive Course : Handler → List Happening → Handler → Prop where
  | stays {h h' : Handler} {hs : List Happening} :
      Uneventful hs → h'.phase = h.phase → h'.marks = h.marks → Course h hs h'
  | enters {h h' : Handler} {front back : List Happening} :
      h'.phase ∈ h.phase.next → h'.phase ≠ .stopping → h'.marks = h.marks →
      Uneventful front → Uneventful back →
      Course h (front ++ .reported (.phaseEntered h'.phase.name) :: back) h'
  | stops {h : Handler} : h.AtWork → Course h h.stopHappenings h.stopped
  | fails {h h₁ : Handler} {hs : List Happening} {kind : String} {reason : StopReason} :
      Befalls h hs kind reason h₁ →
        Course h (hs ++ h₁.stopForHappenings kind) (h₁.stoppedFor reason)
  | freed {h : Handler} : h.phase = .stopping →
      Course h [.answered (.stopPeer h.peer) true] { h with peerStopAccepted := true }

theorem Course.turnsTo {phase : Phase} {h₁ : Handler} (hphase : phase ∈ h.phase.next)
    (hnot : phase ≠ .stopping) (hmarks : h₁.marks = h.marks) (front back : List Happening)
    (hquiet : Uneventful (front ++ back)) :
    Course h (front ++ .reported (.phaseEntered phase.name) :: back) { h₁ with phase } := by
  obtain ⟨hfront, hback⟩ := List.forall_mem_append.1 hquiet
  have henters : Course h _ { h₁ with phase } := .enters hphase hnot hmarks hfront hback
  exact henters

theorem Move.course (hmove : Move h hs h') : Course h hs h' := by
  cases hmove with
  | exchange _ _ hstep => exact .stays (uneventful_of_traffic hstep.traffic.2) rfl rfl
  | tableInfo _ _ hhear => exact .stays (uneventful_of_hear hhear) rfl rfl
  | allConnected hphase =>
    exact .turnsTo (by rw [hphase]; decide) (by decide) rfl [] [] (List.forall_mem_nil _)
  | @rendezvous h₁ _ first' rest _ _ _ hphase _ _ hresolves hrequest =>
    obtain ⟨-, back, rfl, htraffic⟩ := hrequest.traffic
    have hmarks : (h₁.put [] first' rest).marks = h.marks := hresolves.marks
    refine .turnsTo (by rw [hphase]; decide) (by decide) hmarks _ [] ?_
    rw [List.append_nil]
    exact hresolves.uneventful.append
      (List.forall_mem_cons.2 ⟨rfl, uneventful_of_traffic htraffic⟩)
  | @streamStart _ first' rest _ _ _ writer hphase _ hhear hsupplies =>
    have hmarks : marks { h.put [] first' rest with writer := some writer } = h.marks := rfl
    refine .turnsTo (by rw [hphase]; decide) (by decide) hmarks _ [] ?_
    rw [List.append_nil]
    exact (uneventful_of_hear hhear).append hsupplies.uneventful
  | writerTaken => exact .stays (List.forall_mem_singleton.2 rfl) rfl rfl
  | writerRefused | stopRefused =>
    exact .stays (List.forall_mem_cons.2 ⟨rfl, List.forall_mem_singleton.2 rfl⟩) rfl rfl
  | write _ hwrite => exact .stays (uneventful_of_traffic hwrite.traffic.2) rfl rfl
  | socketTaken _ hoffer => exact .stays (uneventful_of_offer hoffer) rfl rfl
  | socketRefused _ hoffer =>
    exact .stays ((uneventful_of_offer hoffer).append (List.forall_mem_singleton.2 rfl)) rfl rfl
  | waits => exact .stays (List.forall_mem_singleton.2 rfl) rfl rfl
  | streams now hphase =>
    exact .turnsTo (by rw [hphase]; decide) (by decide) rfl [] [_] (List.forall_mem_singleton.2 rfl)
  | fails hfault => exact .fails (.fault hfault)
  | stopAccepted hphase => exact .freed hphase

theorem Turn.course (hturn : Turn h hs h') : Course h hs h' := by
  cases hturn with
  | move hmove => exact hmove.course
  | stops hlive hphase => exact .stops (atWork_of_live hlive hphase)
  | loses hlive hphase hfind heq =>
    subst heq
    exact .fails (.dropped hlive hphase hfind)
  | letsGo => exact .stays (List.forall_mem_nil _) rfl rfl
  | @finishes last hphase _ hlast =>
    have hnext : last ∈ h.phase.next := by
      rw [hphase]
      cases last <;> first | decide | cases hlast
    have hnot : last ≠ .stopping := by
      rintro rfl
      cases hlast
    exact .turnsTo hnext hnot rfl [] [] (List.forall_mem_nil _)
  | concludes => exact .stays (List.forall_mem_singleton.2 rfl) rfl rfl

/-- A handler begins with a greeting, and then all its connections are open, or the
handler stops. -/
theorem Begins.course (hphase : h.phase = .initializing) (hbegins : Begins h hs h') :
    ∃ back, hs = h.greetings ++ back ∧ Course h back h' := by
  cases hbegins with
  | opens hopens => exact ⟨_, rfl, .stays hopens.uneventful rfl rfl⟩
  | fails hopens => exact ⟨_, List.append_assoc .., .fails (.refused hphase hopens)⟩

/-! ### Phases -/

theorem next_of_atWork (hwork : h.AtWork) : Phase.stopping ∈ h.phase.next := by
  unfold AtWork at hwork
  cases hphase : h.phase <;> rw [hphase] at hwork <;>
    first | decide | exact absurd (by decide) hwork

theorem phases_cons_entered (name : String) (hs : List Happening) :
    phases (.reported (.phaseEntered name) :: hs) = name :: phases hs := rfl

theorem phases_stop (h : Handler) : phases h.stopHappenings = [Phase.stopping.name] := by
  obtain ⟨back, hback, heq⟩ := h.stopHappenings_eq
  rw [heq, phases_cons_entered, hback.phases]

theorem Course.phases (hcourse : Course h hs h') :
    phases hs = [] ∧ h'.phase = h.phase ∨
      phases hs = [h'.phase.name] ∧ h'.phase ∈ h.phase.next := by
  cases hcourse with
  | stays hnone hphase => exact .inl ⟨hnone.phases, hphase⟩
  | enters hphase _ _ hfront hback =>
    refine .inr ⟨?_, hphase⟩
    rw [phases_append, hfront.phases, phases_cons_entered, hback.phases]
    rfl
  | stops hwork => exact .inr ⟨h.phases_stop, next_of_atWork hwork⟩
  | @fails h₁ _ kind reason hbefalls =>
    refine .inr ⟨?_, next_of_atWork hbefalls.atWork⟩
    have hstop : ReplicaHandshake.phases (h₁.stopForHappenings kind) = [Phase.stopping.name] :=
      h₁.phases_stop
    rw [phases_append, hbefalls.uneventful.phases, hstop]
    rfl
  | freed => exact .inl ⟨rfl, rfl⟩

/-- On its course a handler learns that the multiplexer lets go, or knows of it what it knew. -/
theorem Course.freedPeers (hcourse : Course h hs h') :
    ReplicaHandshake.freedPeers hs = [] ∧ h'.peerStopAccepted = h.peerStopAccepted ∨
      ReplicaHandshake.freedPeers hs = [h.peer] ∧ h'.peerStopAccepted = true := by
  have hstop : ∀ h : Handler, ReplicaHandshake.freedPeers h.stopHappenings = [] := by
    intro h
    obtain ⟨back, hback, heq⟩ := h.stopHappenings_eq
    rw [heq]
    exact hback.freedPeers
  cases hcourse with
  | stays hquiet _ hmarks => exact .inl ⟨hquiet.freedPeers, congrArg Prod.snd hmarks⟩
  | enters _ _ hmarks hfront hback =>
    refine .inl ⟨?_, congrArg Prod.snd hmarks⟩
    rw [freedPeers_append, hfront.freedPeers]
    exact hback.freedPeers
  | stops => exact .inl ⟨hstop h, rfl⟩
  | @fails h₁ _ kind reason hbefalls =>
    refine .inl ⟨?_, congrArg Prod.snd hbefalls.marks⟩
    rw [freedPeers_append, hbefalls.uneventful.freedPeers]
    exact hstop h₁
  | freed => exact .inr ⟨rfl, rfl⟩

theorem phases_greetings (h : Handler) : phases h.greetings = [h.phase.name] := rfl

/-- What holds when a handler is greeted, and is kept on every course, holds all its life. -/
@[elab_as_elim]
theorem Life.along {P : List Happening → Handler → Prop} (hlife : Life table past h)
    (hgreets : ∀ instanceId peer frameBuffer timeout now,
      P (new instanceId peer table frameBuffer timeout now).greetings
        (new instanceId peer table frameBuffer timeout now))
    (hcourse : ∀ past h hs h', P past h → Course h hs h' → P (past ++ hs) h') : P past h := by
  induction hlife with
  | begins _ hbegins =>
    obtain ⟨back, rfl, h⟩ := hbegins.course rfl
    exact hcourse _ _ _ _ (hgreets ..) h
  | turns _ hturn ih => exact hcourse _ _ _ _ ih hturn.course

/-- A handler is in the phase that it has entered last. -/
theorem Life.phase (hlife : Life table past h) : (phases past).getLast? = some h.phase.name := by
  refine hlife.along ?_ ?_
  · intro instanceId peer frameBuffer timeout now
    rw [phases_greetings]
    rfl
  · intro past h hs h' ih hcourse
    obtain ⟨hnone, hphase⟩ | ⟨hsome, -⟩ := hcourse.phases
    · rw [phases_append, hnone, List.append_nil, hphase, ih]
    · rw [phases_append, hsome, List.getLast?_concat]

theorem isTerminal_of_next {old new : Phase} (hnext : new ∈ old.next) (hnew : new ≠ .stopping) :
    new.isTerminal ↔ old = .stopping := by
  cases old <;> cases new <;> simp_all [Phase.next, Phase.isTerminal]

theorem stopping_name_ne {phase : Phase} (hphase : phase ≠ .stopping) :
    Phase.stopping.name ≠ phase.name := by
  cases phase <;> first | decide | exact absurd rfl hphase

/-- A handler has entered `stopping` exactly if it is not at work any more. -/
theorem Life.stopping_iff (hlife : Life table past h) :
    Phase.stopping.name ∈ phases past ↔ ¬h.AtWork := by
  refine hlife.along ?_ ?_
  · intro instanceId peer frameBuffer timeout now
    have hwork : (new instanceId peer table frameBuffer timeout now).AtWork :=
      atWork_of_phase rfl Phase.noConfusion rfl
    exact iff_of_false (by rw [phases_greetings]; simp [new, Phase.name]) (not_not_intro hwork)
  · intro past h hs h' ih hcourse
    obtain ⟨hnone, hphase⟩ | ⟨hsome, hnext⟩ := hcourse.phases
    · rw [phases_append, hnone, List.append_nil, ih, AtWork, AtWork, hphase]
    · rw [phases_append, hsome, List.mem_append, List.mem_singleton, ih]
      by_cases hphase : h'.phase = .stopping
      · rw [hphase]
        exact iff_of_true (.inr rfl) (not_atWork_stopping hphase)
      · have hname := stopping_name_ne hphase
        have hterminal := isTerminal_of_next hnext hphase
        have hlive : h.phase.isTerminal = false := by
          cases hp : h.phase <;> rw [hp] at hnext <;> first | rfl | cases hnext
        unfold AtWork
        simp [hname, hphase, hterminal, hlive]

end Handler

end ReplicaHandshake
