import ReplicaHandshake.Proofs.Handler.Failing

/-!
# Starts of the data stream

Whatever a connection takes out of its inbound buffer it judges there and then.  A start of the data
stream is in its place if the stream was asked for, and it comes by the first socket (`InPlace`):
then it is accepted.  Over any other one the handler trips: it fails at once, and never comes to the
handoff (`Life.starts`).
-/

namespace ReplicaHandshake

/-- A start of the data stream was taken out of an inbound buffer. -/
def Happening.startTaken : Happening :=
  .reported (.frameReceived FrameKind.startOfReplicationStream.name)

open Happening

/-! ### Connections -/

namespace Connection

variable {c c' : Connection} {hs : List Happening} {f : Failure}

theorem startTaken_ne_of_kind {kind : FrameKind} (hkind : kind ≠ .startOfReplicationStream) :
    startTaken ∉ [Happening.reported (.frameReceived kind.name)] := by
  cases kind <;> first | exact absurd rfl hkind | simp [startTaken, FrameKind.name]

theorem Write.startless (h : Write c hs c') : startTaken ∉ hs := by
  cases h <;> simp [startTaken]

theorem startless_of_writes (h : Way Write c hs c') : startTaken ∉ hs := by
  induction h with
  | refl => exact List.not_mem_nil
  | tail _ hwrite ih => exact fun hx => (List.mem_append.1 hx).elim ih hwrite.startless

theorem Step.startless (h : Step c hs c') : startTaken ∉ hs := by
  cases h with
  | write h => exact h.startless
  | wait | ask | read | block => simp [startTaken]

theorem Offer.startless {taken : Bool} (h : Offer c hs taken c') : startTaken ∉ hs := by
  cases h <;> simp [startTaken]

theorem Hear.start {event : ConnectionEvent} (h : Hear c hs event c') : startTaken ∉ hs ∨
    ∃ start, event = .streamStart start ∧
      hs = [startTaken, .noted (.accepted c.socketId (.startOfReplicationStream start))] := by
  cases h with
  | accept _ _ haccept =>
    cases haccept with
    | tableInfo => exact .inl (by simp [startTaken, Frame.kind, FrameKind.name])
    | streamStart => exact .inr ⟨_, rfl, rfl⟩

/-- A start that is not accepted is a violation of the protocol. -/
theorem Fault.start (h : Fault c hs f c') :
    startTaken ∉ hs ∨ hs = [startTaken] ∧ ∃ text, f = .protocol c.label text := by
  cases h with
  | refuse _ _ hrefuses =>
    cases hrefuses with
    | earlyStart | otherStart => exact .inr ⟨rfl, _, rfl⟩
    | duplicate | early | otherTable | missing =>
      exact .inl (startTaken_ne_of_kind (by simp [Frame.kind]))
    | unasked hkind =>
      exact .inl (startTaken_ne_of_kind (by obtain hkind | hkind := hkind <;> simp [hkind]))
  | connect | ask | writeNothing | write | read | ended | frame => exact .inl (by simp [startTaken])

theorem WriteEnds.startless (h : WriteEnds c hs f c') : startTaken ∉ hs := by
  obtain ⟨_, _, _, rfl, hwrites, hfault, e, rfl⟩ := h
  obtain hnone | ⟨-, _, heq⟩ := hfault.start
  · exact fun hx => (List.mem_append.1 hx).elim (startless_of_writes hwrites) hnone
  · cases heq

theorem Request.startless {r : RequestReplicationStream} (h : Request r c hs c') :
    startTaken ∉ hs := by
  cases h with
  | ask _ _ hwrites => simpa [startTaken] using startless_of_writes hwrites

theorem RequestFault.startless {r : RequestReplicationStream} (h : RequestFault r c hs f c') :
    startTaken ∉ hs := by
  cases h with
  | queue => exact List.not_mem_nil
  | write _ _ hends => simpa [startTaken] using hends.startless

end Connection

/-! ### Handlers -/

namespace Handler

variable {h h' : Handler} {past hs before after : List Happening} {table : TableSettings}

theorem Resolves.startless {rows : UInt64} (h : h.Resolves hs rows h') : startTaken ∉ hs := by
  cases h <;> simp [startTaken]

theorem Supplies.startless {tableName : String} {owned : Option TableWriter}
    {start : StartOfReplicationStream} {writer : TableWriter}
    (h : Supplies tableName owned start hs writer) : startTaken ∉ hs := by
  cases h <;> simp [startTaken]

theorem startless_stop (h : Handler) : startTaken ∉ h.stopHappenings := by
  intro hx
  obtain heq | hx := mem_stopHappenings hx
  · cases heq
  · cases hx

theorem startless_stopFor (h : Handler) (kind : String) :
    startTaken ∉ h.stopForHappenings kind := by
  rw [stopForHappenings, List.mem_cons, not_or]
  exact ⟨by simp [startTaken], h.startless_stop⟩

/-- A start is taken out in its place, and the first connection accepts it. -/
def HearsStart (h : Handler) (hs : List Happening) : Prop :=
  ∃ first rest start back, h.phase = .requestingStream ∧ h.connections = first :: rest ∧
    hs = startTaken :: .noted (.accepted first.socketId (.startOfReplicationStream start)) :: back ∧
    startTaken ∉ back

/-- A start is taken out of its place, and the handler fails. -/
def TripsOver (h : Handler) (hs : List Happening) (h' : Handler) : Prop :=
  ∃ h₁ endpoint text, h.IsEarly ∧
    Befalls h [startTaken] "protocol" (.failed (.protocol endpoint text)) h₁ ∧
    hs = startTaken :: h₁.stopForHappenings "protocol" ∧
      h' = h₁.stoppedFor (.failed (.protocol endpoint text))

theorem isEarly_of_polls {before : List Connection} (hpolls : h.Polls before) : h.IsEarly :=
  hpolls.imp_right And.left

theorem HearsStart.append {back : List Happening} (hhears : h.HearsStart hs)
    (hback : startTaken ∉ back) :
    h.HearsStart (hs ++ back) := by
  obtain ⟨first, rest, start, more, hphase, hconnections, rfl, hmore⟩ := hhears
  refine ⟨first, rest, start, more ++ back, hphase, hconnections, rfl, fun hx => ?_⟩
  exact (List.mem_append.1 hx).elim hmore hback

theorem hearsStart_of_hear {first first' : Connection} {rest : List Connection}
    {start : StartOfReplicationStream} (hphase : h.phase = .requestingStream)
    (hconnections : h.connections = first :: rest)
    (hhear : Connection.Hear first hs (.streamStart start) first') :
    startTaken ∉ hs ∨ h.HearsStart hs := by
  obtain hnone | ⟨_, -, rfl⟩ := hhear.start
  · exact .inl hnone
  · exact .inr ⟨first, rest, _, [], hphase, hconnections, rfl, List.not_mem_nil⟩

/-- A fault either has nothing to do with a start, or befalls a handler that has heard it in its
place, or is the start itself. -/
theorem Fault.start {f : Failure} (hfault : Fault h hs f h') : startTaken ∉ hs ∨ h.HearsStart hs ∨
    h.IsEarly ∧ hs = [startTaken] ∧ ∃ endpoint text, f = .protocol endpoint text := by
  cases hfault with
  | timeout | tableExists | openWriter | mismatch => exact .inl (by simp [startTaken])
  | connection hpolls _ hfault =>
    refine hfault.start.imp_right fun ⟨heq, text, hf⟩ =>
      .inr ⟨isEarly_of_polls hpolls, heq, _, text, hf⟩
  | divergence _ _ hhear =>
    obtain hnone | ⟨_, heq, -⟩ := hhear.start
    · exact .inl hnone
    · cases heq
  | request _ _ _ hresolves hrequest =>
    exact .inl fun hx => (List.mem_append.1 hx).elim hresolves.startless hrequest.startless
  | @createTable _ _ _ _ start error hphase hconnections hhear =>
    have hback : startTaken ∉
        [.answered (.createTable h.tableName start.metadata start.symbols) (.error error)] := by
          simp [startTaken]
    obtain hnone | hhears := hearsStart_of_hear hphase hconnections hhear
    · exact .inl fun hx => (List.mem_append.1 hx).elim hnone hback
    · exact .inr (.inl (hhears.append hback))
  | handoff _ hfault hio =>
    obtain ⟨_, _, rfl⟩ := hio
    obtain hnone | ⟨-, _, heq⟩ := hfault.start
    · exact .inl hnone
    · cases heq

theorem Move.start (hmove : Move h hs h') :
    startTaken ∉ hs ∨ h.HearsStart hs ∨ TripsOver h hs h' := by
  cases hmove with
  | exchange _ _ hstep => exact .inl hstep.startless
  | tableInfo _ _ hhear =>
    obtain hnone | ⟨_, heq, -⟩ := hhear.start
    · exact .inl hnone
    · cases heq
  | rendezvous _ _ _ hresolves hrequest =>
    exact .inl (by simpa [startTaken] using And.intro hresolves.startless hrequest.startless)
  | streamStart hphase hconnections hhear hsupplies =>
    have hentered : startTaken ∉ [Happening.reported (.phaseEntered Phase.handingOff.name)] := by
      simp [startTaken]
    obtain hnone | hhears := hearsStart_of_hear hphase hconnections hhear
    · exact .inl (by simpa [startTaken] using And.intro hnone hsupplies.startless)
    · exact .inr (.inl ((hhears.append hsupplies.startless).append hentered))
  | write _ hwrite => exact .inl hwrite.startless
  | socketTaken _ hoffer => exact .inl hoffer.startless
  | socketRefused _ hoffer => exact .inl (by simpa [startTaken] using hoffer.startless)
  | @fails h₁ _ f hfault =>
    have hstop := h₁.startless_stopFor f.kind
    obtain hnone | hhears | ⟨hearly, rfl, endpoint, text, rfl⟩ := hfault.start
    · exact .inl fun hx => (List.mem_append.1 hx).elim hnone hstop
    · exact .inr (.inl (hhears.append hstop))
    · exact .inr (.inr ⟨h₁, endpoint, text, hearly, .fault hfault, rfl, rfl⟩)
  | allConnected | writerTaken | writerRefused | waits | streams | stopAccepted | stopRefused =>
    exact .inl (by simp [startTaken])

theorem Turn.start (hturn : Turn h hs h') :
    startTaken ∉ hs ∨ h.HearsStart hs ∨ TripsOver h hs h' := by
  cases hturn with
  | move hmove => exact hmove.start
  | stops => exact .inl h.startless_stop
  | loses => exact .inl (startless_stopFor _ _)
  | letsGo | finishes | concludes => exact .inl (by simp [startTaken])

theorem Begins.startless {instanceId : InstanceId} {peer : PeerId} {frameBuffer : Nat}
    {timeout : Duration} {now : Instant}
    (hbegins : Begins (new instanceId peer table frameBuffer timeout now) hs h) :
    startTaken ∉ hs := by
  have hopens : ∀ {cs cs' : List Connection} {f : Option Failure} {hs : List Happening},
      Opens cs hs f cs' →
      startTaken ∉ hs := by
    intro cs cs' f hs hopens hx
    cases hopens.overture _ hx
  have hgreetings : startTaken ∉ (new instanceId peer table frameBuffer timeout now).greetings := by
    simp [greetings, startTaken]
  cases hbegins with
  | opens hopened => exact fun hx => (List.mem_append.1 hx).elim hgreetings (hopens hopened)
  | fails hopened =>
    intro hx
    rw [List.mem_append, List.mem_append] at hx
    obtain (hx | hx) | hx := hx
    · exact hgreetings hx
    · exact hopens hopened hx
    · exact startless_stopFor _ _ hx

/-! ### Before the handoff -/

/-- The handler never came to the handoff: it entered no such phase, and the multiplexer was
offered nothing. -/
structure NeverHandsOff (hs : List Happening) : Prop where
  unoffered : Unoffered hs
  handingOff : Phase.handingOff.name ∉ phases hs
  streaming : Phase.streaming.name ∉ phases hs

theorem NeverHandsOff.append {hs' : List Happening} (hnever : NeverHandsOff hs)
    (hnever' : NeverHandsOff hs') :
    NeverHandsOff (hs ++ hs') where
  unoffered := hnever.unoffered.append hnever'.unoffered
  handingOff := by
    rw [phases_append, List.mem_append, not_or]
    exact ⟨hnever.handingOff, hnever'.handingOff⟩
  streaming := by
    rw [phases_append, List.mem_append, not_or]
    exact ⟨hnever.streaming, hnever'.streaming⟩

/-- Whoever neither comes to the handoff nor leaves it has nothing to do with it. -/
theorem Turn.neverHandsOff (hturn : Turn h hs h') (hsound : h.Sound) (hbefore : ¬h.IsDelivering)
    (hafter : ¬h'.IsDelivering) : NeverHandsOff hs := by
  have hunoffered := hturn.unoffered hsound fun hphase => hbefore (.inl hphase)
  obtain ⟨hnone, -⟩ | ⟨hone, -⟩ := hturn.course.phases
  · exact ⟨hunoffered, hnone ▸ List.not_mem_nil, hnone ▸ List.not_mem_nil⟩
  · rw [IsDelivering] at hafter
    refine ⟨hunoffered, ?_, ?_⟩ <;> rw [hone] <;> cases hphase : h'.phase <;> simp_all [Phase.name]

theorem IsEarly.not_delivering (hearly : h.IsEarly) : ¬h.IsDelivering := by
  rintro (hphase | hphase) <;> simp [IsEarly, IsGathering, hphase] at hearly

theorem not_delivering_of_over (hover : ¬h.AtWork) : ¬h.IsDelivering :=
  fun hdelivering => hover hdelivering.atWork

theorem neverHandsOff_of_overture (h : ∀ x ∈ hs, Overture x) : NeverHandsOff hs := by
  have hphases : ∀ phase ∈ phases hs, phase = Phase.initializing.name := by
    intro phase hphase
    obtain ⟨x, hx, hentered⟩ := List.mem_filterMap.1 hphase
    cases h x hx <;> cases hentered
    rfl
  refine ⟨unoffered_of_overture h, fun hmem => ?_, fun hmem => ?_⟩ <;>
    exact absurd (hphases _ hmem) (by decide)

theorem Life.neverHandsOff (hlife : Life table past h) : h.IsEarly → NeverHandsOff past := by
  refine hlife.invariant ?_ ?_ ?_
  · intro hs h hopened _
    exact neverHandsOff_of_overture hopened.overture
  · intro hs h hrefused hearly
    exact absurd hearly.atWork (not_atWork_stopping hrefused.phase)
  · intro past h hs h' hlife ih hturn hearly
    have hearly₀ := hturn.isEarly hearly
    exact (ih hearly₀).append
      (hturn.neverHandsOff hlife.sound hearly₀.not_delivering hearly.not_delivering)

/-! ### In its place, or not -/

/-- A start is in its place: the stream was asked for before, and the start is accepted by the
first socket. -/
def InPlace (before after : List Happening) : Prop :=
  (∃ request, requests before = [request]) ∧
    ∃ socket start rest, (openedSockets before).head? = some socket ∧
      after = .noted (.accepted (some socket) (.startOfReplicationStream start)) :: rest

/-- Over a start a handler failed at once, for a violation of the protocol, and stopped.  It never
came to the handoff. -/
structure FailsThere (past after : List Happening) : Prop where
  fails : ∃ rest,
    after = .reported (.failure "protocol") :: .reported (.phaseEntered Phase.stopping.name) :: rest
  never : NeverHandsOff past

/-- The handler is through, for a violation of the protocol. -/
structure HasTripped (h : Handler) : Prop where
  isOver : ¬h.AtWork
  failure : ∃ endpoint text, h.failure = some (.failed (.protocol endpoint text))

theorem eq_of_once {ε : Type} {x : ε} {front back back' : List ε} (hback : x ∉ back)
    (heq : x :: back = front ++ x :: back') : front = [] ∧ back' = back := by
  cases front with
  | nil =>
    cases heq
    exact ⟨rfl, rfl⟩
  | cons y front =>
    injection heq with _ heq
    exact absurd (heq ▸ by simp) hback

/-- What follows one of them in two histories follows it in the second, or already in the first. -/
theorem split_of_append {ε : Type} {x : ε} {past hs before after : List ε}
    (heq : past ++ hs = before ++ x :: after) :
    (∃ front, before = past ++ front ∧ hs = front ++ x :: after) ∨
      ∃ rest, past = before ++ x :: rest ∧ after = rest ++ hs := by
  obtain h | ⟨between, rfl, hin⟩ := List.append_eq_append_iff.1 heq
  · exact .inl h
  · cases between with
    | nil => exact .inl ⟨[], by simp, by simpa using hin.symm⟩
    | cons y rest =>
      injection hin with hy hrest
      exact .inr ⟨rest, by rw [hy], hrest⟩

theorem HearsStart.inPlace {front : List Happening} (hhears : h.HearsStart hs)
    (hlife : Life table past h) (hsplit : hs = front ++ startTaken :: after) :
    InPlace (past ++ front) after := by
  obtain ⟨first, rest, start, back, hphase, hconnections, rfl, hback⟩ := hhears
  obtain ⟨rfl, rfl⟩ := eq_of_once (by simpa [startTaken] using hback) hsplit
  obtain ⟨request, hrequests, -⟩ := hlife.asked (.inl hphase)
  obtain ⟨hsome, hfirst⟩ := hlife.head (atWork_of_phase hphase (by decide) rfl) hconnections
  obtain ⟨socket, hsocket⟩ := Option.isSome_iff_exists.1 hsome
  rw [List.append_nil]
  exact ⟨⟨request, hrequests⟩, socket, start, back, hfirst.symm.trans hsocket, by rw [hsocket]⟩

theorem TripsOver.hasTripped {front : List Happening} (htrips : TripsOver h hs h')
    (hturn : Turn h hs h') (hlife : Life table past h)
    (hsplit : hs = front ++ startTaken :: after) :
    FailsThere (past ++ hs) after ∧ h'.HasTripped := by
  obtain ⟨h₁, endpoint, text, hearly, hbefalls, rfl, rfl⟩ := htrips
  obtain ⟨rfl, rfl⟩ := eq_of_once (h₁.startless_stopFor "protocol") hsplit
  have hover : ¬(h₁.stoppedFor (.failed (.protocol endpoint text))).AtWork :=
    not_atWork_stopping rfl
  obtain ⟨hnone, -⟩ := hlife.fails.resolve_right fun hfailed => hfailed.1 hearly.atWork
  have hnever := (hlife.neverHandsOff hearly).append
    (hturn.neverHandsOff hlife.sound hearly.not_delivering (not_delivering_of_over hover))
  refine ⟨⟨⟨_, rfl⟩, hnever⟩, hover, endpoint, text, ?_⟩
  rw [hbefalls.failure, hnone, Option.none_or]

theorem HasTripped.turn (htripped : h.HasTripped) (hturn : Turn h hs h') (hsound : h.Sound) :
    h'.HasTripped ∧ NeverHandsOff hs := by
  obtain ⟨hover, endpoint, text, hfailure⟩ := htripped
  have hover' : ¬h'.AtWork := fun hwork => hover ((hturn.view hsound).roster hwork).1
  exact ⟨⟨hover', endpoint, text, hturn.course.failure_eq hfailure⟩,
    hturn.neverHandsOff hsound (not_delivering_of_over hover) (not_delivering_of_over hover')⟩

theorem FailsThere.append (hfails : FailsThere past after) (hnever : NeverHandsOff hs) :
    FailsThere (past ++ hs) (after ++ hs) := by
  obtain ⟨⟨rest, rfl⟩, hpast⟩ := hfails
  exact ⟨⟨rest ++ hs, rfl⟩, hpast.append hnever⟩

theorem InPlace.append (hplace : InPlace before after) (hs : List Happening) :
    InPlace before (after ++ hs) := by
  obtain ⟨hasked, socket, start, rest, hfirst, rfl⟩ := hplace
  exact ⟨hasked, socket, start, rest ++ hs, hfirst, rfl⟩

/-- All its life, a start that a handler takes out is in its place, or the handler trips over it. -/
theorem Life.starts (hlife : Life table past h) :
    ∀ before after, past = before ++ startTaken :: after →
    InPlace before after ∨ FailsThere past after ∧ h.HasTripped := by
  induction hlife with
  | begins _ hbegins =>
    rintro before after rfl
    exact absurd (by simp) hbegins.startless
  | @turns past hs h h' hlife hturn ih =>
    intro before after hsplit
    obtain ⟨front, rfl, hin⟩ | ⟨rest, rfl, rfl⟩ := split_of_append hsplit
    · obtain hnone | hhears | htrips := hturn.start
      · exact absurd (hin ▸ by simp) hnone
      · exact .inl (hhears.inPlace hlife hin)
      · exact .inr (htrips.hasTripped hturn hlife hin)
    · refine (ih before rest rfl).imp (·.append hs) fun ⟨hfails, htripped⟩ => ?_
      obtain ⟨htripped', hnever⟩ := htripped.turn hturn hlife.sound
      exact ⟨hfails.append hnever, htripped'⟩

end Handler

end ReplicaHandshake
