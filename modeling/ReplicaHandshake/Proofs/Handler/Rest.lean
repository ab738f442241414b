import ReplicaHandshake.Proofs.Handler.Life
import ReplicaHandshake.Proofs.Handler.Poll

/-!
# Handlers at rest

Between the pieces of work that a controller lets it do, a live handler is *at rest*: it is
sound, and has not put off what it could have done.  It is at rest when it has begun
(`Begins.atRest`), and again after each of these pieces of work: a poll, a stop, and a
disconnection that is heard (`Behaves`).

What handlers do can also be said by the very work that they run (`Does`); all that this work always
comes to is true of it (`Does.of_always`).
-/

namespace ReplicaHandshake.Handler

variable {h h' : Handler} {hs : List Happening} {table : TableSettings}

/-- A live handler between two pieces of work. -/
structure AtRest (h : Handler) : Prop where
  sound : h.Sound
  settled : h.Settled
  live : h.phase.isLive

theorem Move.isLive (hmove : Move h hs h') (hlive : h.phase.isLive) : h'.phase.isLive := by
  cases hmove with
  | exchange | tableInfo | write | socketTaken | socketRefused => exact hlive
  | writerTaken | writerRefused | waits | stopAccepted | stopRefused => exact hlive
  | allConnected | rendezvous | streamStart | streams | fails => rfl

theorem isLive_of_way (hway : Way Move h hs h') (hlive : h.phase.isLive) : h'.phase.isLive := by
  induction hway with
  | refl => exact hlive
  | tail _ hmove ih => exact hmove.isLive ih

theorem atRest_of_stopping (hsound : h.Sound) (hphase : h.phase = .stopping) : h.AtRest where
  sound := hsound
  settled := settled_of_phase hphase (by decide) (by decide) (by decide)
  live := by rw [hphase]; rfl

/-! ### Pieces of work -/

section Does

variable {α : Type} {work : Work Handler α} {did : List Happening}

/-- A handler does a piece of work, and these are the happenings on its way. -/
def Does (work : Work Handler α) (h : Handler) (did : List Happening) (h' : Handler) : Prop :=
  ∃ entries a, (work.run h).Runs entries (a, h') ∧ did = happenings entries

theorem always_does (work : Work Handler α) (h : Handler) :
    Work.Always work h fun did _ h' => Does work h did h' :=
  fun entries r hruns => ⟨entries, r.1, hruns, rfl⟩

theorem Does.of_always {R : List Happening → Handler → Prop} (hdoes : Does work h did h')
    (halways : Work.Always work h fun did _ h' => R did h') : R did h' := by
  obtain ⟨entries, a, hruns, rfl⟩ := hdoes
  exact halways entries (a, h') hruns

end Does

/-- What it comes to that a handler is polled: it moves, and puts nothing off. -/
def Moves (h : Handler) (hs : List Happening) (h' : Handler) : Prop :=
  Way Move h hs h' ∧ h'.Settled

theorem poll_always {now : Instant} (hsound : h.Sound) :
    Work.Always (poll now) h fun hs _ h' => Moves h hs h' :=
  (poll_moves hsound).mono fun _ _ _ ⟨hway, hsettled, _⟩ => ⟨hway, hsettled⟩

/-- Whoever does this takes turns and comes to rest again.  A handler that is through with its
handshake stays in its phase, or is stopping. -/
structure Behaves (R : Handler → List Happening → Handler → Prop) : Prop where
  way : ∀ {h : Handler} {hs : List Happening} {h' : Handler}, R h hs h' → Way Turn h hs h'
  rest : ∀ {h : Handler} {hs : List Happening} {h' : Handler}, R h hs h' → h.AtRest → h'.AtRest
  through : ∀ {h : Handler} {hs : List Happening} {h' : Handler}, R h hs h' →
    ¬h.phase.isHandshaking → h'.phase = h.phase ∨ h'.phase = .stopping

theorem Behaves.name {R : Handler → List Happening → Handler → Prop} (hR : Behaves R)
    (hdid : R h hs h') : h'.peer = h.peer ∧ h'.tableName = h.tableName :=
  name_of_way (hR.way hdid)

theorem Behaves.stopping {R : Handler → List Happening → Handler → Prop} (hR : Behaves R)
    (hdid : R h hs h') (hphase : h.phase = .stopping) : h'.phase = .stopping := by
  have hover := hR.through hdid (by rw [hphase]; decide)
  rwa [hphase, or_self] at hover

theorem stops_behaves : Behaves Stops where
  way h := h.way
  rest h hrest := atRest_of_stopping (sound_of_way hrest.sound h.way) h.phase
  through h _ := .inr h.phase

theorem hears_behaves (socket : SocketId) : Behaves (Hears socket) where
  way h := h.way
  rest h hrest := by
    have hsound := sound_of_way hrest.sound h.way
    cases h with
    | isOther => exact hrest
    | loses => exact atRest_of_stopping hsound rfl
    | letsGo hphase => exact atRest_of_stopping hsound hphase
  through h _ := by
    cases h with
    | isOther | letsGo => exact .inl rfl
    | loses => exact .inr rfl

theorem Move.phase_of_over (hmove : Move h hs h') (hover : ¬h.phase.isHandshaking) :
    h'.phase = h.phase := by
  cases hmove with
  | exchange hpolls => exact absurd (isHandshaking_of_early (phase_of_polls hpolls)) hover
  | tableInfo hphase => exact absurd (isHandshaking_of_early (.inl hphase)) hover
  | fails hfault => exact absurd hfault.isHandshaking hover
  | allConnected hphase | rendezvous hphase | streamStart hphase | streams now hphase =>
    rw [hphase] at hover
    exact absurd rfl hover
  | writerTaken | writerRefused | write | socketTaken | socketRefused | waits | stopAccepted
    | stopRefused => rfl

theorem phase_of_way (hway : Way Move h hs h') (hover : ¬h.phase.isHandshaking) :
    h'.phase = h.phase := by
  induction hway with
  | refl => rfl
  | tail _ hmove ih => rw [hmove.phase_of_over (by rwa [ih]), ih]

theorem moves_behaves : Behaves Moves where
  way h := h.1.mono fun _ _ _ => .move
  rest h hrest := by
    have hturns : Way Turn _ _ _ := h.1.mono fun _ _ _ => .move
    exact ⟨sound_of_way hrest.sound hturns, h.2, isLive_of_way h.1 hrest.live⟩
  through h hover := .inl (phase_of_way h.1 hover)

/-- A handler that has just begun is at rest. -/
theorem Begins.atRest {instanceId : InstanceId} {peer : PeerId} {frameBuffer : Nat}
    {timeout : Duration} {now : Instant} (hvalid : table.validate = .ok ())
    (hbegins : Begins (new instanceId peer table frameBuffer timeout now) hs h) : h.AtRest := by
  have hsound := (Life.begins hvalid hbegins).sound
  obtain ⟨-, -, hopened | hrefused⟩ := hbegins.spec
  · have hsome := hsound.nonempty (by rw [hopened.phase]; rfl)
    refine ⟨hsound,
      ⟨fun _ => ?_, fun _ => ?_, fun _ c hc => ?_, fun h => ?_⟩, by rw [hopened.phase]; rfl⟩
    · obtain ⟨c, hc⟩ := List.exists_mem_of_ne_nil _ hsome
      exact ⟨c, hc, by rw [Connection.hasRequestedTableInfo, (hopened.connections c hc).1.state]⟩
    · have hzero := hopened.fresh.1
      simpa [allReady, hzero, eq_comm] using hsome
    · exact Connection.isHeard_of_state (by rw [(hopened.connections c hc).1.state]; decide)
    · rw [hopened.phase] at h
      cases h
  · exact atRest_of_stopping hsound hrefused.phase

end ReplicaHandshake.Handler
