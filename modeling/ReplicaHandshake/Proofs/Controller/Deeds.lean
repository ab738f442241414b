import ReplicaHandshake.Proofs.Controller.House
import ReplicaHandshake.Proofs.Controller.Rounds

/-!
# Deeds

A controller lets its handlers do one thing at a time: a handler is polled, is asked to stop, hears
of a closed socket, or comes to its end.  These are the *deeds* of a handler (`Handler.Deed`); of a
poll it is said by its very work what it does.

A `House.Deed` is a step of a house in which one handler does something, or begins, or handlers
that have stopped are forgotten; all else is a formality, on nobody's behalf
(`Happening.IsFormal`).  Whatever has to do with the deeds of handlers from their beginning on,
everyone has to do with (`House.everyone_of_deeds`).
-/

namespace ReplicaHandshake

open Registry

/-- What a controller says and asks on nobody's behalf: it reports on an instruction or how much
there is of something, fetches disconnections, or reads the clock. -/
inductive Happening.IsFormal : Happening → Prop where
  | instruction (kind outcome : String) : IsFormal (.reported (.instruction kind outcome))
  | handlerCounts (initializing streaming distressed : Nat) :
      IsFormal (.reported (.handlerCounts initializing streaming distressed))
  | pendingInstructions (count : Nat) : IsFormal (.reported (.pendingInstructions count))
  | fetches (ds : List Disconnection) : IsFormal (.answered .fetchDisconnections ds)
  | reads (now : Instant) : IsFormal (.answered .readClock now)

theorem Happening.IsFormal.isSilent {x : Happening} (h : x.IsFormal) : x.IsSilent := by
  cases h <;> exact ⟨rfl, rfl, rfl, rfl⟩

namespace Handler

variable {h h' : Handler} {hs : List Happening}

/-- What a handler does at a time. -/
inductive Deed : Handler → List Happening → Handler → Prop where
  | polled {h h' : Handler} {hs : List Happening} (now : Instant) :
      h.AtRest → Does (poll now) h hs h' → Deed h hs h'
  | stops {h h' : Handler} {hs : List Happening} : Stops h hs h' → Deed h hs h'
  | hears {h h' : Handler} {hs : List Happening} (socket : SocketId) : Hears socket h hs h' →
    Deed h hs h'
  | ends {h : Handler} {last : Phase} :
      h.isDrained → last.isTerminal → Deed h (endings h last) { h with phase := last }
  | rests (h : Handler) : Deed h [] h

theorem Deed.way (hdeed : Deed h hs h') : Way Turn h hs h' := by
  cases hdeed with
  | polled now hrest hdoes => exact moves_behaves.way (hdoes.of_always (poll_always hrest.sound))
  | stops hstops => exact hstops.way
  | hears socket hhears => exact hhears.way
  | @ends last hdrained hlast =>
    have hfinishes : Turn h _ { h with phase := last } :=
      .finishes (phase_of_isDrained hdrained) hdrained hlast
    exact (Way.single hfinishes).tail (.concludes (outcome last) hlast)
  | rests => exact .refl h

/-- Those that are picked do what they do, and the others nothing. -/
theorem deed_of_only {R : Handler → List Happening → Handler → Prop} {test : Handler → Bool}
    (honly : Only test R h hs h') (hR : R h hs h' → Deed h hs h') : Deed h hs h' := by
  obtain ⟨-, hdid⟩ | ⟨-, rfl, rfl⟩ := honly.cases
  · exact hR hdid
  · exact .rests _

end Handler

namespace House

open Handler

/-- One step of a controller, by what its handlers do. -/
inductive Deed : House → List Entry → House → Prop where
  | does {s : House} {before after : List Handler} {h h' : Handler} {hs : List Happening} :
      Handler.Deed h hs h' →
      Deed { s with handlers := before ++ h :: after } (marked h.peer hs)
        { s with handlers := before ++ h' :: after }
  | begins {s : House} {h : Handler} {hs : List Happening} {table : TableSettings}
      {timeout : Duration} {now : Instant} :
      table.validate = .ok () →
      Begins (new s.instanceId s.nextPeer table s.frameBuffer timeout now) hs h →
      Deed s (marked s.nextPeer hs) { s with handlers := s.handlers ++ [h], nextPeer :=
        s.nextPeer.next }
  | forgets {s : House} {kept : List Handler} (gone : List Handler) :
      s.handlers.Perm (gone ++ kept) → (∀ h ∈ gone, ¬h.AtWork) →
        Deed s [] { s with handlers := kept }
  | speaks (s : House) {x : Happening} : x.IsFormal → Deed s [⟨none, x⟩] s

variable {s s' : House} {entries past : List Entry}

theorem Deed.step (hdeed : Deed s entries s') : Step s entries s' := by
  cases hdeed with
  | does hdeed => exact .turns hdeed.way
  | begins hvalid hbegins => exact .begins hvalid hbegins
  | forgets gone hperm hover => exact .forgets gone hperm hover
  | speaks _ hformal => exact .silent _ hformal.isSilent

theorem steps_of_deeds (hway : Way Deed s entries s') : Way Step s entries s' :=
  hway.mono fun _ _ _ => Deed.step

theorem reorders {hs hs' : List Handler} (hperm : hs.Perm hs') :
    Deed { s with handlers := hs } [] { s with handlers := hs' } :=
  .forgets [] hperm (by simp)

theorem Deed.formal (hdeed : Deed s entries s') {e : Entry} (he : e ∈ entries)
    (hnone : e.peer = none) :
    e.happening.IsFormal := by
  have hmarked : ∀ {peer : PeerId} {hs : List Happening}, e ∉ marked peer hs := by
    intro peer hs he
    obtain ⟨_, -, rfl⟩ := List.mem_map.1 he
    cases hnone
  cases hdeed with
  | does | begins => exact absurd he hmarked
  | forgets => cases he
  | speaks _ hformal =>
    obtain rfl := List.mem_singleton.1 he
    exact hformal

theorem Everyone.mono {P Q : TableSettings → List Happening → Handler → Prop}
    (hall : Everyone P past s)
    (hPQ : ∀ {table : TableSettings} {past : List Happening} {h : Handler}, P table past h →
      Q table past h) :
    Everyone Q past s where
  lives h hh := (hall.lives h hh).imp fun _ => hPQ
  every peer hsome := by
    obtain ⟨table, h, hpeer, hP⟩ := hall.every peer hsome
    exact ⟨table, h, hpeer, hPQ hP⟩

/-- What every handler has when it begins, and keeps in its deeds, everyone has. -/
theorem everyone_of_deeds {P : TableSettings → List Happening → Handler → Prop}
    (hnone : s.handlers = []) (hway : Way Deed s entries s')
    (hbegins : ∀ {peer : PeerId} {table : TableSettings} {timeout : Duration} {now : Instant}
      {hs : List Happening} {h : Handler}, table.validate = .ok () →
      Begins (new s.instanceId peer table s.frameBuffer timeout now) hs h → P table hs h)
    (hdeed : ∀ {table : TableSettings} {past hs : List Happening} {h h' : Handler},
      Life table past h →
      P table past h → Handler.Deed h hs h' → P table (past ++ hs) h') : Everyone P entries s' := by
  have hstart : Chronicle [] s ∧ Everyone (fun table hs h => Life table hs h ∧ P table hs h) [] s ∧
      s.instanceId = s.instanceId ∧ s.frameBuffer = s.frameBuffer :=
    ⟨chronicle_nil hnone, everyone_nil hnone, rfl, rfl⟩
  have hend := hway.invariant (I := fun past t => Chronicle past t ∧
    Everyone (fun table hs h => Life table hs h ∧ P table hs h) past t ∧
    t.instanceId = s.instanceId ∧ t.frameBuffer = s.frameBuffer) ?_ hstart
  · rw [List.nil_append] at hend
    exact hend.2.1.mono fun h => h.2
  · rintro past t entries t' ⟨hc, hall, hid, hbuffer⟩ hdone
    refine ⟨hdone.step.chronicle hc, ?_⟩
    cases hdone with
    | @does t before after h h' hs hdoes =>
      obtain ⟨table, hlife, hP⟩ := hall.lives h (by simp)
      have hmore := And.intro (hlife.of_way hdoes.way) (hdeed hlife hP hdoes)
      exact ⟨hall.turns hc.distinct (peer_of_way hdoes.way) hmore, hid, hbuffer⟩
    | begins hvalid hbegun =>
      have hlife := Life.begins hvalid hbegun
      rw [hid, hbuffer] at hbegun
      have hmore := And.intro hlife (hbegins hvalid hbegun)
      exact ⟨hall.begins hc.issued (hc.unborn _ (Nat.le_refl _)) hbegun.spec.1 hmore, hid, hbuffer⟩
    | forgets gone hperm =>
      rw [List.append_nil]
      exact ⟨hall.forgets hperm, hid, hbuffer⟩
    | speaks => exact ⟨hall.said _, hid, hbuffer⟩

end House

end ReplicaHandshake
