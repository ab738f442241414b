import ReplicaHandshake.Proofs.Controller.Registry

/-!
# The work of a controller, step by step

A `Ledger` is a controller as far as its handlers are concerned, with what is to be remembered of
its work:  who was asked to stop, and which disconnections have been fetched and not been heard.

The work of a controller is made of small steps: `Step` says what happens until the handlers
are reaped, `OpenStep` adds the reaping, and `AnyStep` what a controller does when it is
closed.  Every step is one of the house of its handlers, or several, and leaves the live ones
at rest (`AnyStep.comes`).
-/

namespace ReplicaHandshake

open Handler Registry

/-- A controller as far as its handlers are concerned. -/
structure Ledger where
  registry : Registry
  nextPeer : PeerId
  instanceId : InstanceId
  /-- The size of all frame buffers. -/
  frameBuffer : Nat
  /-- The peers whose tables were removed while they were live. -/
  asked : List PeerId
  /-- The disconnections that were fetched and have not been heard. -/
  waiting : List Disconnection

namespace Ledger

/-- The house of the handlers. -/
def house (b : Ledger) : House :=
  ⟨b.registry.handlers, b.nextPeer, b.instanceId, b.frameBuffer⟩

/-- What happens in a tick until the handlers are reaped. -/
inductive Step : Ledger → List Entry → Ledger → Prop where
  | reports (b : Ledger) (m : Metric) : Step b [⟨none, .reported m⟩] b
  | adds {b : Ledger} {table : TableSettings} {timeout : Duration} {now : Instant}
      {hs : List Happening} {h : Handler} :
      table.validate = .ok () → b.registry.isActive table.tableName = false →
      Begins (new b.instanceId b.nextPeer table b.frameBuffer timeout now) hs h →
      Step b (marked b.nextPeer hs)
        { b with
          registry := (b.registry.clearDistressed table.tableName).2.insert h
          nextPeer := b.nextPeer.next }
  | stops {b : Ledger} {h : Handler} {entries : List Entry} {r : Registry} :
      h ∈ b.registry.live → Round (Only (·.tableName = h.tableName) Stops) b.registry entries r →
      Step b entries
        { b with registry := r.markVoluntary h.peer, asked := b.asked ++ [h.peer] }
  | forgets {b : Ledger} (tableName : String) :
      (∀ h ∈ b.registry.live, h.tableName ≠ tableName) →
      Step b [] { b with registry := (b.registry.clearDistressed tableName).2 }
  | fetches {b : Ledger} (ds : List Disconnection) : b.waiting = [] →
      Step b [⟨none, .answered .fetchDisconnections ds⟩] { b with waiting := ds }
  | hears {b : Ledger} {d : Disconnection} {rest : List Disconnection} {entries : List Entry}
      {r : Registry} :
      b.waiting = d :: rest →
      Round (Only (·.peer = d.peer) (Hears d.socket)) b.registry entries r →
      Step b entries { b with registry := r, waiting := rest }
  | polls {b : Ledger} {entries : List Entry} {r : Registry} :
      b.waiting = [] → Round Moves b.registry entries r → Step b entries { b with registry := r }
  | promotes (b : Ledger) : Step b [] { b with registry := b.registry.promote.2 }

/-- What happens while a controller is open. -/
inductive OpenStep : Ledger → List Entry → Ledger → Prop where
  | works {b b' : Ledger} {entries : List Entry} : Step b entries b' → OpenStep b entries b'
  | reaps {b : Ledger} {entries : List Entry} {r : Registry} :
      Reaps b.registry entries r → OpenStep b entries { b with registry := r }

/-- What happens at all. -/
inductive AnyStep : Ledger → List Entry → Ledger → Prop where
  | goesOn {b b' : Ledger} {entries : List Entry} : OpenStep b entries b' → AnyStep b entries b'
  | asksAll {b : Ledger} {entries : List Entry} {r : Registry} (voluntary : List PeerId) :
      (∀ peer ∈ voluntary, peer ∈ b.registry.voluntary ∨ ∃ h ∈ b.registry.live, h.peer = peer) →
      Round Stops { b.registry with voluntary } entries r →
      AnyStep b entries { b with registry := r }
  | readsClock (b : Ledger) (now : Instant) : AnyStep b [⟨none, .answered .readClock now⟩] b
  | closes {b : Ledger} : (∀ h ∈ b.registry.live, h.phase = .stopping) →
      AnyStep b [] { b with registry := {} }

variable {b b' : Ledger} {entries : List Entry}

/-! ### As steps of the house -/

theorem isSilent_reported (m : Metric) : (Happening.reported m).IsSilent :=
  ⟨rfl, rfl, rfl, rfl⟩

theorem Step.comes (hstep : Step b entries b') (hrest : b.registry.AtRest) :
    Way House.Step b.house entries b'.house ∧ b'.registry.AtRest := by
  cases hstep with
  | reports m => exact ⟨.single (.silent _ (isSilent_reported m)), hrest⟩
  | @adds table _ _ hs h hvalid _ hbegins =>
    have hcleared := clearDistressed_comes hrest table.tableName b.house
    have hlive : (b.registry.clearDistressed table.tableName).2.live = b.registry.live := rfl
    generalize (b.registry.clearDistressed table.tableName).2 = r at hcleared hlive ⊢
    have hbegun : House.Step { b.house with handlers := r.handlers } (marked b.nextPeer hs)
        { b.house with handlers := r.handlers ++ [h], nextPeer := b.nextPeer.next } :=
          .begins hvalid hbegins
    have hreorders :=
      House.reorders (s := { b.house with nextPeer := b.nextPeer.next }) (r.handlers_insert h)
    have hway := (hcleared.way.tail hbegun).tail hreorders.step
    rw [List.nil_append, List.append_nil] at hway
    refine ⟨hway, fun x hx => ?_, hcleared.rest.distressed⟩
    obtain hx | rfl := mem_live_insert.1 hx
    · exact hcleared.rest.live x hx
    · exact hbegins.atRest hvalid
  | stops _ hround =>
    have hcomes := hround.comes (stops_behaves.only _) hrest b.house
    exact ⟨hcomes.way, hcomes.rest.live, hcomes.rest.distressed⟩
  | forgets tableName =>
    have hcomes := clearDistressed_comes hrest tableName b.house
    exact ⟨hcomes.way, hcomes.rest⟩
  | fetches ds => exact ⟨.single (.silent _ ⟨rfl, rfl, rfl, rfl⟩), hrest⟩
  | @hears d _ _ _ _ hround =>
    have hcomes := hround.comes ((hears_behaves d.socket).only _) hrest b.house
    exact ⟨hcomes.way, hcomes.rest⟩
  | polls _ hround =>
    have hcomes := hround.comes moves_behaves hrest b.house
    exact ⟨hcomes.way, hcomes.rest⟩
  | promotes =>
    have hcomes := promote_comes hrest b.house
    exact ⟨hcomes.way, hcomes.rest⟩

theorem OpenStep.comes (hstep : OpenStep b entries b') (hrest : b.registry.AtRest) :
    Way House.Step b.house entries b'.house ∧ b'.registry.AtRest := by
  cases hstep with
  | works hstep => exact hstep.comes hrest
  | reaps hreaps =>
    have hcomes := hreaps.comes hrest b.house
    exact ⟨hcomes.way, hcomes.rest⟩

theorem AnyStep.comes (hstep : AnyStep b entries b') (hrest : b.registry.AtRest) :
    Way House.Step b.house entries b'.house ∧ b'.registry.AtRest := by
  cases hstep with
  | goesOn hstep => exact hstep.comes hrest
  | asksAll voluntary _ hround =>
    have hcomes := hround.comes stops_behaves ⟨hrest.live, hrest.distressed⟩ b.house
    exact ⟨hcomes.way, hcomes.rest⟩
  | readsClock => exact ⟨.single (.silent _ ⟨rfl, rfl, rfl, rfl⟩), hrest⟩
  | closes hstopping =>
    refine ⟨.single (.forgets b.registry.handlers ?_ ?_), by simp [live], by simp⟩
    · exact (List.append_nil _).symm ▸ .refl _
    · intro h hh
      exact (List.mem_append.1 hh).elim (fun hh => not_atWork_stopping (hstopping h hh))
        fun hh => not_atWork_of_distressed (hrest.distressed h hh)

theorem comes_of_way (hway : Way AnyStep b entries b') (hrest : b.registry.AtRest) :
    Way House.Step b.house entries b'.house ∧ b'.registry.AtRest := by
  induction hway with
  | refl => exact ⟨.refl _, hrest⟩
  | tail _ hstep ih =>
    obtain ⟨hway, hrest'⟩ := ih
    obtain ⟨hway', hrest''⟩ := hstep.comes hrest'
    exact ⟨hway.trans hway', hrest''⟩

theorem instanceId_of_way (hway : Way AnyStep b entries b') : b'.instanceId = b.instanceId := by
  induction hway with
  | refl => rfl
  | tail _ hstep ih =>
    rw [← ih]
    cases hstep with
    | goesOn hstep =>
      cases hstep with
      | works hstep => cases hstep <;> rfl
      | reaps => rfl
    | asksAll | readsClock | closes => rfl

/-- Every way of an open controller is one of any controller. -/
theorem any_of_open (hway : Way OpenStep b entries b') : Way AnyStep b entries b' :=
  hway.mono fun _ _ _ => .goesOn

/-- Every way up to the reaping is one of an open controller. -/
theorem open_of_works (hway : Way Step b entries b') : Way OpenStep b entries b' :=
  hway.mono fun _ _ _ => .works

end Ledger

end ReplicaHandshake
