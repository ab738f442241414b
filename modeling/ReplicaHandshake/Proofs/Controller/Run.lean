import ReplicaHandshake.Controller.Basic
import ReplicaHandshake.Proofs.Controller.Ticks

/-!
# Runs of a controller

A `Controller.Run` is whatever a controller does from its start on: instructions are submitted, it
ticks, and it is closed, in any order and any number of times, and the outside answers as it likes.

All that it does are steps of its ledger (`Run.way`).  So in every run the registry is kept in
order, and the chronicle of the house as well (`Run.inOrder`, `Run.chronicle`).
-/

namespace ReplicaHandshake.Controller

open Handler Registry Ledger

variable {c c' : Controller} {α : Type}

/-- The handlers of a controller. -/
def house (c : Controller) : House :=
  ⟨c.registry.handlers, c.nextPeer, c.instanceId, c.settings.frameBuffer⟩

/-! ### Runs -/

/-- What a controller has come to since its start, and by which entries. -/
inductive Run (settings : Settings) : List Entry → Controller → Prop where
  | start {instanceId : InstanceId} {entries : List Entry} {c : Controller} :
      (start instanceId settings).Runs entries (.ok c) → Run settings entries c
  | submit {past entries : List Entry} {c c' : Controller} {accepted : Bool} (i : Instruction) :
      Run settings past c → ((submit i).run c).Runs entries (accepted, c') →
      Run settings (past ++ entries) c'
  | tick {past entries : List Entry} {c c' : Controller} {busy : Bool} (now : Instant) :
      Run settings past c → ((tick now).run c).Runs entries (busy, c') →
      Run settings (past ++ entries) c'
  | close {past entries : List Entry} {c c' : Controller} :
      Run settings past c → (close.run c).Runs entries ((), c') → Run settings (past ++ entries) c'

variable {settings : Settings} {past entries : List Entry}

/-- What is done with a controller after its start. -/
inductive Continues : Controller → List Entry → Controller → Prop where
  | submit {c c' : Controller} {entries : List Entry} {accepted : Bool} (i : Instruction) :
      ((submit i).run c).Runs entries (accepted, c') → Continues c entries c'
  | tick {c c' : Controller} {entries : List Entry} {busy : Bool} (now : Instant) :
      ((tick now).run c).Runs entries (busy, c') → Continues c entries c'
  | close {c c' : Controller} {entries : List Entry} : (close.run c).Runs entries ((), c') →
    Continues c entries c'

/-- Whatever is done with a controller comes to steps of its ledger. -/
theorem Continues.way (hmore : Continues c entries c') {asked : List PeerId}
    (hord : (c.ledger asked []).InOrder) :
    ∃ asked', Way AnyStep (c.ledger asked []) entries (c'.ledger asked' []) := by
  cases hmore with
  | submit i hruns =>
    obtain ⟨heq, hway⟩ := submit_way i asked [] _ _ hruns
    rw [← heq] at hway
    exact ⟨asked, heq ▸ any_of_open (open_of_works hway)⟩
  | tick now hruns =>
    obtain ⟨more, hticks⟩ := tick_iff.1 hruns
    exact ⟨asked ++ more, any_of_open (hticks.open_way hord)⟩
  | close hruns => exact ⟨asked, (close_way hord _ _ hruns).1⟩

theorem continues_way {asked : List PeerId} (hway : Way Continues c entries c')
    (hord : (c.ledger asked []).InOrder) :
    ∃ asked', Way AnyStep (c.ledger asked []) entries (c'.ledger asked' []) := by
  induction hway with
  | refl => exact ⟨asked, .refl _⟩
  | tail _ hmore ih =>
    obtain ⟨asked₁, hway⟩ := ih
    obtain ⟨asked₂, hway'⟩ := hmore.way (inOrder_of_way hway hord)
    exact ⟨asked₂, hway.trans hway'⟩

/-- All that a controller does are steps of its ledger. -/
theorem Run.way (hrun : Run settings past c) :
    ∃ asked, Way AnyStep (blank c.instanceId settings.frameBuffer) past (c.ledger asked []) ∧
      (c.ledger asked []).InOrder := by
  have extend : ∀ {past entries : List Entry} {c c' : Controller},
      (∃ asked, Way AnyStep (blank c.instanceId settings.frameBuffer) past (c.ledger asked []) ∧
        (c.ledger asked []).InOrder) → Continues c entries c' →
      ∃ asked', Way AnyStep (blank c'.instanceId settings.frameBuffer) (past ++ entries)
        (c'.ledger asked' []) ∧
        (c'.ledger asked' []).InOrder := by
    rintro past entries c c' ⟨asked, hway, hord⟩ hcontinues
    obtain ⟨asked', hmore⟩ := hcontinues.way hord
    have hsame : c'.instanceId = c.instanceId := instanceId_of_way hmore
    rw [hsame]
    exact ⟨asked', hway.trans hmore, inOrder_of_way hmore hord⟩
  induction hrun with
  | @start instanceId _ c hruns =>
    obtain ⟨heq, hway⟩ := start_way instanceId settings _ _ hruns c rfl
    have hsame : c.instanceId = instanceId := congrArg Ledger.instanceId heq
    refine ⟨[], ?_⟩
    rw [heq, hsame]
    exact ⟨any_of_open (open_of_works hway), inOrder_empty .first⟩
  | submit i _ hruns ih => exact extend ih (.submit i hruns)
  | tick now _ hruns ih => exact extend ih (.tick now hruns)
  | close _ hruns ih => exact extend ih (.close hruns)

/-- In every run the registry is kept in order. -/
theorem Run.inOrder (hrun : Run settings past c) : c.registry.InOrder c.nextPeer := by
  obtain ⟨asked, -, hord⟩ := hrun.way
  exact hord

theorem Run.atRest (hrun : Run settings past c) : c.registry.AtRest :=
  hrun.inOrder.atRest

theorem Run.comes (hrun : Run settings past c) :
    Way House.Step (blank c.instanceId settings.frameBuffer).house past c.house := by
  obtain ⟨asked, hway, -⟩ := hrun.way
  exact (comes_of_way hway ⟨by simp [blank, live], by simp [blank]⟩).1

/-- In every run the chronicle is kept. -/
theorem Run.chronicle (hrun : Run settings past c) : House.Chronicle past c.house := by
  have hchronicle := House.chronicle_of_way hrun.comes (House.chronicle_nil rfl)
  rwa [List.nil_append] at hchronicle

/-- What every handler has when a controller begins it, and keeps in its turns, everyone has
in every run. -/
theorem Run.everyone {P : TableSettings → List Happening → Handler → Prop}
    (hrun : Run settings past c)
    (hbegins : ∀ {peer : PeerId} {table : TableSettings} {timeout : Duration} {now : Instant}
      {hs : List Happening} {h : Handler}, table.validate = .ok () →
      Begins (new c.instanceId peer table settings.frameBuffer timeout now) hs h → P table hs h)
    (hturn : ∀ {table : TableSettings} {past hs : List Happening} {h h' : Handler}, P table past h →
      Turn h hs h' → P table (past ++ hs) h') : House.Everyone P past c.house := by
  have hall := House.everyone_of_way hrun.comes (House.chronicle_nil rfl) hbegins hturn
      (House.everyone_nil rfl)
  rwa [List.nil_append] at hall

/-- Between two operations whoever streams has been moved. -/
theorem Run.promoted (hrun : Run settings past c) :
    ∀ h ∈ c.registry.initializing, h.phase ≠ .streaming := by
  induction hrun with
  | start hruns =>
    have hempty := congrArg Ledger.registry (start_way _ settings _ _ hruns _ rfl).1
    simp only [ledger, blank] at hempty
    simp [hempty]
  | submit i _ hruns ih =>
    have hsame := congrArg Ledger.registry (submit_way i [] [] _ _ hruns).1
    simp only [ledger] at hsame
    rwa [hsame]
  | tick now hrun hruns ih =>
    obtain ⟨more, hticks⟩ := tick_iff.1 hruns
    obtain ⟨asked, -, hord⟩ := hrun.way
    obtain ⟨c₁, _, _, _, r, -, -, hmoved, hreaps, rfl, -⟩ := hticks.way hord
    intro h hh
    rw [Settles.initializing hreaps] at hh
    exact hmoved h (List.mem_filter.1 hh).1
  | close hrun hruns =>
    obtain ⟨asked, -, hord⟩ := hrun.way
    rw [(close_way hord _ _ hruns).2]
    simp

/-! ### Visits -/

/-- A controller has come to the place in its work where it polls all live handlers, in a tick or
when it is closed. -/
inductive Reaches (c : Controller) (now : Instant) : List Entry → Controller → Prop where
  | tick {c₁ c₂ : Controller} {entries entries' : List Entry} {instructed disconnected : Bool} :
      ((drainInstructions now).run c).Runs entries (instructed, c₁) →
      (drainDisconnections.run c₁).Runs entries' (disconnected, c₂) →
      Reaches c now (entries ++ entries') c₂
  | close {c₁ : Controller} {entries entries' : List Entry} :
      ((onRegistry Registry.stopAll).run c).Runs entries ((), c₁) →
      Dialogue.readClock.Runs entries' now → Reaches c now (entries ++ entries') c₁

/-- A controller has polled the handlers before this one, and polls it now. -/
def Visits (c : Controller) (now : Instant) (entries : List Entry) (h : Handler) : Prop :=
  ∃ c₁ before after reached polled r, c.Reaches now reached c₁ ∧
    c₁.registry.live = before ++ h :: after ∧
    (updateAll (Handler.poll now) before).Runs polled r ∧ entries = reached ++ polled

theorem Reaches.way {now : Instant} (hreaches : c.Reaches now entries c') {asked : List PeerId}
    (hord : (c.ledger asked []).InOrder) :
    ∃ more, Way AnyStep (c.ledger asked []) entries (c'.ledger (asked ++ more) []) := by
  cases hreaches with
  | tick hinstructions hdisconnections =>
    obtain ⟨-, hcarried⟩ := drainInstructions_iff.1 hinstructions
    obtain ⟨more, hcarries⟩ := carries_iff.1 hcarried
    have hway :=
      any_of_open (open_of_works (hcarries.way (c := { c with queue := c.queue.cleared }) hord))
    have hway' := drainDisconnections_way (inOrder_of_way hway hord) _ _ hdisconnections
    exact ⟨more, hway.trans (any_of_open (open_of_works hway'))⟩
  | close hstops hreads =>
    have hreadClock : Dialogue.readClock.Records fun entries now =>
        entries = [⟨none, .answered .readClock now⟩] := Dialogue.records_call.2 fun _ => rfl
    obtain rfl := hreadClock _ _ hreads
    refine ⟨[], ?_⟩
    rw [List.append_nil]
    exact (stopAll_way hord _ _ hstops).1.tail (.readsClock _ now)

theorem Run.visits_way {now : Instant} {h : Handler} (hrun : Run settings past c)
    (hvisits : c.Visits now entries h) :
    h.AtRest ∧ ∃ s, Way House.Step c.house entries s ∧ h ∈ s.handlers := by
  obtain ⟨c₁, before, after, reached, polled, r, hreaches, hlive, hpolled, rfl⟩ := hvisits
  obtain ⟨asked, -, hord⟩ := hrun.way
  obtain ⟨more, hway⟩ := hreaches.way hord
  obtain ⟨hcomes, hrest⟩ := comes_of_way hway hord.atRest
  have hbefore : ∀ x ∈ before, x.AtRest := fun x hx =>
    hrest.live x (by rw [ledger, hlive]; exact List.mem_append_left _ hx)
  have hpolls := updateAll_each (fun x hx => poll_always (hbefore x hx).sound) _ _ hpolled
  have hturns : ∀ h ∈ before, ∀ did h' front back, Moves h did h' →
      House.Step { c₁.house with handlers := front ++ h :: back } (marked h.peer did)
        { c₁.house with handlers := front ++ h' :: back } :=
          fun _ _ _ _ _ _ hdid => .turns (moves_behaves.way hdid)
  have hpolls := hpolls.steps hturns [] (h :: after ++ c₁.registry.distressed)
  have hhouse : (c₁.ledger (asked ++ more) []).house =
      { c₁.house with handlers := [] ++ before ++ (h :: after ++ c₁.registry.distressed) } := by
    simp [Ledger.house, Controller.house, ledger, handlers, hlive]
  rw [hhouse] at hcomes
  exact ⟨hrest.live h (by rw [ledger, hlive]; simp), _, hcomes.trans hpolls, by simp⟩

/-- When it is polled, a handler is at rest, and has had its life so far. -/
theorem Run.visits {now : Instant} {h : Handler} (hrun : Run settings past c)
    (hvisits : c.Visits now entries h) :
    h.AtRest ∧ ∃ table, Life table (history h.peer (past ++ entries)) h := by
  obtain ⟨hrest, s, hway, hmem⟩ := hrun.visits_way hvisits
  exact ⟨hrest, (House.chronicle_of_way hway hrun.chronicle).lives h hmem⟩

/-- What every handler has when a controller begins it, and keeps in its turns, it has whenever
it is polled. -/
theorem Run.visited {P : TableSettings → List Happening → Handler → Prop} {now : Instant}
    {h : Handler} (hrun : Run settings past c) (hvisits : c.Visits now entries h)
    (hbegins : ∀ {peer : PeerId} {table : TableSettings} {timeout : Duration} {now : Instant}
      {hs : List Happening} {h : Handler}, table.validate = .ok () →
      Begins (new c.instanceId peer table settings.frameBuffer timeout now) hs h → P table hs h)
    (hturn : ∀ {table : TableSettings} {past hs : List Happening} {h h' : Handler}, P table past h →
      Turn h hs h' → P table (past ++ hs) h') : ∃ table,
      P table (history h.peer (past ++ entries)) h := by
  obtain ⟨-, s, hway, hmem⟩ := hrun.visits_way hvisits
  have hall := House.everyone_of_way (hrun.comes.trans hway) (House.chronicle_nil rfl) hbegins hturn
    (House.everyone_nil rfl)
  rw [List.nil_append] at hall
  exact hall.lives h hmem

end ReplicaHandshake.Controller
