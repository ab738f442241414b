import ReplicaHandshake.Proofs.Controller.Presence
import ReplicaHandshake.Proofs.Controller.Run

/-!
# Runs of an open controller

A `Controller.OpenRun` is a run in which the controller is not closed.  It says in addition which
peers were asked to stop so far: those that had a live handler of the table when an instruction to
remove this table was carried out (`Controller.asks`).  Its ticks are taken apart to say so; any
tick can be (`tick_iff`).

All that happens in it are open steps of the ledger (`OpenRun.way`), and each of them keeps the
registry in order and the chronicle of the house (`Ledger.Kept`).  So what every open step keeps
besides holds in every open run (`OpenRun.invariant`).
-/

namespace ReplicaHandshake

open Handler Registry

namespace Ledger

variable {b b' : Ledger} {past entries : List Entry}

/-- The registry is in order, and the chronicle is kept. -/
structure Kept (past : List Entry) (b : Ledger) : Prop where
  inOrder : b.InOrder
  chronicle : House.Chronicle past b.house

theorem Kept.step (hkept : Kept past b) (hstep : AnyStep b entries b') :
    Kept (past ++ entries) b' where
  inOrder := hstep.inOrder hkept.inOrder
  chronicle := House.chronicle_of_way (hstep.comes hkept.inOrder.atRest).1 hkept.chronicle

/-- What every step of some kind keeps of ledgers in order is kept on the whole way. -/
theorem Kept.along {step : Ledger → List Entry → Ledger → Prop} {I : List Entry → Ledger → Prop}
    (hany : ∀ b entries b', step b entries b' → AnyStep b entries b') (hkept : Kept past b)
    (hway : Way step b entries b')
    (hstep : ∀ past b entries b', Kept past b → I past b → step b entries b' →
      I (past ++ entries) b')
    (hI : I past b) : Kept (past ++ entries) b' ∧ I (past ++ entries) b' := by
  refine hway.invariant (I := fun past b => Kept past b ∧ I past b) ?_ ⟨hkept, hI⟩
  rintro past b entries b' ⟨hkept, hI⟩ hone
  exact ⟨hkept.step (hany b entries b' hone), hstep past b entries b' hkept hI hone⟩

theorem Kept.life (hkept : Kept past b) {h : Handler} (hh : h ∈ b.registry.live) :
    ∃ table, Life table (history h.peer past) h :=
  hkept.chronicle.lives h (List.mem_append_left _ hh)

end Ledger

namespace Controller

open Ledger

variable {settings : Settings} {c c' : Controller} {asked asked' : List PeerId}
  {past entries : List Entry}

/-- What an open controller does, and who was asked to stop before and after. -/
inductive Operates : Controller × List PeerId → List Entry → Controller × List PeerId → Prop where
  | submit {c c' : Controller} {asked : List PeerId} {entries : List Entry} {accepted : Bool}
      (i : Instruction) :
      ((submit i).run c).Runs entries (accepted, c') → Operates (c, asked) entries (c', asked)
  | tick {c c' : Controller} {asked more : List PeerId} {entries : List Entry} {busy : Bool}
      (now : Instant) :
      Ticks c now entries more busy c' → Operates (c, asked) entries (c', asked ++ more)

/-- What a controller has come to since its start without being closed, and whom it has
asked to stop. -/
inductive OpenRun (settings : Settings) : List Entry → Controller → List PeerId → Prop where
  | start {instanceId : InstanceId} {entries : List Entry} {c : Controller} :
      (start instanceId settings).Runs entries (.ok c) → OpenRun settings entries c []
  | goesOn {past entries : List Entry} {c c' : Controller} {asked asked' : List PeerId} :
      OpenRun settings past c asked → Operates (c, asked) entries (c', asked') →
      OpenRun settings (past ++ entries) c' asked'

theorem OpenRun.run (hrun : OpenRun settings past c asked) : Run settings past c := by
  induction hrun with
  | start hruns => exact .start hruns
  | goesOn _ hoperates ih =>
    cases hoperates with
    | submit i hruns => exact .submit i ih hruns
    | tick now hticks => exact .tick now ih (tick_iff.2 ⟨_, hticks⟩)

theorem OpenRun.inOrder (hrun : OpenRun settings past c asked) : (c.ledger asked []).InOrder :=
  hrun.run.inOrder

theorem Operates.way (hoperates : Operates (c, asked) entries (c', asked'))
    (hord : (c.ledger asked []).InOrder) :
    Way OpenStep (c.ledger asked []) entries (c'.ledger asked' []) := by
  cases hoperates with
  | submit i hruns =>
    obtain ⟨heq, hway⟩ := submit_way i asked [] _ _ hruns
    rw [heq]
    exact open_of_works hway
  | tick now hticks => exact hticks.open_way hord

/-- Whatever an open controller does, its run goes on, by open steps of its ledger. -/
theorem OpenRun.of_way (hrun : OpenRun settings past c asked)
    (hway : Way Operates (c, asked) entries (c', asked')) :
    OpenRun settings (past ++ entries) c' asked' ∧
      Way OpenStep (c.ledger asked []) entries (c'.ledger asked' []) := by
  have hstart : OpenRun settings (past ++ []) c asked ∧
      Way OpenStep (c.ledger asked []) [] (c.ledger asked []) :=
    ⟨(List.append_nil past).symm ▸ hrun, .refl _⟩
  refine hway.invariant (I := fun entries s => OpenRun settings (past ++ entries) s.1 s.2 ∧
    Way OpenStep (c.ledger asked []) entries (s.1.ledger s.2 [])) ?_ hstart
  rintro entries s more s' ⟨hrun, hopen⟩ hoperates
  rw [← List.append_assoc]
  exact ⟨hrun.goesOn hoperates, hopen.trans (hoperates.way hrun.inOrder)⟩

/-- All that an open controller does are open steps of its ledger. -/
theorem OpenRun.way (hrun : OpenRun settings past c asked) :
    Way OpenStep (blank c.instanceId settings.frameBuffer) past (c.ledger asked []) := by
  induction hrun with
  | @start instanceId _ c hruns =>
    obtain ⟨heq, hway⟩ := start_way instanceId settings _ _ hruns c rfl
    have hsame : c.instanceId = instanceId := congrArg Ledger.instanceId heq
    rw [heq, hsame]
    exact open_of_works hway
  | @goesOn _ _ c c' _ _ hrun hoperates ih =>
    have hmore := hoperates.way hrun.inOrder
    have hsame : c'.instanceId = c.instanceId := instanceId_of_way (any_of_open hmore)
    rw [hsame]
    exact ih.trans hmore

theorem kept_blank (instanceId : InstanceId) (frameBuffer : Nat) :
    Kept [] (blank instanceId frameBuffer) where
  inOrder := inOrder_empty .first
  chronicle := House.chronicle_nil rfl

/-- What holds of a controller that has done nothing, and is kept by every open step, holds in
every open run. -/
@[elab_as_elim]
theorem OpenRun.invariant {I : List Entry → Ledger → Prop} (hrun : OpenRun settings past c asked)
    (hblank : ∀ instanceId, I [] (blank instanceId settings.frameBuffer))
    (hstep : ∀ past b entries b', Kept past b → I past b → OpenStep b entries b' →
      I (past ++ entries) b') :
    I past (c.ledger asked []) :=
  ((kept_blank c.instanceId _).along (fun _ _ _ => .goesOn) hrun.way hstep (hblank c.instanceId)).2

theorem OpenRun.kept (hrun : OpenRun settings past c asked) : Kept past (c.ledger asked []) where
  inOrder := hrun.inOrder
  chronicle := hrun.run.chronicle

end Controller

end ReplicaHandshake
