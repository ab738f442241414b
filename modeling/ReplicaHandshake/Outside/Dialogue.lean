import ReplicaHandshake.Frame.Inbound
import ReplicaHandshake.Metric.Basic
import ReplicaHandshake.Note
import ReplicaHandshake.Outside.Call

/-!
# Dialogues with the outside

A `Dialogue α` is a piece of work that makes calls to the outside, goes on with the answers, remarks
on itself on its way (by metrics and by notes), and comes to a result of type `α`.  It is a tree
with a branch for every answer that may come, so it says what the program does whatever the outside
answers; and every path through it is finite.

* `Dialogue.Runs d entries a` says that a dialogue may come to the result `a`, the calls, answers
  and remarks on its way being `entries`.  A run of a sequence is a run of its first part followed
  by one of its second (`runs_bind`).
* `Dialogue.perform` holds a dialogue with an `Environment` that answers every call, and what comes
  out is a run (`perform_runs`).

A call or a remark may be *on behalf of* a peer; `Dialogue.onBehalfOf` marks all
those of a dialogue.
-/

namespace ReplicaHandshake

/-- What the program says about itself. -/
inductive Remark where
  | metric (metric : Metric)
  | note (note : Note)
deriving DecidableEq, Repr

/-- Work that makes calls to the outside. -/
inductive Dialogue (α : Type) : Type where
  | done (result : α)
  | ask (peer : Option PeerId) (call : Call) (next : call.Answer → Dialogue α)
  | say (peer : Option PeerId) (remark : Remark) (next : Dialogue α)

/-- What happens on the way through a dialogue. -/
inductive Happening where
  | answered (call : Call) (answer : call.Answer)
  | said (remark : Remark)

/-- A metric is reported. -/
@[match_pattern] abbrev Happening.reported (metric : Metric) : Happening :=
  .said (.metric metric)

/-- A note is written. -/
@[match_pattern] abbrev Happening.noted (note : Note) : Happening :=
  .said (.note note)

/-- A happening, and the peer on whose behalf it happened. -/
structure Entry where
  peer : Option PeerId
  happening : Happening

namespace Dialogue

variable {α β : Type}

/-- Go on with the result of a dialogue. -/
def bind : Dialogue α → (α → Dialogue β) → Dialogue β
  | done a, f => f a
  | ask peer call next, f => ask peer call fun answer => bind (next answer) f
  | say peer remark next, f => say peer remark (bind next f)

instance : Monad Dialogue where
  pure := done
  bind := bind

@[simp] theorem pure_eq (a : α) : (pure a : Dialogue α) = done a := rfl

@[simp] theorem done_bind (a : α) (f : α → Dialogue β) : (done a >>= f) = f a := rfl

@[simp] theorem ask_bind (peer : Option PeerId) (call : Call)
    (next : call.Answer → Dialogue α) (f : α → Dialogue β) :
    (ask peer call next >>= f) = ask peer call fun answer => next answer >>= f := rfl

@[simp] theorem say_bind (peer : Option PeerId) (remark : Remark) (next : Dialogue α)
    (f : α → Dialogue β) :
    (say peer remark next >>= f) = say peer remark (next >>= f) := rfl

theorem bind_done (d : Dialogue α) : bind d done = d := by
  induction d with
  | done a => rfl
  | ask peer call next ih => simp only [bind, ih]
  | say peer remark next ih => simp only [bind, ih]

theorem bind_bind {γ : Type} (d : Dialogue α) (f : α → Dialogue β) (g : β → Dialogue γ) :
    bind (bind d f) g = bind d fun a => bind (f a) g := by
  induction d with
  | done a => rfl
  | ask peer call next ih => simp only [bind, ih]
  | say peer remark next ih => simp only [bind, ih]

instance : LawfulMonad Dialogue :=
  LawfulMonad.mk' _ bind_done (fun _ _ => rfl) bind_bind

/-- Make a call. -/
def call (c : Call) : Dialogue c.Answer :=
  ask none c done

/-- Report a metric. -/
def metric (m : Metric) : Dialogue Unit :=
  say none (.metric m) (done ())

/-- Write a note. -/
def note (n : Note) : Dialogue Unit :=
  say none (.note n) (done ())

/-- Mark all calls and remarks as being on behalf of a peer. -/
def onBehalfOf (peer : PeerId) : Dialogue α → Dialogue α
  | done a => done a
  | ask _ call next => ask (some peer) call fun answer => onBehalfOf peer (next answer)
  | say _ remark next => say (some peer) remark (onBehalfOf peer next)

/-! ### Runs -/

/-- A dialogue may come to a result by way of these happenings. -/
inductive Runs : Dialogue α → List Entry → α → Prop where
  | done (a : α) : Runs (.done a) [] a
  | ask {peer : Option PeerId} {call : Call} {next : call.Answer → Dialogue α}
      {entries : List Entry} {a : α} (answer : call.Answer) :
      Runs (next answer) entries a →
      Runs (.ask peer call next) (⟨peer, .answered call answer⟩ :: entries) a
  | say {peer : Option PeerId} {remark : Remark} {next : Dialogue α}
      {entries : List Entry} {a : α} :
      Runs next entries a →
      Runs (.say peer remark next) (⟨peer, .said remark⟩ :: entries) a

theorem runs_done {a b : α} {entries : List Entry} :
    Runs (.done a) entries b ↔ entries = [] ∧ b = a := by
  constructor
  · intro h
    cases h
    exact ⟨rfl, rfl⟩
  · rintro ⟨rfl, rfl⟩
    exact .done _

theorem runs_bind {d : Dialogue α} {f : α → Dialogue β} {entries : List Entry} {b : β} :
    Runs (d >>= f) entries b ↔
      ∃ first a second, entries = first ++ second ∧ Runs d first a ∧ Runs (f a) second b := by
  induction d generalizing entries with
  | done a =>
    constructor
    · intro h
      exact ⟨[], a, entries, rfl, .done a, h⟩
    · rintro ⟨first, a', second, rfl, h₁, h₂⟩
      cases h₁
      exact h₂
  | ask peer call next ih =>
    constructor
    · intro h
      rw [ask_bind] at h
      cases h with
      | ask answer h =>
        obtain ⟨first, a, second, rfl, h₁, h₂⟩ := (ih answer).1 h
        exact ⟨_, a, second, rfl, .ask answer h₁, h₂⟩
    · rintro ⟨first, a, second, rfl, h₁, h₂⟩
      cases h₁ with
      | ask answer h₁ => exact .ask answer ((ih answer).2 ⟨_, a, second, rfl, h₁, h₂⟩)
  | say peer remark next ih =>
    constructor
    · intro h
      rw [say_bind] at h
      cases h with
      | say h =>
        obtain ⟨first, a, second, rfl, h₁, h₂⟩ := ih.1 h
        exact ⟨_, a, second, rfl, .say h₁, h₂⟩
    · rintro ⟨first, a, second, rfl, h₁, h₂⟩
      cases h₁ with
      | say h₁ => exact .say (ih.2 ⟨_, a, second, rfl, h₁, h₂⟩)

/-! ### Performing a dialogue -/

/-- An outside with a state of its own, which answers every call. -/
structure Environment (σ : Type) where
  answer : (c : Call) → σ → c.Answer × σ

/-- Hold a dialogue with an environment. -/
def perform {σ : Type} (env : Environment σ) : Dialogue α → σ → α × σ × List Entry
  | done a, s => (a, s, [])
  | ask peer call next, s =>
    let (answer, s) := env.answer call s
    let (a, s, entries) := perform env (next answer) s
    (a, s, ⟨peer, .answered call answer⟩ :: entries)
  | say peer remark next, s =>
    let (a, s, entries) := perform env next s
    (a, s, ⟨peer, .said remark⟩ :: entries)

theorem perform_runs {σ : Type} (env : Environment σ) (d : Dialogue α) (s : σ) :
    Runs d (perform env d s).2.2 (perform env d s).1 := by
  induction d generalizing s with
  | done a => exact .done a
  | ask peer call next ih => exact .ask _ (ih _ _)
  | say peer remark next ih => exact .say (ih _)

end Dialogue

/-- The metrics among happenings, in their order. -/
def metricsOf (entries : List Entry) : List Metric :=
  entries.filterMap fun e =>
    match e.happening with
    | .reported metric => some metric
    | _ => none

end ReplicaHandshake
