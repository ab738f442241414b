import ReplicaHandshake.Outside.Task
import ReplicaHandshake.Proofs.History

/-!
# What work always does

`Dialogue.Always d post` says that whatever the outside answers, the happenings on the way
through `d` and its result satisfy `post`.  `Work.Always` and `Task.Always` say the same of work
on a subject; a task has one condition for the case that it comes to a result and one for the
case that it fails.

Each of the three has an equivalence for every way in which work is put together, so that a
statement about a piece of work opens along its text: first one calculates what its parts do, then
what is left are statements about values.  `Always.mono` puts a statement about a part, proved
once, in its place.
-/

namespace ReplicaHandshake

namespace Dialogue

variable {α β : Type}

/-- Whatever the outside answers, the happenings and the result are as the condition says. -/
def Always (d : Dialogue α) (post : List Happening → α → Prop) : Prop :=
  ∀ entries a, d.Runs entries a → post (happenings entries) a

theorem Always.mono {d : Dialogue α} {post post' : List Happening → α → Prop}
    (h : d.Always post) (hp : ∀ hs a, post hs a → post' hs a) : d.Always post' :=
  fun entries a hr => hp _ _ (h entries a hr)

@[simp] theorem always_done {a : α} {post : List Happening → α → Prop} :
    (done a).Always post ↔ post [] a := by
  constructor
  · intro h
    exact h [] a (.done a)
  · intro h entries b hr
    obtain ⟨rfl, rfl⟩ := runs_done.1 hr
    exact h

theorem always_bind {d : Dialogue α} {f : α → Dialogue β} {post : List Happening → β → Prop} :
    (d >>= f).Always post ↔
      d.Always fun hs a => (f a).Always fun hs' b => post (hs ++ hs') b := by
  constructor
  · intro h first a h₁ second b h₂
    rw [← happenings_append]
    exact h _ b (runs_bind.2 ⟨first, a, second, rfl, h₁, h₂⟩)
  · intro h entries b hr
    obtain ⟨first, a, second, rfl, h₁, h₂⟩ := runs_bind.1 hr
    rw [happenings_append]
    exact h first a h₁ second b h₂

@[simp] theorem always_ask {peer : Option PeerId} {c : Call} {next : c.Answer → Dialogue α}
    {post : List Happening → α → Prop} :
    (ask peer c next).Always post ↔
      ∀ answer, (next answer).Always fun hs a => post (.answered c answer :: hs) a := by
  constructor
  · intro h answer entries a hr
    exact h _ a (.ask answer hr)
  · intro h entries a hr
    cases hr with
    | ask answer hr => exact h answer _ a hr

theorem always_call {c : Call} {post : List Happening → c.Answer → Prop} :
    (call c).Always post ↔ ∀ answer, post [.answered c answer] answer := by
  simp [call]

@[simp] theorem always_metric {m : Metric} {post : List Happening → Unit → Prop} :
    (metric m).Always post ↔ post [.reported m] () := by
  constructor
  · intro h
    exact h _ () (.say (.done ()))
  · intro h entries a hr
    cases hr with
    | say hr =>
      obtain ⟨rfl, rfl⟩ := runs_done.1 hr
      exact h

@[simp] theorem always_note {n : Note} {post : List Happening → Unit → Prop} :
    (note n).Always post ↔ post [.noted n] () := by
  constructor
  · intro h
    exact h _ () (.say (.done ()))
  · intro h entries a hr
    cases hr with
    | say hr =>
      obtain ⟨rfl, rfl⟩ := runs_done.1 hr
      exact h

/-- What is done on behalf of a peer is what is done anyway, marked with the peer. -/
theorem runs_onBehalfOf {d : Dialogue α} {peer : PeerId} {entries : List Entry} {a : α}
    (h : (d.onBehalfOf peer).Runs entries a) :
    ∃ plain, d.Runs plain a ∧ entries = (happenings plain).map (Entry.mk (some peer)) := by
  induction d generalizing entries with
  | done b =>
    obtain ⟨rfl, rfl⟩ := runs_done.1 h
    exact ⟨[], .done _, rfl⟩
  | ask p call next ih =>
    cases h with
    | ask answer h =>
      obtain ⟨plain, hp, rfl⟩ := ih answer h
      exact ⟨_, .ask answer hp, rfl⟩
  | say p remark next ih =>
    cases h with
    | say h =>
      obtain ⟨plain, hp, rfl⟩ := ih h
      exact ⟨_, .say hp, rfl⟩

end Dialogue

/-! ### Work -/

namespace Work

variable {σ α β : Type}

/-- Whatever the outside answers, the happenings, the result and the subject afterwards are as the
condition says. -/
def Always (w : Work σ α) (s : σ) (post : List Happening → α → σ → Prop) : Prop :=
  Dialogue.Always (w.run s) fun hs r => post hs r.1 r.2

theorem Always.mono {w : Work σ α} {s : σ} {post post' : List Happening → α → σ → Prop}
    (h : Always w s post) (hp : ∀ hs a s', post hs a s' → post' hs a s') : Always w s post' :=
  Dialogue.Always.mono h fun hs r => hp hs r.1 r.2

/-- What work always does in two respects, it does in both. -/
theorem Always.and {w : Work σ α} {s : σ} {post post' : List Happening → α → σ → Prop}
    (h : Always w s post) (h' : Always w s post') :
    Always w s fun hs a s' => post hs a s' ∧ post' hs a s' :=
  fun entries r hr => ⟨h entries r hr, h' entries r hr⟩

theorem always_run {w : Work σ α} {s : σ} {post : List Happening → α × σ → Prop} :
    Dialogue.Always (w.run s) post ↔ Always w s fun hs a s' => post hs (a, s') :=
  Iff.rfl

@[simp] theorem always_pure {a : α} {s : σ} {post : List Happening → α → σ → Prop} :
    Always (pure a : Work σ α) s post ↔ post [] a s :=
  Dialogue.always_done

@[simp] theorem always_bind {w : Work σ α} {f : α → Work σ β} {s : σ}
    {post : List Happening → β → σ → Prop} :
    Always (w >>= f) s post ↔
      Always w s fun hs a s' => Always (f a) s' fun hs' => post (hs ++ hs') :=
  Dialogue.always_bind

@[simp] theorem always_map {w : Work σ α} {f : α → β} {s : σ}
    {post : List Happening → β → σ → Prop} :
    Always (f <$> w) s post ↔ Always w s fun hs a => post hs (f a) := by
  rw [map_eq_pure_bind, always_bind]
  simp

@[simp] theorem always_get {s : σ} {post : List Happening → σ → σ → Prop} :
    Always (get : Work σ σ) s post ↔ post [] s s :=
  Dialogue.always_done

@[simp] theorem always_set {s s' : σ} {post : List Happening → PUnit → σ → Prop} :
    Always (set s' : Work σ PUnit) s post ↔ post [] () s' :=
  Dialogue.always_done

@[simp] theorem always_modify {f : σ → σ} {s : σ} {post : List Happening → PUnit → σ → Prop} :
    Always (modify f : Work σ PUnit) s post ↔ post [] () (f s) :=
  Dialogue.always_done

@[simp] theorem always_lift {d : Dialogue α} {s : σ} {post : List Happening → α → σ → Prop} :
    Always (liftM d : Work σ α) s post ↔ d.Always fun hs a => post hs a s := by
  show Dialogue.Always (d >>= fun a => pure (a, s)) _ ↔ _
  rw [Dialogue.always_bind]
  simp

end Work

/-! ### Tasks -/

namespace Task

variable {σ α β : Type}

/-- Whatever the outside answers, the happenings, the result and the subject afterwards are as the
first condition says, or the task fails and they are as the second one says. -/
def Always (t : Task σ α) (s : σ) (ok : List Happening → α → σ → Prop)
    (error : List Happening → Failure → σ → Prop) : Prop :=
  Work.Always t.run s fun hs r s' =>
    match r with
    | .ok a => ok hs a s'
    | .error f => error hs f s'

variable {s : σ} {error error' : List Happening → Failure → σ → Prop}

theorem Always.mono {t : Task σ α} {ok ok' : List Happening → α → σ → Prop}
    (h : Always t s ok error) (hok : ∀ hs a s', ok hs a s' → ok' hs a s')
    (herror : ∀ hs f s', error hs f s' → error' hs f s') : Always t s ok' error' := by
  refine Work.Always.mono h ?_
  intro hs r s' hr
  cases r with
  | ok a => exact hok hs a s' hr
  | error f => exact herror hs f s' hr

/-- What a task always does in two respects, it does in both. -/
theorem Always.and {t : Task σ α} {ok ok' : List Happening → α → σ → Prop}
    (h : Always t s ok error) (h' : Always t s ok' error') :
    Always t s (fun hs a s' => ok hs a s' ∧ ok' hs a s')
      (fun hs f s' => error hs f s' ∧ error' hs f s') := by
  refine (Work.Always.and h h').mono ?_
  rintro hs (a | f) s' hboth <;> exact hboth

/-- Whether the task fails or not, the happenings are as the condition says. -/
abbrev Happens (t : Task σ α) (s : σ) (post : List Happening → Prop) : Prop :=
  Always t s (fun hs _ _ => post hs) (fun hs _ _ => post hs)

theorem Happens.mono {t : Task σ α} {post post' : List Happening → Prop} (h : Happens t s post)
    (hp : ∀ hs, post hs → post' hs) : Happens t s post' :=
  Always.mono h (fun hs _ _ => hp hs) fun hs _ _ => hp hs

theorem always_of_forall {t : Task σ α} {ok : List Happening → α → σ → Prop}
    (hok : ∀ hs a s', ok hs a s') (herror : ∀ hs f s', error hs f s') : Always t s ok error := by
  rintro entries ⟨a | f, s'⟩ _
  · exact herror _ _ _
  · exact hok _ _ _

@[simp] theorem always_pure {a : α} {ok : List Happening → α → σ → Prop} :
    Always (pure a : Task σ α) s ok error ↔ ok [] a s :=
  Work.always_pure

@[simp] theorem always_throw {f : Failure} {ok : List Happening → α → σ → Prop} :
    Always (throw f : Task σ α) s ok error ↔ error [] f s :=
  Work.always_pure

@[simp] theorem always_bind {t : Task σ α} {f : α → Task σ β}
    {ok : List Happening → β → σ → Prop} :
    Always (t >>= f) s ok error ↔
      Always t s (fun hs a s' => Always (f a) s' (fun hs' => ok (hs ++ hs'))
        (fun hs' => error (hs ++ hs'))) error := by
  unfold Always
  rw [ExceptT.run_bind, Work.always_bind]
  constructor
  all_goals
    intro h
    refine Work.Always.mono h ?_
    intro hs r s' hr
    cases r with
    | ok a => exact hr
    | error e => simpa using hr

theorem happens_bind {t : Task σ α} {f : α → Task σ β} {post : List Happening → Prop} :
    Happens (t >>= f) s post ↔
      Always t s (fun hs a s' => Happens (f a) s' fun hs' => post (hs ++ hs'))
        (fun hs _ _ => post hs) :=
  always_bind

@[simp] theorem always_map {t : Task σ α} {f : α → β} {ok : List Happening → β → σ → Prop} :
    Always (f <$> t) s ok error ↔ Always t s (fun hs a => ok hs (f a)) error := by
  rw [map_eq_pure_bind, always_bind]
  simp

theorem always_work {w : Work σ α} {ok : List Happening → α → σ → Prop} :
    Always (liftM w : Task σ α) s ok error ↔ Work.Always w s ok := by
  show Work.Always (Except.ok <$> w) s _ ↔ _
  exact Work.always_map

@[simp] theorem always_get {ok : List Happening → σ → σ → Prop} :
    Always (get : Task σ σ) s ok error ↔ ok [] s s :=
  always_work.trans Work.always_get

@[simp] theorem always_set {s' : σ} {ok : List Happening → PUnit → σ → Prop} :
    Always (set s' : Task σ PUnit) s ok error ↔ ok [] () s' :=
  always_work.trans Work.always_set

@[simp] theorem always_modify {f : σ → σ} {ok : List Happening → PUnit → σ → Prop} :
    Always (modify f : Task σ PUnit) s ok error ↔ ok [] () (f s) :=
  always_work.trans Work.always_modify

@[simp] theorem always_lift {d : Dialogue α} {ok : List Happening → α → σ → Prop} :
    Always (liftM d : Task σ α) s ok error ↔ d.Always fun hs a => ok hs a s :=
  always_work.trans Work.always_lift

/-- A task that is performed gives its outcome as a result. -/
theorem always_perform {t : Task σ α} {post : List Happening → Except Failure α → σ → Prop} :
    Work.Always t.perform s post ↔
      Always t s (fun hs a s' => post hs (.ok a) s') (fun hs f s' => post hs (.error f) s') := by
  unfold Always Task.perform
  constructor
  all_goals
    intro h
    refine Work.Always.mono h ?_
    intro hs r s' hr
    cases r <;> exact hr

end Task

end ReplicaHandshake
