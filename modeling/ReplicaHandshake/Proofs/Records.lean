import ReplicaHandshake.Proofs.Always

/-!
# What work always records

`Dialogue.Always` looks at what happened and not at whom it happened for.  Where work is done
for more than one peer that matters, so `Dialogue.Records d post` says that whatever the
outside answers, the entries on the way through `d` and its result satisfy `post`, and
`Work.Records` says the same of work on a subject.  What is done on behalf of a peer is marked
with that peer (`Dialogue.Always.records`).
-/

namespace ReplicaHandshake

/-- Happenings on behalf of a peer. -/
def marked (peer : PeerId) (hs : List Happening) : List Entry :=
  hs.map (Entry.mk (some peer))

@[simp] theorem happenings_marked (peer : PeerId) (hs : List Happening) :
    happenings (marked peer hs) = hs := by
  rw [happenings, marked, List.map_map]
  exact List.map_id hs

@[simp] theorem history_marked_self (peer : PeerId) (hs : List Happening) :
    history peer (marked peer hs) = hs := by
  have hall : (marked peer hs).filter (·.peer = some peer) = marked peer hs := by
    apply List.filter_eq_self.2
    intro e he
    obtain ⟨_, -, rfl⟩ := List.mem_map.1 he
    simp
  rw [history, hall, happenings_marked]

theorem history_marked_of_ne {peer other : PeerId} (h : other ≠ peer) (hs : List Happening) :
    history peer (marked other hs) = [] := by
  have hnone : (marked other hs).filter (·.peer = some peer) = [] := by
    apply List.filter_eq_nil_iff.2
    intro e he
    obtain ⟨_, -, rfl⟩ := List.mem_map.1 he
    simpa using h
  rw [history, hnone]
  rfl

theorem history_nobody {entries : List Entry}
    (hnobody : ∀ e ∈ entries, ∃ m, e = ⟨none, .reported m⟩) (p : PeerId) :
    history p entries = [] := by
  have hnone : entries.filter (·.peer = some p) = [] := by
    refine List.filter_eq_nil_iff.2 fun e he => ?_
    obtain ⟨m, rfl⟩ := hnobody e he
    simp
  rw [history, hnone]
  rfl

namespace Dialogue

variable {α β : Type}

/-- Whatever the outside answers, the entries and the result are as the condition says. -/
def Records (d : Dialogue α) (post : List Entry → α → Prop) : Prop :=
  ∀ entries a, d.Runs entries a → post entries a

theorem Records.mono {d : Dialogue α} {post post' : List Entry → α → Prop}
    (h : d.Records post) (hp : ∀ entries a, post entries a → post' entries a) : d.Records post' :=
  fun entries a hr => hp _ _ (h entries a hr)

@[simp] theorem records_done {a : α} {post : List Entry → α → Prop} :
    (done a).Records post ↔ post [] a := by
  constructor
  · intro h
    exact h [] a (.done a)
  · intro h entries b hr
    obtain ⟨rfl, rfl⟩ := runs_done.1 hr
    exact h

theorem records_bind {d : Dialogue α} {f : α → Dialogue β} {post : List Entry → β → Prop} :
    (d >>= f).Records post ↔
      d.Records fun first a => (f a).Records fun second b => post (first ++ second) b := by
  constructor
  · intro h first a h₁ second b h₂
    exact h _ b (runs_bind.2 ⟨first, a, second, rfl, h₁, h₂⟩)
  · intro h entries b hr
    obtain ⟨first, a, second, rfl, h₁, h₂⟩ := runs_bind.1 hr
    exact h first a h₁ second b h₂

theorem records_call {c : Call} {post : List Entry → c.Answer → Prop} :
    (call c).Records post ↔ ∀ answer, post [⟨none, .answered c answer⟩] answer := by
  constructor
  · intro h answer
    exact h _ answer (.ask answer (.done answer))
  · intro h entries a hr
    cases hr with
    | ask answer hr =>
      obtain ⟨rfl, rfl⟩ := runs_done.1 hr
      exact h _

@[simp] theorem records_metric {m : Metric} {post : List Entry → Unit → Prop} :
    (metric m).Records post ↔ post [⟨none, .reported m⟩] () := by
  constructor
  · intro h
    exact h _ () (.say (.done ()))
  · intro h entries a hr
    cases hr with
    | say hr =>
      obtain ⟨rfl, rfl⟩ := runs_done.1 hr
      exact h

theorem exists_runs (d : Dialogue α) : ∃ entries a, d.Runs entries a := by
  induction d with
  | done a => exact ⟨[], a, .done a⟩
  | ask peer c next ih =>
    have hanswer : Nonempty c.Answer := by
      cases c with
      | openSocket => exact ⟨.ok .first⟩
      | pollConnect => exact ⟨.ok .connected⟩
      | setNoDelay => exact ⟨.ok ()⟩
      | tableExists => exact ⟨.ok true⟩
      | openWriter tableName | createTable tableName => exact ⟨.ok ⟨0, tableName, 0, 0⟩⟩
      | read socket most => exact ⟨.ok ⟨[], Nat.zero_le most⟩⟩
      | write socket data => exact ⟨.accept 0 _ 0⟩
      | closeSocket | releaseWriter => exact ⟨()⟩
      | offerWriter | offerSocket | stopPeer | askedToEnd => exact ⟨true⟩
      | fetchDisconnections => exact ⟨[]⟩
      | readClock => exact ⟨(0 : Nat)⟩
      | rest => exact ⟨.timeout⟩
    obtain ⟨answer⟩ := hanswer
    obtain ⟨entries, a, hruns⟩ := ih answer
    exact ⟨_, a, .ask answer hruns⟩
  | say peer remark next ih =>
    obtain ⟨entries, a, hruns⟩ := ih
    exact ⟨_, a, .say hruns⟩

/-- What is done on behalf of a peer is marked with it. -/
theorem Always.records {d : Dialogue α} {post : List Happening → α → Prop} (h : d.Always post)
    (peer : PeerId) :
    (d.onBehalfOf peer).Records fun entries a => ∃ hs, entries = marked peer hs ∧ post hs a := by
  intro entries a hr
  obtain ⟨plain, hplain, rfl⟩ := runs_onBehalfOf hr
  exact ⟨happenings plain, rfl, h plain a hplain⟩

theorem records_report {m : Metric} {peer : PeerId} {post : List Entry → Unit → Prop}
    (h : post (marked peer [.reported m]) ()) : ((report m).onBehalfOf peer).Records post := by
  have halways : (report m).Always fun hs _ => hs = [.reported m] := by simp [report]
  refine (halways.records peer).mono ?_
  rintro _ _ ⟨_, rfl, rfl⟩
  exact h

end Dialogue

namespace Work

variable {σ α β : Type}

/-- Whatever the outside answers, the entries, the result and the subject afterwards are as the
condition says. -/
def Records (w : Work σ α) (s : σ) (post : List Entry → α → σ → Prop) : Prop :=
  Dialogue.Records (w.run s) fun entries r => post entries r.1 r.2

theorem Records.mono {w : Work σ α} {s : σ} {post post' : List Entry → α → σ → Prop}
    (h : Records w s post) (hp : ∀ entries a s', post entries a s' → post' entries a s') :
    Records w s post' :=
  Dialogue.Records.mono h fun entries r => hp entries r.1 r.2

theorem Records.and {w : Work σ α} {s : σ} {post post' : List Entry → α → σ → Prop}
    (h : Records w s post) (h' : Records w s post') :
    Records w s fun entries a s' => post entries a s' ∧ post' entries a s' :=
  fun entries r hr => ⟨h entries r hr, h' entries r hr⟩

theorem runs_bind {w : Work σ α} {f : α → Work σ β} {s s' : σ} {entries : List Entry} {b : β} :
    ((w >>= f).run s).Runs entries (b, s') ↔ ∃ first a s₁ second, entries = first ++ second ∧
      (w.run s).Runs first (a, s₁) ∧ ((f a).run s₁).Runs second (b, s') := by
  show (w.run s >>= fun r => (f r.1).run r.2).Runs entries (b, s') ↔ _
  rw [Dialogue.runs_bind]
  constructor
  · rintro ⟨first, ⟨a, s₁⟩, second, hruns⟩
    exact ⟨first, a, s₁, second, hruns⟩
  · rintro ⟨first, a, s₁, second, hruns⟩
    exact ⟨first, (a, s₁), second, hruns⟩

theorem runs_pure {a b : α} {s s' : σ} {entries : List Entry} :
    ((pure a : Work σ α).run s).Runs entries (b, s') ↔ entries = [] ∧ b = a ∧ s' = s := by
  show Dialogue.Runs (.done (a, s)) entries (b, s') ↔ _
  rw [Dialogue.runs_done, Prod.mk.injEq]

@[simp] theorem records_pure {a : α} {s : σ} {post : List Entry → α → σ → Prop} :
    Records (pure a : Work σ α) s post ↔ post [] a s :=
  Dialogue.records_done

@[simp] theorem records_bind {w : Work σ α} {f : α → Work σ β} {s : σ}
    {post : List Entry → β → σ → Prop} :
    Records (w >>= f) s post ↔
      Records w s fun first a s' => Records (f a) s' fun second => post (first ++ second) :=
  Dialogue.records_bind

@[simp] theorem records_get {s : σ} {post : List Entry → σ → σ → Prop} :
    Records (get : Work σ σ) s post ↔ post [] s s :=
  Dialogue.records_done

@[simp] theorem records_set {s s' : σ} {post : List Entry → PUnit → σ → Prop} :
    Records (set s' : Work σ PUnit) s post ↔ post [] () s' :=
  Dialogue.records_done

@[simp] theorem records_modify {f : σ → σ} {s : σ} {post : List Entry → PUnit → σ → Prop} :
    Records (modify f : Work σ PUnit) s post ↔ post [] () (f s) :=
  Dialogue.records_done

@[simp] theorem records_lift {d : Dialogue α} {s : σ} {post : List Entry → α → σ → Prop} :
    Records (liftM d : Work σ α) s post ↔ d.Records fun entries a => post entries a s := by
  show Dialogue.Records (d >>= fun a => pure (a, s)) _ ↔ _
  rw [Dialogue.records_bind]
  simp

end Work

end ReplicaHandshake
