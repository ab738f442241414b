import ReplicaHandshake.Controller.Basic
import ReplicaHandshake.Proofs.Handler.Rest
import ReplicaHandshake.Proofs.Records

/-!
# What a controller does to its registry

Every operation of a controller is one of three things to its registry.

* A *round*: the live handlers do something, each in its place and for itself (`Registry.Round`).
  Most operations let only those handlers do something that they are meant for (`Only`).
* A handler comes in, or those of a table are forgotten (`Ledger.Step`).
* Handlers change lists: some are promoted, and those that are drained come to
  their end (`Registry.Reaps`).

What each operation does is said here once and to the full; all that is known of registries
follows from it.
-/

namespace ReplicaHandshake

open Handler

/-! ### Rounds -/

section Each

variable {α : Type} {R S : Handler → List Happening → Handler → Prop} {hs hs' : List Handler}
  {entries : List Entry}

/-- Handlers do something one after the other, each for itself. -/
inductive Each (R : Handler → List Happening → Handler → Prop) :
    List Handler → List Entry → List Handler → Prop where
  | nil : Each R [] [] []
  | cons {h h' : Handler} {did : List Happening} {rest rest' : List Handler}
      {entries : List Entry} :
      R h did h' → Each R rest entries rest' →
      Each R (h :: rest) (marked h.peer did ++ entries) (h' :: rest')

/-- Only the handlers do something that a test picks. -/
def Only (test : Handler → Bool) (R : Handler → List Happening → Handler → Prop) (h : Handler)
    (did : List Happening) (h' : Handler) : Prop :=
  if test h then R h did h' else did = [] ∧ h' = h

theorem only_idle {test : Handler → Bool} {h : Handler} (htest : ¬test h) : Only test R h [] h := by
  unfold Only
  rw [if_neg htest]
  exact ⟨rfl, rfl⟩

theorem Only.cases {test : Handler → Bool} {h h' : Handler} {did : List Happening}
    (hdid : Only test R h did h') : test h = true ∧ R h did h' ∨ ¬test h ∧ did = [] ∧ h' = h := by
  unfold Only at hdid
  split at hdid
  next htest => exact .inl ⟨htest, hdid⟩
  next htest => exact .inr ⟨htest, hdid⟩

theorem Only.mono {test : Handler → Bool} {h h' : Handler} {did : List Happening}
    (honly : Only test R h did h') (hRS : R h did h' → S h did h') : Only test S h did h' := by
  obtain ⟨htest, hR⟩ | ⟨htest, rfl, rfl⟩ := honly.cases
  · unfold Only
    rw [if_pos htest]
    exact hRS hR
  · exact only_idle htest

/-- Where it is certain what becomes of the handlers that are picked, it is certain what
becomes of all. -/
theorem Only.eq_ite {test : Handler → Bool} {h h' : Handler} {did : List Happening}
    {f : Handler → Handler} (honly : Only test R h did h') (hf : R h did h' → h' = f h) :
    h' = if test h then f h else h := by
  obtain ⟨htest, hR⟩ | ⟨htest, -, rfl⟩ := honly.cases
  · rw [if_pos htest, hf hR]
  · rw [if_neg htest]

theorem Only.forall_happenings {test : Handler → Bool} {h h' : Handler} {did : List Happening}
    {P : Happening → Prop} (honly : Only test R h did h') (hdid : R h did h' → ∀ x ∈ did, P x) :
    ∀ x ∈ did, P x := by
  obtain ⟨-, hR⟩ | ⟨-, rfl, -⟩ := honly.cases
  · exact hdid hR
  · exact List.forall_mem_nil _

theorem Each.append {front front' : List Handler} {first : List Entry}
    (h : Each R front first front') (h' : Each R hs entries hs') :
    Each R (front ++ hs) (first ++ entries) (front' ++ hs') := by
  induction h with
  | nil => exact h'
  | cons hR _ ih =>
    rw [List.append_assoc]
    exact .cons hR ih

theorem Each.mono (h : Each R hs entries hs') (hRS : ∀ h ∈ hs, ∀ did h', R h did h' → S h did h') :
    Each S hs entries hs' := by
  induction h with
  | nil => exact .nil
  | cons hR _ ih =>
    obtain ⟨hh, hrest⟩ := List.forall_mem_cons.1 hRS
    exact .cons (hh _ _ hR) (ih hrest)

theorem Each.map_eq {β : Type} {f : Handler → β} (h : Each R hs entries hs')
    (hf : ∀ h did h', R h did h' → f h' = f h) : hs'.map f = hs.map f := by
  induction h with
  | nil => rfl
  | cons hR _ ih => rw [List.map_cons, List.map_cons, hf _ _ _ hR, ih]

theorem Each.origin (h : Each R hs entries hs') {h' : Handler} (hh' : h' ∈ hs') :
    ∃ h ∈ hs, ∃ did, R h did h' := by
  induction h with
  | nil => cases hh'
  | @cons h₀ h₀' did _ _ _ hR _ ih =>
    obtain rfl | hh' := List.mem_cons.1 hh'
    · exact ⟨h₀, List.mem_cons_self, did, hR⟩
    · obtain ⟨h, hh, hdid⟩ := ih hh'
      exact ⟨h, List.mem_cons_of_mem _ hh, hdid⟩

theorem Each.outcome (h : Each R hs entries hs') {h₀ : Handler} (hh : h₀ ∈ hs) :
    ∃ h' ∈ hs', ∃ did, R h₀ did h' := by
  induction h with
  | nil => cases hh
  | @cons h₁ h₁' did _ _ _ hR _ ih =>
    obtain rfl | hh := List.mem_cons.1 hh
    · exact ⟨h₁', List.mem_cons_self, did, hR⟩
    · obtain ⟨h', hh', hdid⟩ := ih hh
      exact ⟨h', List.mem_cons_of_mem _ hh', hdid⟩

theorem Each.idle {test : Handler → Bool} (hs : List Handler) (hnone : ∀ h ∈ hs, ¬test h) :
    Each (Only test R) hs [] hs := by
  induction hs with
  | nil => exact .nil
  | cons h rest ih =>
    obtain ⟨hh, hrest⟩ := List.forall_mem_cons.1 hnone
    exact .cons (only_idle hh) (ih hrest)

theorem Each.eq_of_none {test : Handler → Bool} (h : Each (Only test R) hs entries hs')
    (hnone : ∀ h ∈ hs, ¬test h) : entries = [] ∧ hs' = hs := by
  induction h with
  | nil => exact ⟨rfl, rfl⟩
  | cons hR _ ih =>
    obtain ⟨hh, hrest⟩ := List.forall_mem_cons.1 hnone
    obtain ⟨-, rfl, rfl⟩ := hR.cases.resolve_left fun htest => hh htest.1
    obtain ⟨rfl, rfl⟩ := ih hrest
    exact ⟨rfl, rfl⟩

theorem Each.history_other {peer : PeerId} (h : Each R hs entries hs')
    (hpeer : ∀ h ∈ hs, h.peer ≠ peer) : history peer entries = [] := by
  induction h with
  | nil => rfl
  | cons _ _ ih =>
    obtain ⟨hh, hrest⟩ := List.forall_mem_cons.1 hpeer
    rw [history_append, history_marked_of_ne hh, ih hrest, List.append_nil]

/-- What a handler does is what happens on behalf of its peer. -/
theorem Each.own (h : Each R hs entries hs') (hnodup : (hs.map (·.peer)).Nodup) :
    Each (fun h did h' => R h did h' ∧ history h.peer entries = did) hs entries hs' := by
  induction h with
  | nil => exact .nil
  | @cons h h' did rest rest' entries hR hrest ih =>
    rw [List.map_cons, List.nodup_cons] at hnodup
    obtain ⟨hfresh, hnodup⟩ := hnodup
    have hothers : ∀ x ∈ rest, x.peer ≠ h.peer :=
      fun x hx hsame => hfresh (hsame ▸ List.mem_map_of_mem hx)
    refine .cons ⟨hR, ?_⟩ ((ih hnodup).mono fun x hx _ _ hdid => ⟨hdid.1, ?_⟩)
    · rw [history_append, history_marked_self, hrest.history_other hothers, List.append_nil]
    · rw [history_append, history_marked_of_ne (hothers x hx).symm, List.nil_append, hdid.2]

theorem Each.before (h : Each R hs entries hs') (hnodup : (hs.map (·.peer)).Nodup) {h' : Handler}
    (hh' : h' ∈ hs') : ∃ h ∈ hs, R h (history h.peer entries) h' := by
  obtain ⟨h, hh, _, hR, rfl⟩ := (h.own hnodup).origin hh'
  exact ⟨h, hh, hR⟩

theorem Each.after (h : Each R hs entries hs') (hnodup : (hs.map (·.peer)).Nodup) {h₀ : Handler}
    (hh : h₀ ∈ hs) : ∃ h' ∈ hs', R h₀ (history h₀.peer entries) h' := by
  obtain ⟨h', hh', _, hR, rfl⟩ := (h.own hnodup).outcome hh
  exact ⟨h', hh', hR⟩

theorem updateAll_each_of {work : Work Handler α} {A : α → Prop}
    (hwork : ∀ h ∈ hs, Work.Always work h fun did a h' => A a → R h did h') :
    (updateAll work hs).Records fun entries r => (∀ a ∈ r.1, A a) → Each R hs entries r.2 := by
  induction hs with
  | nil => simpa [updateAll] using Each.nil
  | cons h rest ih =>
    obtain ⟨hh, hrest⟩ := List.forall_mem_cons.1 hwork
    simp only [updateAll, Dialogue.records_bind]
    refine (hh.records h.peer).mono ?_
    rintro _ ⟨a, h'⟩ ⟨did, rfl, hR⟩
    refine (ih hrest).mono ?_
    rintro entries ⟨as, rest'⟩ heach
    simp only [Dialogue.pure_eq, Dialogue.records_done, List.append_nil]
    intro hall
    obtain ⟨ha, has⟩ := List.forall_mem_cons.1 hall
    exact .cons (hR ha) (heach has)

theorem updateAll_each {work : Work Handler α}
    (hwork : ∀ h ∈ hs, Work.Always work h fun did _ h' => R h did h') :
    (updateAll work hs).Records fun entries r => Each R hs entries r.2 :=
  (updateAll_each_of (A := fun _ => True) fun h hh => (hwork h hh).mono fun _ _ _ hR _ => hR).mono
    fun _ _ heach => heach fun _ _ => trivial

/-- What comes of the search for a handler: none was found, or one that the test picks. -/
def Found (test : Handler → Bool) (A : Handler → α → Prop) (hs : List Handler) : Option α → Prop
  | none => ∀ h ∈ hs, ¬test h
  | some a => ∃ h ∈ hs, test h ∧ A h a

theorem updateFirst_each {work : Work Handler α} {test : Handler → Bool} {A : Handler → α → Prop}
    (hwork : ∀ h ∈ hs, Work.Always work h fun did a h' => R h did h' ∧ A h a)
    (hone : hs.Pairwise fun h x => test h → ¬test x) :
    (updateFirst test work hs).Records fun entries r =>
      Each (Only test R) hs entries r.2 ∧ Found test A hs r.1 ∧ (r.1 = none → entries = []) := by
  induction hs with
  | nil => simpa [updateFirst, Found] using Each.nil
  | cons h rest ih =>
    obtain ⟨hh, hrest⟩ := List.forall_mem_cons.1 hwork
    obtain ⟨hother, hone⟩ := List.pairwise_cons.1 hone
    by_cases htest : test h
    · simp only [updateFirst, htest, if_true, Dialogue.records_bind]
      refine (hh.records h.peer).mono ?_
      rintro _ ⟨a, h'⟩ ⟨did, rfl, hR, hA⟩
      have hdoes : Only test R h did h' := by
        unfold Only
        rwa [if_pos htest]
      have heach := Each.cons hdoes (.idle rest fun x hx => hother x hx htest)
      simp only [Dialogue.pure_eq, Dialogue.records_done]
      exact ⟨heach, ⟨h, List.mem_cons_self, htest, hA⟩, by simp⟩
    · simp only [updateFirst, htest, Bool.false_eq_true, if_false, Dialogue.records_bind]
      refine (ih hrest hone).mono ?_
      rintro entries ⟨a, rest'⟩ ⟨heach, hfound, hnone⟩
      simp only [Dialogue.pure_eq, Dialogue.records_done, List.append_nil]
      refine ⟨Each.cons (only_idle htest) heach, ?_, hnone⟩
      cases a with
      | none => exact List.forall_mem_cons.2 ⟨htest, hfound⟩
      | some a =>
        obtain ⟨x, hx, hpicked⟩ := hfound
        exact ⟨x, List.mem_cons_of_mem h hx, hpicked⟩

end Each

namespace Registry

variable {α : Type} {R S : Handler → List Happening → Handler → Prop} {r r' : Registry}
  {entries : List Entry}

/-- The live handlers do something, each in its place and for itself. -/
structure Round (R : Handler → List Happening → Handler → Prop) (r : Registry)
    (entries : List Entry) (r' : Registry) : Prop where
  parts : ∃ first second, entries = first ++ second ∧ Each R r.initializing first r'.initializing ∧
    Each R r.streaming second r'.streaming
  active : r'.active = r.active
  distressed : r'.distressed = r.distressed
  voluntary : r'.voluntary = r.voluntary

theorem Round.live (h : Round R r entries r') : Each R r.live entries r'.live := by
  obtain ⟨first, second, rfl, hinitializing, hstreaming⟩ := h.parts
  exact hinitializing.append hstreaming

theorem Round.mono (h : Round R r entries r')
    (hRS : ∀ h ∈ r.live, ∀ did h', R h did h' → S h did h') :
    Round S r entries r' := by
  obtain ⟨hfirst, hsecond⟩ := List.forall_mem_append.1 hRS
  obtain ⟨first, second, rfl, hinitializing, hstreaming⟩ := h.parts
  exact ⟨⟨first, second, rfl, hinitializing.mono hfirst, hstreaming.mono hsecond⟩, h.active,
    h.distressed, h.voluntary⟩

/-- Where a test picks no one, the registry stays as it is. -/
theorem Round.eq_of_none {test : Handler → Bool} (h : Round (Only test R) r entries r')
    (hnone : ∀ h ∈ r.live, ¬test h) : entries = [] ∧ r' = r := by
  obtain ⟨hfirst, hsecond⟩ := List.forall_mem_append.1 hnone
  obtain ⟨first, second, rfl, hinitializing, hstreaming⟩ := h.parts
  obtain ⟨rfl, heq⟩ := hinitializing.eq_of_none hfirst
  obtain ⟨rfl, heq'⟩ := hstreaming.eq_of_none hsecond
  refine ⟨rfl, ?_⟩
  show Registry.mk r'.active r'.initializing r'.streaming r'.distressed r'.voluntary = r
  rw [h.active, heq, heq', h.distressed, h.voluntary]

theorem updateLive_round_of {work : Work Handler α} {A : α → Prop}
    (hwork : ∀ h ∈ r.live, Work.Always work h fun did a h' => A a → R h did h') :
    Work.Records (updateLive work) r fun entries as r' => (∀ a ∈ as, A a) →
      Round R r entries r' := by
  obtain ⟨hinitializing, hstreaming⟩ := List.forall_mem_append.1 hwork
  simp only [updateLive, Work.records_bind, Work.records_get, Work.records_lift, Work.records_set,
    Work.records_pure, List.nil_append, List.append_nil]
  refine (updateAll_each_of hinitializing).mono ?_
  rintro first ⟨as, initializing⟩ hfirst
  refine (updateAll_each_of hstreaming).mono ?_
  rintro second ⟨bs, streaming⟩ hsecond hall
  obtain ⟨has, hbs⟩ := List.forall_mem_append.1 hall
  exact ⟨⟨first, second, rfl, hfirst has, hsecond hbs⟩, rfl, rfl, rfl⟩

theorem updateLive_round {work : Work Handler α}
    (hwork : ∀ h ∈ r.live, Work.Always work h fun did _ h' => R h did h') :
    Work.Records (updateLive work) r fun entries _ r' => Round R r entries r' :=
  (updateLive_round_of (A := fun _ => True) fun h hh => (hwork h hh).mono fun _ _ _ hR _ => hR).mono
    fun _ _ _ hround => hround fun _ _ => trivial

theorem updateLive?_round {work : Work Handler α} {test : Handler → Bool} {A : Handler → α → Prop}
    (hwork : ∀ h ∈ r.live, Work.Always work h fun did a h' => R h did h' ∧ A h a)
    (hone : r.live.Pairwise fun h x => test h → ¬test x) :
    Work.Records (updateLive? test work) r fun entries a r' =>
      Round (Only test R) r entries r' ∧ Found test A r.live a := by
  obtain ⟨hinitializing, hstreaming⟩ := List.forall_mem_append.1 hwork
  obtain ⟨honeFirst, honeSecond, hacross⟩ := List.pairwise_append.1 hone
  simp only [updateLive?, Work.records_bind, Work.records_get, Work.records_lift, List.nil_append]
  refine (updateFirst_each hinitializing honeFirst).mono ?_
  rintro first ⟨a, initializing⟩ ⟨hfirst, hfound, hnone⟩
  cases a with
  | some a =>
    obtain ⟨h, hh, htest, hA⟩ := hfound
    have hidle : Each (Only test R) r.streaming [] r.streaming :=
      .idle _ fun x hx => hacross h hh x hx htest
    simp only [Work.records_bind, Work.records_set, Work.records_pure, List.append_nil]
    exact ⟨⟨⟨first, [], by simp, hfirst, hidle⟩, rfl, rfl, rfl⟩, h, List.mem_append_left _ hh,
      htest, hA⟩
  | none =>
    obtain rfl := hnone rfl
    have hidle : Each (Only test R) r.initializing [] r.initializing := .idle _ hfound
    simp only [Work.records_bind, Work.records_lift, Work.records_set, Work.records_pure]
    refine (updateFirst_each hstreaming honeSecond).mono ?_
    rintro second ⟨b, streaming⟩ ⟨hsecond, hfound', -⟩
    simp only [List.nil_append, List.append_nil]
    refine ⟨⟨⟨[], second, rfl, hidle, hsecond⟩, rfl, rfl, rfl⟩, ?_⟩
    cases b with
    | none => exact List.forall_mem_append.2 ⟨hfound, hfound'⟩
    | some b =>
      obtain ⟨h, hh, hpicked⟩ := hfound'
      exact ⟨h, List.mem_append_right _ hh, hpicked⟩

/-- Where no two handlers have the same of something, a test for it picks one at most. -/
theorem pairwise_of_nodup {β : Type} [DecidableEq β] {f : Handler → β} {hs : List Handler}
    (hnodup : (hs.map f).Nodup) (b : β) :
    hs.Pairwise fun h x => decide (f h = b) = true → ¬decide (f x = b) = true := by
  rw [List.nodup_iff_pairwise_ne, List.pairwise_map] at hnodup
  refine hnodup.imp fun hne heq heq' => hne ?_
  rw [of_decide_eq_true heq, of_decide_eq_true heq']

/-! ### The end of handlers -/

/-- The last phase of a handler: it stopped, if it was asked to. -/
def verdict (r : Registry) (h : Handler) : Phase :=
  if r.voluntary.contains h.peer then .stopped else .distressed

/-- The name of a last phase in the count of outcomes. -/
def outcome (last : Phase) : String :=
  if last = .distressed then "distressed" else "stopped"

/-- What happens at the end of a handler. -/
def endings (h : Handler) (last : Phase) : List Happening :=
  [.reported (.phaseEntered last.name), .reported (.handlerOutcome h.tableName (outcome last))]

/-- The drained handlers. -/
def drained (r : Registry) : List Handler :=
  r.live.filter (·.isDrained)

/-- Those of these handlers that were not asked to stop, as they are kept. -/
def parked (r : Registry) (hs : List Handler) : List Handler :=
  (hs.filter fun h => !r.voluntary.contains h.peer).map fun h => { h with phase := .distressed }

theorem parked_cons_of_asked {h : Handler} (hasked : r.voluntary.contains h.peer = true)
    (hs : List Handler) : r.parked (h :: hs) = r.parked hs := by
  rw [parked, List.filter_cons_of_neg (by rw [hasked]; decide), parked]

theorem parked_cons_of_not {h : Handler} (hasked : ¬r.voluntary.contains h.peer = true)
    (hs : List Handler) : r.parked (h :: hs) = { h with phase := .distressed } :: r.parked hs := by
  rw [Bool.not_eq_true] at hasked
  rw [parked, List.filter_cons_of_pos (by rw [hasked]; decide), List.map_cons, parked]

/-- These handlers come to their end; those that were not asked to stop are kept. -/
structure Settles (hs : List Handler) (r : Registry) (entries : List Entry) (r' : Registry) :
    Prop where
  entries : entries = hs.flatMap fun h => marked h.peer (endings h (r.verdict h))
  initializing : r'.initializing = r.initializing
  streaming : r'.streaming = r.streaming
  active : r'.active = r.active.filter fun name => hs.all (·.tableName ≠ name)
  voluntary : r'.voluntary = r.voluntary.filter fun peer => hs.all (·.peer ≠ peer)
  distressed : r'.distressed = r.distressed ++ r.parked hs

theorem phase_of_isDrained {h : Handler} (hdrained : h.isDrained) : h.phase = .stopping := by
  unfold isDrained at hdrained
  rw [Bool.and_eq_true, Bool.and_eq_true, decide_eq_true_eq] at hdrained
  exact hdrained.1.1

theorem settle_settles {h : Handler} (hphase : h.phase = .stopping) :
    Work.Records (settle h) r fun entries _ r' => Settles [h] r entries r' := by
  simp only [settle, Work.records_bind, Work.records_get, Work.records_set, Work.records_lift,
    List.nil_append]
  refine ((finish_always hphase).records h.peer).mono ?_
  rintro _ ⟨last, h'⟩ ⟨hs, rfl, hlast, rfl, heq⟩
  simp only at hlast heq
  subst heq
  have hverdict : r.verdict h = last := hlast.symm
  have hactive : r.active.filter (· ≠ h.tableName) =
      r.active.filter fun name => [h].all (·.tableName ≠ name) := by simp [eq_comm]
  have hvoluntary : r.voluntary.filter (· ≠ h.peer) =
      r.voluntary.filter fun peer => [h].all (·.peer ≠ peer) := by simp [eq_comm]
  by_cases hasked : r.voluntary.contains h.peer
  · rw [if_pos hasked] at hlast
    subst hlast
    simp only [reduceCtorEq, if_false, Work.records_lift]
    apply Dialogue.records_report
    refine ⟨by simp [hverdict, endings, outcome, marked], rfl, rfl, hactive, hvoluntary, ?_⟩
    rw [parked_cons_of_asked hasked]
    exact (List.append_nil _).symm
  · rw [if_neg hasked] at hlast
    subst hlast
    simp only [if_true, Work.records_bind, Work.records_lift, Work.records_modify]
    apply Dialogue.records_report
    refine ⟨by simp [hverdict, endings, outcome, marked], rfl, rfl, hactive, hvoluntary, ?_⟩
    rw [parked_cons_of_not hasked]
    rfl

/-- If some handlers come to their end, and then another one, all of them do. -/
theorem Settles.cons {h : Handler} {rest : List Handler} {r₁ r₂ : Registry} {entries' : List Entry}
    (hnodup : ((h :: rest).map (·.peer)).Nodup) (hfirst : Settles [h] r entries r₁)
    (hrest : Settles rest r₁ entries' r₂) : Settles (h :: rest) r (entries ++ entries') r₂ := by
  rw [List.map_cons, List.nodup_cons] at hnodup
  have hcontains : ∀ x ∈ rest, r₁.voluntary.contains x.peer = r.voluntary.contains x.peer := by
    intro x hx
    have hne : h.peer ≠ x.peer := fun heq => hnodup.1 (heq ▸ List.mem_map_of_mem hx)
    rw [hfirst.voluntary, Bool.eq_iff_iff]
    simp [hne]
  refine ⟨?_, hrest.initializing.trans hfirst.initializing, hrest.streaming.trans hfirst.streaming,
    ?_, ?_, ?_⟩
  · have hverdicts : ∀ x ∈ rest, marked x.peer (endings x (r₁.verdict x)) =
        marked x.peer (endings x (r.verdict x)) := by
      intro x hx
      rw [verdict, verdict, hcontains x hx]
    rw [hfirst.entries, hrest.entries, List.flatMap_singleton, List.flatMap_cons, List.flatMap_def,
      List.map_congr_left hverdicts, ← List.flatMap_def]
  · rw [hrest.active, hfirst.active, List.filter_filter]
    simp [Bool.and_comm]
  · rw [hrest.voluntary, hfirst.voluntary, List.filter_filter]
    simp [Bool.and_comm]
  · have hparked : r₁.parked rest = r.parked rest := by
      unfold parked
      rw [List.filter_congr fun x hx => congrArg not (hcontains x hx)]
    rw [hrest.distressed, hfirst.distressed, hparked, List.append_assoc, parked, parked, parked,
      ← List.map_append, ← List.filter_append]
    rfl

theorem settleAll_settles {hs : List Handler} (hphase : ∀ h ∈ hs, h.phase = .stopping)
    (hnodup : (hs.map (·.peer)).Nodup) :
    Work.Records (settleAll hs) r fun entries _ r' => Settles hs r entries r' := by
  induction hs generalizing r with
  | nil =>
    simp only [settleAll, Work.records_pure]
    have hkept : ∀ {β : Type} (l : List β), l = l.filter fun _ => true := fun l =>
      (List.filter_eq_self.2 fun _ _ => rfl).symm
    exact ⟨rfl, rfl, rfl, hkept _, hkept _, (List.append_nil _).symm⟩
  | cons h rest ih =>
    obtain ⟨hh, hrest⟩ := List.forall_mem_cons.1 hphase
    simp only [settleAll, Work.records_bind]
    refine (settle_settles hh).mono ?_
    intro entries _ r₁ hfirst
    refine (ih hrest (List.nodup_cons.1 hnodup).2).mono ?_
    intro entries' _ r₂ hsecond
    exact hfirst.cons hnodup hsecond

/-- The registry without the drained handlers. -/
def undrained (r : Registry) : Registry :=
  { r with
    initializing := r.initializing.filter fun h => !h.isDrained
    streaming := r.streaming.filter fun h => !h.isDrained }

/-- All drained handlers come to their end. -/
def Reaps (r : Registry) (entries : List Entry) (r' : Registry) : Prop :=
  Settles r.drained r.undrained entries r'

theorem reap_reaps (hnodup : (r.live.map (·.peer)).Nodup) :
    Work.Records reap r fun entries _ r' => Reaps r entries r' := by
  simp only [reap, List.partition_eq_filter_filter, Work.records_bind, Work.records_get,
    Work.records_set, Work.records_pure, List.nil_append, List.append_nil, ← List.filter_append]
  apply settleAll_settles
  · exact fun h hh => phase_of_isDrained (List.mem_filter.1 hh).2
  · exact hnodup.sublist (List.filter_sublist.map _)

end Registry

end ReplicaHandshake
