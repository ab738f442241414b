import ReplicaHandshake.Proofs.Controller.Alone
import ReplicaHandshake.Proofs.Controller.Stopping

/-!
# What a controller does for one table

A registry shows how each table stands (`Registry.standing`, `Registry.Shows`).  Whatever an
operation does to the registry, for a single table it is as if there were no other: the table comes
to stand as it does alone, and on behalf of its peer the same happens (`Registry.Follows`).  That is
so of every stage of a tick, and therefore of the whole.

A table is served by one peer at most (`Registry.Serves`); where it has a live handler at the end of
a piece of work, this is the peer to look at from the start, also if it has been issued on the way.
-/

namespace ReplicaHandshake

open Handler

namespace Registry

variable {R : Handler → List Happening → Handler → Prop} {r r' r'' : Registry}
  {entries entries' : List Entry} {next p : PeerId} {t : String} {s s' : Standing}

/-! ### How a table stands -/

/-- How a table stands with a registry. -/
def standing (r : Registry) (tableName : String) : Standing :=
  match r.initializing.find? (·.tableName = tableName) with
  | some h => .live h false (r.voluntary.contains h.peer)
  | none =>
    match r.streaming.find? (·.tableName = tableName) with
    | some h => .live h true (r.voluntary.contains h.peer)
    | none =>
      match r.distressed.find? (·.tableName = tableName) with
      | some h => .parked h
      | none => .absent

/-- The live handlers after the handoff, or those before it. -/
def part (r : Registry) (isStreaming : Bool) : List Handler :=
  if isStreaming then r.streaming else r.initializing

/-- This is how a table stands with a registry. -/
inductive Shows (r : Registry) (t : String) : Standing → Prop where
  | absent : (∀ h ∈ r.live, h.tableName ≠ t) → (∀ h ∈ r.distressed, h.tableName ≠ t) →
    Shows r t .absent
  | live {h : Handler} {isStreaming isVoluntary : Bool} : h ∈ r.part isStreaming → h.tableName = t →
      isVoluntary = r.voluntary.contains h.peer → Shows r t (.live h isStreaming isVoluntary)
  | parked {h : Handler} : (∀ h ∈ r.live, h.tableName ≠ t) → h ∈ r.distressed → h.tableName = t →
      Shows r t (.parked h)

theorem mem_live_of_part {h : Handler} {isStreaming : Bool} (hh : h ∈ r.part isStreaming) :
    h ∈ r.live := by
  cases isStreaming with
  | false => exact List.mem_append_left _ hh
  | true => exact List.mem_append_right _ hh

theorem exists_part_of_live {h : Handler} (hh : h ∈ r.live) :
    ∃ isStreaming, h ∈ r.part isStreaming := by
  obtain hh | hh := List.mem_append.1 hh
  · exact ⟨false, hh⟩
  · exact ⟨true, hh⟩

theorem shows_standing (r : Registry) (t : String) : r.Shows t (r.standing t) := by
  have hname : ∀ {hs : List Handler} {h : Handler}, hs.find? (·.tableName = t) = some h →
      h.tableName = t :=
    fun hfind => by simpa using List.find?_some hfind
  have hnone : ∀ {hs : List Handler}, hs.find? (·.tableName = t) = none →
      ∀ h ∈ hs, h.tableName ≠ t :=
    fun hfind h hh hsame => List.find?_eq_none.1 hfind h hh (decide_eq_true hsame)
  unfold standing
  split
  next h hfind =>
    have hpart : h ∈ r.part false := List.mem_of_find?_eq_some hfind
    exact .live hpart (hname hfind) rfl
  next hfirst =>
    split
    next h hfind =>
      have hpart : h ∈ r.part true := List.mem_of_find?_eq_some hfind
      exact .live hpart (hname hfind) rfl
    next hsecond =>
      have hlive : ∀ h ∈ r.live, h.tableName ≠ t :=
        List.forall_mem_append.2 ⟨hnone hfirst, hnone hsecond⟩
      split
      next h hfind => exact .parked hlive (List.mem_of_find?_eq_some hfind) (hname hfind)
      next hfind => exact .absent hlive (hnone hfind)

/-- In a registry that is in order a table stands in one way only. -/
theorem Shows.unique (hsorted : r.Sorted next) (hs : r.Shows t s) (hs' : r.Shows t s') :
    s' = s := by
  have hnames := hsorted.names
  rw [handlers, List.map_append, List.nodup_append] at hnames
  obtain ⟨hlive, hdistressed, -⟩ := hnames
  have hparts : ∀ {h : Handler}, h ∈ r.initializing → h ∉ r.streaming := by
    intro h hh hh'
    have hboth := hlive
    rw [Registry.live, List.map_append, List.nodup_append] at hboth
    exact hboth.2.2 _ (List.mem_map_of_mem hh) _ (List.mem_map_of_mem hh') rfl
  cases hs with
  | absent hnone hgone =>
    cases hs' with
    | absent => rfl
    | live hh hname => exact absurd hname (hnone _ (mem_live_of_part hh))
    | parked _ hh hname => exact absurd hname (hgone _ hh)
  | @live h isStreaming _ hh hname hasked =>
    cases hs' with
    | absent hnone => exact absurd hname (hnone _ (mem_live_of_part hh))
    | parked hnone => exact absurd hname (hnone _ (mem_live_of_part hh))
    | @live x isStreaming' _ hx hname' hasked' =>
      obtain rfl :=
        eq_of_nodup_map hlive (mem_live_of_part hh) (mem_live_of_part hx) (hname'.trans hname.symm)
      obtain rfl : isStreaming' = isStreaming := by
        cases isStreaming <;> cases isStreaming'
        · rfl
        · exact absurd hx (hparts hh)
        · exact absurd hh (hparts hx)
        · rfl
      rw [hasked, hasked']
  | parked hnone hh hname =>
    cases hs' with
    | absent _ hgone => exact absurd hname (hgone _ hh)
    | live hx hname' => exact absurd hname' (hnone _ (mem_live_of_part hx))
    | parked _ hx hname' =>
      obtain rfl := eq_of_nodup_map hdistressed hh hx (hname'.trans hname.symm)
      rfl

/-- A table stands as before where nothing has changed that is named like it. -/
theorem Shows.kept (hs : r.Shows t s)
    (hpart : ∀ isStreaming, ∀ h : Handler, h.tableName = t →
      (h ∈ r'.part isStreaming ↔ h ∈ r.part isStreaming))
    (hdistressed : ∀ h : Handler, h.tableName = t → (h ∈ r'.distressed ↔ h ∈ r.distressed))
    (hvoluntary : ∀ h ∈ r.live, h.tableName = t →
      r'.voluntary.contains h.peer = r.voluntary.contains h.peer) :
    r'.Shows t s := by
  have hlive : (∀ h ∈ r.live, h.tableName ≠ t) → ∀ h ∈ r'.live, h.tableName ≠ t := by
    intro hnone h hh hname
    obtain ⟨isStreaming, hh⟩ := exists_part_of_live hh
    exact hnone h (mem_live_of_part ((hpart isStreaming h hname).1 hh)) hname
  cases hs with
  | absent hnone hgone =>
    exact .absent (hlive hnone) fun h hh hname => hgone h ((hdistressed h hname).1 hh) hname
  | @live h isStreaming _ hh hname hasked =>
    refine .live ((hpart isStreaming h hname).2 hh) hname ?_
    rw [hasked, hvoluntary h (mem_live_of_part hh) hname]
  | @parked h hnone hh hname => exact .parked (hlive hnone) ((hdistressed h hname).2 hh) hname

/-! ### Who serves it -/

/-- If anybody serves a table it is this peer, and it serves no other one. -/
def Serves (r : Registry) (t : String) (p : PeerId) : Prop :=
  ∀ h ∈ r.live, h.tableName = t ↔ h.peer = p

/-- Whoever is live here is live there, and serves the same table. -/
def Persists (r r' : Registry) : Prop :=
  ∀ h ∈ r.live, ∃ h' ∈ r'.live, h'.peer = h.peer ∧ h'.tableName = h.tableName

theorem Persists.of_subset (hsubset : ∀ h ∈ r.live, h ∈ r'.live) : r.Persists r' :=
  fun h hh => ⟨h, hsubset h hh, rfl, rfl⟩

theorem Persists.trans (h : r.Persists r') (h' : r'.Persists r'') : r.Persists r'' := by
  intro x hx
  obtain ⟨y, hy, hpeer, hname⟩ := h x hx
  obtain ⟨z, hz, hpeer', hname'⟩ := h' y hy
  exact ⟨z, hz, hpeer'.trans hpeer, hname'.trans hname⟩

theorem Persists.serves (h : r.Persists r') (hserves : r'.Serves t p) : r.Serves t p := by
  intro x hx
  obtain ⟨y, hy, hpeer, hname⟩ := h x hx
  rw [← hpeer, ← hname]
  exact hserves y hy

/-! ### Following -/

/-- What is said on nobody's behalf is to report. -/
def Quiet (entries : List Entry) : Prop :=
  ∀ e ∈ entries, e.peer = none → ∃ m, e.happening = .reported m

theorem quiet_reported (m : Metric) : Quiet [⟨none, .reported m⟩] :=
  List.forall_mem_singleton.2 fun _ => ⟨m, rfl⟩

theorem quiet_of_isSome (hsome : ∀ e ∈ entries, e.peer.isSome) : Quiet entries := by
  intro e he hnone
  have hsome := hsome e he
  rw [hnone] at hsome
  cases hsome

/-- Whatever happened, for a table it is as if there were no other and this work had
been done for it. -/
structure Follows (t : String) (work : PeerId → Work Standing Unit) (r : Registry)
    (entries : List Entry) (r' : Registry) : Prop where
  persists : r.Persists r'
  quiet : Quiet entries
  alone : ∀ p, r'.Serves t p → ∀ s, r.Shows t s → ∃ es s', ((work p).run s).Runs es ((), s') ∧
    happenings es = history p entries ∧ r'.Shows t s'

theorem Follows.seq {work work' : PeerId → Work Standing Unit} (h : Follows t work r entries r')
    (h' : Follows t work' r' entries' r'') :
    Follows t (fun p => do work p; work' p) r (entries ++ entries') r'' := by
  refine ⟨h.persists.trans h'.persists, List.forall_mem_append.2 ⟨h.quiet, h'.quiet⟩,
    fun p hserves s hs => ?_⟩
  obtain ⟨es, s₁, hruns, hdid, hs₁⟩ := h.alone p (h'.persists.serves hserves) s hs
  obtain ⟨es', s₂, hruns', hdid', hs₂⟩ := h'.alone p hserves s₁ hs₁
  refine ⟨es ++ es', s₂, Work.runs_bind.2 ⟨es, (), s₁, es', rfl, hruns, hruns'⟩, ?_, hs₂⟩
  rw [happenings_append, history_append, hdid, hdid']

/-- Nothing has changed that is named like the table, and nothing happened on behalf of its peer. -/
theorem Follows.idle (hpersists : r.Persists r') (hquiet : Quiet entries)
    (hnone : ∀ p, r'.Serves t p → history p entries = [])
    (hkept : ∀ s, r.Shows t s → r'.Shows t s) :
    Follows t (fun _ => pure ()) r entries r' :=
  ⟨hpersists, hquiet, fun p hserves s hs => ⟨[], s, .done _, (hnone p hserves).symm, hkept s hs⟩⟩

theorem follows_reported (m : Metric) : Follows t (fun _ => pure ()) r [⟨none, .reported m⟩] r :=
  .idle (.of_subset fun _ hh => hh) (quiet_reported m) (fun _ _ => rfl) fun _ hs => hs

/-! ### Rounds -/

/-- Whoever does this keeps its name. -/
def KeepsName (r : Registry) (R : Handler → List Happening → Handler → Prop) : Prop :=
  ∀ h ∈ r.live, ∀ did h', R h did h' → h'.peer = h.peer ∧ h'.tableName = h.tableName

theorem KeepsName.only (hR : r.KeepsName R) (test : Handler → Bool) :
    r.KeepsName (Only test R) := by
  intro h hh did h' hdid
  obtain ⟨-, hdid⟩ | ⟨-, -, rfl⟩ := hdid.cases
  · exact hR h hh did h' hdid
  · exact ⟨rfl, rfl⟩

theorem Round.persists (hround : Round R r entries r') (hR : r.KeepsName R) : r.Persists r' := by
  intro h hh
  obtain ⟨h', hh', did, hdid⟩ := hround.live.outcome hh
  exact ⟨h', hh', hR h hh did h' hdid⟩

theorem Round.after (hround : Round R r entries r') (hnodup : (r.live.map (·.peer)).Nodup)
    {h : Handler} {isStreaming : Bool} (hh : h ∈ r.part isStreaming) :
    ∃ h' ∈ r'.part isStreaming, R h (history h.peer entries) h' := by
  rw [Registry.live, List.map_append, List.nodup_append] at hnodup
  obtain ⟨hfirst, hsecond, hdisjoint⟩ := hnodup
  obtain ⟨first, second, rfl, hinitializing, hstreaming⟩ := hround.parts
  cases isStreaming with
  | false =>
    obtain ⟨h', hh', hdid⟩ := hinitializing.after hfirst hh
    refine ⟨h', hh', ?_⟩
    rw [history_append, hstreaming.history_other, List.append_nil]
    · exact hdid
    · exact fun x hx hsame => hdisjoint _ (List.mem_map_of_mem hh) _
        (List.mem_map_of_mem hx) hsame.symm
  | true =>
    obtain ⟨h', hh', hdid⟩ := hstreaming.after hsecond hh
    refine ⟨h', hh', ?_⟩
    rw [history_append, hinitializing.history_other, List.nil_append]
    · exact hdid
    · exact fun x hx hsame => hdisjoint _ (List.mem_map_of_mem hx) _ (List.mem_map_of_mem hh) hsame

/-- After a round a table stands as before, but for what its live handler has done. -/
theorem Round.shows (hround : Round R r entries r') (hsorted : r.Sorted next) (hR : r.KeepsName R)
    (hserves : r.Serves t p) (hs : r.Shows t s) :
    (∃ h isStreaming isVoluntary h', s = .live h isStreaming isVoluntary ∧ h ∈ r.live ∧
      h.tableName = t ∧ h.peer = p ∧
      R h (history p entries) h' ∧ r'.Shows t (.live h' isStreaming isVoluntary)) ∨
    (∀ h ∈ r.live, h.tableName ≠ t) ∧ s.peer? = none ∧ history p entries = [] ∧ r'.Shows t s := by
  have hgone : (∀ h ∈ r.live, h.tableName ≠ t) →
      history p entries = [] ∧ ∀ h' ∈ r'.live, h'.tableName ≠ t := by
    intro hnone
    refine ⟨hround.live.history_other fun h hh hpeer => hnone h hh ((hserves h hh).2 hpeer),
      fun h' hh' => ?_⟩
    obtain ⟨h, hh, did, hdid⟩ := hround.live.origin hh'
    rw [(hR h hh did h' hdid).2]
    exact hnone h hh
  cases hs with
  | absent hnone hdistressed =>
    refine .inr ⟨hnone, rfl, (hgone hnone).1, .absent (hgone hnone).2 ?_⟩
    rwa [hround.distressed]
  | parked hnone hh hname =>
    refine .inr ⟨hnone, rfl, (hgone hnone).1, .parked (hgone hnone).2 ?_ hname⟩
    rwa [hround.distressed]
  | @live h isStreaming isVoluntary hh hname hasked =>
    have hlive := mem_live_of_part hh
    obtain ⟨h', hh', hdid⟩ := hround.after hsorted.live_peers hh
    obtain ⟨hpeer', hname'⟩ := hR h hlive _ h' hdid
    have hpeer := (hserves h hlive).1 hname
    refine .inl ⟨h, isStreaming, isVoluntary, h', rfl, hlive, hname, hpeer, hpeer ▸ hdid, ?_⟩
    refine .live hh' (hname'.trans hname) ?_
    rw [hround.voluntary, hpeer']
    exact hasked

/-- After a round in which nobody does anything who serves the table, it stands as before. -/
theorem Round.shows_other {test : Handler → Bool} (hround : Round (Only test R) r entries r')
    (hsorted : r.Sorted next) (hR : r.KeepsName R) (hserves : r.Serves t p) (hs : r.Shows t s)
    (hother : ∀ h ∈ r.live, h.tableName = t → ¬test h) : history p entries = [] ∧ r'.Shows t s := by
  obtain ⟨h, _, _, h', rfl, hh, hname, -, hdid, hs'⟩ | ⟨-, -, hidle, hs'⟩ :=
    hround.shows hsorted (hR.only test) hserves hs
  · obtain ⟨htest, -⟩ | ⟨-, hidle, rfl⟩ := hdid.cases
    · exact absurd htest (hother h hh hname)
    · exact ⟨hidle, hs'⟩
  · exact ⟨hidle, hs'⟩

/-- Somebody does a piece of work, and the table stands then as the handler is. -/
theorem runs_lift {α : Type} {work : Work Handler α} {h h' : Handler} {es : List Entry} {a : α}
    (hruns : (work.run h).Runs es (a, h')) (f : Handler → Standing) (s : Standing) :
    ((do let (_, h) ← (work.run h : Dialogue _)
         set (f h) : Work Standing Unit).run s).Runs es ((), f h') := by
  have hlifted : ((liftM (work.run h) : Work Standing (α × Handler)).run s).Runs es ((a, h'), s) :=
    Dialogue.runs_bind.2 ⟨es, (a, h'), [], (List.append_nil es).symm, hruns, .done _⟩
  exact Work.runs_bind.2 ⟨es, _, _, [], (List.append_nil es).symm, hlifted, .done _⟩

theorem onLive_runs {α : Type} {work : Work Handler α} {h h' : Handler} {es : List Entry} {a : α}
    (hruns : (work.run h).Runs es (a, h')) (isStreaming isVoluntary : Bool) :
    ((Standing.onLive work).run (.live h isStreaming isVoluntary)).Runs es
      ((), .live h' isStreaming isVoluntary) :=
  Work.runs_bind.2 ⟨[], _, _, es, rfl, .done _, runs_lift hruns (.live · isStreaming isVoluntary) _⟩

theorem onLive_idle {α : Type} (work : Work Handler α) (hnone : s.peer? = none) :
    ((Standing.onLive work).run s).Runs [] ((), s) := by
  cases s with
  | absent | parked => exact .done _
  | live => cases hnone

/-- Where the live handlers do a piece of work, for each table its own one does. -/
theorem Round.follows {α : Type} {work : Work Handler α} (hround : Round (Does work) r entries r')
    (hsorted : r.Sorted next) (hR : r.KeepsName (Does work)) :
    Follows t (fun _ => Standing.onLive work) r entries r' := by
  refine ⟨hround.persists hR, quiet_of_isSome hround.live.isSome, fun p hserves s hs => ?_⟩
  obtain ⟨h, isStreaming, isVoluntary, h', rfl, -, -, -, ⟨es, a, hruns, hdid⟩, hs'⟩
      | ⟨-, hnone, hidle, hs'⟩ :=
    hround.shows hsorted hR ((hround.persists hR).serves hserves) hs
  · exact ⟨es, _, onLive_runs hruns isStreaming isVoluntary, hdid.symm, hs'⟩
  · exact ⟨[], s, onLive_idle work hnone, hidle.symm, hs'⟩

/-- Where only the handler of a peer does a piece of work, for each table its own one does,
if it is that. -/
theorem Round.follows_only {α : Type} {work : Work Handler α} {q : PeerId}
    (hround : Round (Only (·.peer = q) (Does work)) r entries r') (hsorted : r.Sorted next)
    (hR : r.KeepsName (Does work)) :
    Follows t (fun p => if q = p then Standing.onLive work else pure ()) r entries r' := by
  have hpersists := hround.persists (hR.only _)
  refine ⟨hpersists, quiet_of_isSome hround.live.isSome, fun p hserves s hs => ?_⟩
  have hserves := hpersists.serves hserves
  by_cases hq : q = p
  · subst hq
    rw [if_pos rfl]
    obtain ⟨h, isStreaming, isVoluntary, h', rfl, -, -, rfl, hdid, hs'⟩ | ⟨-, hnone, hidle, hs'⟩ :=
      hround.shows hsorted (hR.only _) hserves hs
    · obtain ⟨-, es, a, hruns, hdid⟩ :=
        hdid.cases.resolve_right fun hother => hother.1 (decide_eq_true rfl)
      exact ⟨es, _, onLive_runs hruns isStreaming isVoluntary, hdid.symm, hs'⟩
    · exact ⟨[], s, onLive_idle work hnone, hidle.symm, hs'⟩
  · rw [if_neg hq]
    obtain ⟨hidle, hs'⟩ := hround.shows_other hsorted hR hserves hs fun h hh hname hpeer =>
      hq ((of_decide_eq_true hpeer).symm.trans ((hserves h hh).1 hname))
    exact ⟨[], s, .done _, hidle.symm, hs'⟩

/-! ### Moving and reaping -/

/-- Where handlers are moved that have been through the handoff, for each table its own one is. -/
theorem promote_follows (r : Registry) :
    Follows t (fun _ => modify Standing.promoted) r [] r.promote.2 := by
  refine ⟨.of_subset fun h hh => r.live_promote.mem_iff.1 hh, List.forall_mem_nil _,
    fun p _ s hs => ?_⟩
  have hlive : ∀ h ∈ r.promote.2.live, h ∈ r.live := fun h hh => r.live_promote.mem_iff.2 hh
  refine ⟨[], s.promoted, .done _, rfl, ?_⟩
  cases hs with
  | absent hnone hdistressed => exact .absent (fun h hh => hnone h (hlive h hh)) hdistressed
  | parked hnone hh hname => exact .parked (fun h hh => hnone h (hlive h hh)) hh hname
  | @live h isStreaming isVoluntary hh hname hasked =>
    refine .live ?_ hname hasked
    simp only [promote, List.partition_eq_filter_filter]
    cases isStreaming with
    | true => exact List.mem_append_left _ hh
    | false =>
      by_cases hphase : h.phase = .streaming
      · simpa [hphase, part] using .inr hh
      · simpa [hphase, part] using hh

/-- Where handlers come to their end, a table stands as before that none of them serves. -/
theorem Reaps.shows (hreaps : Reaps r entries r') (hserves : r.Serves t p)
    (hnone : ∀ h ∈ r.drained, h.tableName ≠ t) (hs : r.Shows t s) :
    history p entries = [] ∧ r'.Shows t s := by
  have hother : ∀ h ∈ r.drained, h.peer ≠ p := by
    intro h hh hpeer
    exact hnone h hh ((hserves h (List.mem_filter.1 hh).1).2 hpeer)
  refine ⟨hreaps.each.history_other hother, hs.kept ?_ ?_ ?_⟩
  · intro isStreaming h hname
    have hstays : h ∈ r.live → h.isDrained = false := by
      intro hh
      rw [← Bool.not_eq_true]
      exact fun hdrained => hnone h (List.mem_filter.2 ⟨hh, hdrained⟩) hname
    cases isStreaming with
    | false =>
      simp only [part, Bool.false_eq_true, if_false, hreaps.initializing, undrained,
        List.mem_filter, Bool.not_eq_true', and_iff_left_iff_imp]
      exact fun hh => hstays (List.mem_append_left _ hh)
    | true =>
      simp only [part, if_true, hreaps.streaming, undrained, List.mem_filter, Bool.not_eq_true',
        and_iff_left_iff_imp]
      exact fun hh => hstays (List.mem_append_right _ hh)
  · intro h hname
    rw [hreaps.distressed, List.mem_append]
    refine or_iff_left fun hh => ?_
    obtain ⟨x, hx, rfl⟩ := List.mem_map.1 hh
    exact absurd hname (hnone x (List.mem_filter.1 hx).1)
  · intro h hh hname
    rw [hreaps.voluntary, Bool.eq_iff_iff]
    simp only [List.contains_eq_mem, decide_eq_true_eq, List.mem_filter, List.all_eq_true]
    refine and_iff_left fun x hx hsame => hother x hx ?_
    rw [hsame]
    exact (hserves h hh).1 hname

/-- The standing of a table whose handler has come to its end. -/
def endOf (h : Handler) (last : Phase) : Standing :=
  if last = .distressed then .parked { h with phase := last } else .absent

theorem reap_always {h : Handler} (hdrained : h.isDrained) (isStreaming isVoluntary : Bool) :
    Work.Always Standing.reap (.live h isStreaming isVoluntary) fun did _ s' =>
      ∃ last, last = (if isVoluntary then .stopped else .distressed) ∧ did = endings h last ∧
        s' = endOf h last := by
  simp only [Standing.reap, report, Work.always_bind, Work.always_get, hdrained, if_true,
    Work.always_lift, List.nil_append]
  refine Dialogue.Always.mono (finish_always (phase_of_isDrained hdrained)) ?_
  rintro _ ⟨last, h'⟩ ⟨hlast, rfl, heq⟩
  dsimp only at hlast heq
  subst hlast heq
  cases isVoluntary <;> simp [endings, outcome, endOf]

/-- A handler that is drained is not there any more after handlers have come to their end. -/
theorem Reaps.not_live (hreaps : Reaps r entries r') (hsorted : r.Sorted next) {h : Handler}
    (hh : h ∈ r.drained) :
    ∀ x ∈ r'.live, x.tableName ≠ h.tableName := by
  intro x hx hname
  obtain ⟨hlive, hundrained, -⟩ := hreaps.stays hsorted.live_peers hx
  obtain ⟨hh, hdrained⟩ := List.mem_filter.1 hh
  obtain rfl := eq_of_nodup_map hsorted.live_names hh hlive hname
  rw [hundrained] at hdrained
  cases hdrained

theorem Reaps.shows_end (hreaps : Reaps r entries r') (hsorted : r.Sorted next) {h : Handler}
    (hh : h ∈ r.drained) :
    r'.Shows h.tableName (endOf h (r.verdict h)) := by
  have hlive := hreaps.not_live hsorted hh
  have hmem := (List.mem_filter.1 hh).1
  unfold endOf verdict
  by_cases hasked : r.voluntary.contains h.peer
  · rw [if_pos hasked, if_neg (by decide)]
    refine .absent hlive fun x hx hname => ?_
    rw [hreaps.distressed, List.mem_append] at hx
    obtain hx | hx := hx
    · have hnames := hsorted.names
      rw [handlers, List.map_append, List.nodup_append] at hnames
      exact hnames.2.2 _ (List.mem_map_of_mem hmem) _ (List.mem_map_of_mem hx) hname.symm
    · obtain ⟨y, hy, rfl⟩ := List.mem_map.1 hx
      obtain ⟨hy, hunasked⟩ := List.mem_filter.1 hy
      obtain rfl := eq_of_nodup_map hsorted.live_names hmem (List.mem_filter.1 hy).1 hname
      rw [Bool.not_eq_true'] at hunasked
      exact Bool.false_ne_true (hunasked.symm.trans hasked)
  · rw [if_neg hasked, if_pos rfl]
    refine .parked hlive ?_ rfl
    rw [hreaps.distressed]
    refine List.mem_append_right _ (List.mem_map.2 ⟨h, List.mem_filter.2 ⟨hh, ?_⟩, rfl⟩)
    rw [Bool.not_eq_true] at hasked
    exact Bool.not_eq_true' _ ▸ hasked

/-- Where handlers come to their end, for each table its own one does. -/
theorem Reaps.alone (hreaps : Reaps r entries r') (hsorted : r.Sorted next) (hserves : r.Serves t p)
    (hs : r.Shows t s) :
    ∃ es s', (Standing.reap.run s).Runs es ((), s') ∧ happenings es = history p entries ∧
      r'.Shows t s' := by
  have hother : (∀ h ∈ r.live, h.tableName ≠ t) → history p entries = [] ∧ r'.Shows t s :=
      fun hnone =>
    hreaps.shows hserves (fun h hh => hnone h (List.mem_filter.1 hh).1) hs
  cases hs with
  | absent hnone | parked hnone =>
    obtain ⟨hidle, hs'⟩ := hother hnone
    exact ⟨[], _, .done _, hidle.symm, hs'⟩
  | @live h isStreaming isVoluntary hh hname hasked =>
    subst hname
    have hlive := mem_live_of_part hh
    by_cases hdrained : h.isDrained
    · have hmem : h ∈ r.drained := List.mem_filter.2 ⟨hlive, hdrained⟩
      obtain ⟨es, ⟨_, s'⟩, hruns⟩ :=
        Dialogue.exists_runs (Standing.reap.run (.live h isStreaming isVoluntary))
      obtain ⟨_, rfl, hdid, hs'⟩ := reap_always hdrained isStreaming isVoluntary _ _ hruns
      have hverdict : r.verdict h = if isVoluntary then .stopped else .distressed := by
        rw [hasked]; rfl
      obtain ⟨_, -, hends, rfl⟩ :=
        hreaps.each.before (hsorted.live_peers.sublist (List.filter_sublist.map _)) hmem
      rw [(hserves h hlive).1 rfl, hverdict] at hends
      dsimp only at hs'
      rw [← hverdict] at hs'
      exact ⟨es, s', hruns, hdid.trans hends.symm, hs' ▸ hreaps.shows_end hsorted hmem⟩
    · have hnone : ∀ x ∈ r.drained, x.tableName ≠ h.tableName := by
        intro x hx hname
        obtain ⟨hx, hxdrained⟩ := List.mem_filter.1 hx
        obtain rfl := eq_of_nodup_map hsorted.live_names hlive hx hname
        exact hdrained hxdrained
      obtain ⟨hidle, hs'⟩ := hreaps.shows hserves hnone (.live hh rfl hasked)
      have hruns : (Standing.reap.run (.live h isStreaming isVoluntary)).Runs []
          ((), .live h isStreaming isVoluntary) := by
        refine Work.runs_bind.2 ⟨[], _, _, [], rfl, .done _, ?_⟩
        dsimp only
        rw [if_neg hdrained]
        exact .done _
      exact ⟨[], _, hruns, hidle.symm, hs'⟩

end Registry

end ReplicaHandshake
