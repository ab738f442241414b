import ReplicaHandshake.Proofs.Controller.Projection

/-!
# Tables do not disturb each other

Whatever a controller does in a tick, it does for each table what it would do if there were no
other: instructions are carried out (`Carries.follows`), disconnections are heard
(`hearAll_follows`), and handlers are polled and moved and come to their end.  `Ticks.follows` says
this of the whole tick, taken apart at the place where it fetches the disconnections.
-/

namespace ReplicaHandshake.Controller

open Handler Registry Ledger

variable {c c' : Controller} {now : Instant} {i : Instruction} {entries past : List Entry}
  {t : String} {asked : List PeerId}

/-- The handler that would be started for a table under a peer. -/
def fresh (c : Controller) (now : Instant) (p : PeerId) (table : TableSettings) : Handler :=
  Handler.new c.instanceId p table c.settings.frameBuffer c.handshakeTimeout now

/-! ### Instructions -/

theorem stopOnRequest_keepsName (hord : c.registry.InOrder c.nextPeer) :
    c.registry.KeepsName (Does stopOnRequest) := by
  intro h hh did h' hdoes
  have hstops := (stopOnRequest_stops (hord.atRest.live h hh).live).mono fun _ _ _ hdid => hdid.1
  exact stops_behaves.name (hdoes.of_always hstops)

theorem CarriesOut.fresh_eq (h : CarriesOut now c i entries c') : c'.fresh now = c.fresh now := by
  cases h <;> rfl

/-- A table to which a handler is added has it then, and others stand as before. -/
theorem follows_adds {table : TableSettings} {did : List Happening} {h : Handler} (m : Metric)
    (hord : c.registry.InOrder c.nextPeer) (hvalid : table.validate = .ok ())
    (hinactive : c.registry.isActive table.tableName = false)
    (hdoes : Does Handler.start (c.fresh now c.nextPeer table) did h) :
    Follows t (fun p => if table.tableName = t then Standing.carryOut (c.fresh now p) (.add table)
      else pure ())
      c.registry (marked c.nextPeer did ++ [⟨none, .reported m⟩])
      ((c.registry.clearDistressed table.tableName).2.insert h) := by
  have hbegins : Begins (c.fresh now c.nextPeer table) did h := hdoes.of_always new_begins
  obtain ⟨hpeer, hname, -⟩ := hbegins.spec
  have hidle : ∀ x ∈ c.registry.live, x.tableName ≠ table.tableName :=
    InOrder.not_live (b := c.ledger [] []) hord hinactive
  have hmem : h ∈ ((c.registry.clearDistressed table.tableName).2.insert h).live :=
    mem_live_insert.2 (.inr rfl)
  have hunasked : c.registry.voluntary.contains h.peer = false := by
    rw [List.contains_eq_mem, decide_eq_false_iff_not]
    intro hasked
    obtain ⟨x, hx, hsame, -⟩ := hord.heeds _ hasked
    have hissued := hord.live_issued hx
    rw [hsame, hpeer] at hissued
    exact Nat.lt_irrefl _ hissued
  have hquiet : Quiet (marked c.nextPeer did ++ [⟨none, .reported m⟩]) :=
    List.forall_mem_append.2 ⟨quiet_of_isSome (marked_isSome _ did), quiet_reported m⟩
  refine ⟨.of_subset fun x hx => mem_live_insert.2 (.inl hx), hquiet, fun p hserves s hs => ?_⟩
  have hserves := hserves h hmem
  by_cases ht : table.tableName = t
  · obtain rfl : c.nextPeer = p := hpeer.symm.trans (hserves.1 (hname.trans ht))
    obtain ⟨es, a, hruns, rfl⟩ := hdoes
    have hnone : s.peer? = none := by
      cases hs with
      | absent | parked => rfl
      | live hx hsame => exact absurd (hsame.trans ht.symm) (hidle _ (mem_live_of_part hx))
    refine ⟨es, .live h false false, ?_, ?_, ?_⟩
    · rw [if_pos ht, Standing.carryOut, hvalid]
      refine Work.runs_bind.2 ⟨[], _, _, es, rfl, .done _, ?_⟩
      cases s with
      | absent | parked => exact runs_lift hruns (.live · false false) _
      | live => cases hnone
    · rw [history_append, history_marked_self]
      exact (List.append_nil _).symm
    · have hpart : h ∈ ((c.registry.clearDistressed table.tableName).2.insert h).part false :=
        List.mem_append_right _ (List.mem_singleton.2 rfl)
      exact .live hpart (hname.trans ht) hunasked.symm
  · rw [if_neg ht]
    have hother : c.nextPeer ≠ p :=
      fun hsame => ht (hname.symm.trans (hserves.2 (hpeer.trans hsame)))
    refine ⟨[], s, .done _, ?_, hs.kept ?_ ?_ fun _ _ _ => rfl⟩
    · rw [history_append, history_marked_of_ne hother]
      rfl
    · intro isStreaming x hx
      cases isStreaming with
      | true => rfl
      | false =>
        refine List.mem_append.trans (or_iff_left fun hnew => ht ?_)
        rw [← hname, ← List.mem_singleton.1 hnew, hx]
    · intro x hx
      refine List.mem_filter.trans (and_iff_left (decide_eq_true ?_))
      rw [hx]
      exact Ne.symm ht

theorem shows_marked {r : Registry} {h : Handler} {isStreaming isVoluntary : Bool}
    (hs : r.Shows t (.live h isStreaming isVoluntary)) :
    (r.markVoluntary h.peer).Shows t (.live h isStreaming true) := by
  cases hs with
  | live hh hname => exact .live hh hname (by simp [markVoluntary])

theorem shows_unmarked {r : Registry} {s : Standing} {q : PeerId} (hs : r.Shows t s)
    (hother : ∀ h ∈ r.live, h.tableName = t → h.peer ≠ q) : (r.markVoluntary q).Shows t s := by
  refine hs.kept (fun _ _ _ => .rfl) (fun _ _ => .rfl) fun h hh hname => ?_
  rw [Bool.eq_iff_iff]
  simp [markVoluntary, hother h hh hname]

theorem follows_stops {h : Handler} {r : Registry} (m : Metric)
    (hord : c.registry.InOrder c.nextPeer) (hh : h ∈ c.registry.live)
    (hround : Round (Only (·.tableName = h.tableName) (Does stopOnRequest)) c.registry entries r)
    (fresh : PeerId → TableSettings → Handler) :
    Follows t (fun p => if h.tableName = t then Standing.carryOut (fresh p) (.remove h.tableName)
      else pure ())
      c.registry (entries ++ [⟨none, .reported m⟩]) (r.markVoluntary h.peer) := by
  have hkeeps := stopOnRequest_keepsName hord
  have hname := hkeeps.only (·.tableName = h.tableName)
  have hpersists : c.registry.Persists (r.markVoluntary h.peer) := hround.persists hname
  refine ⟨hpersists,
    List.forall_mem_append.2 ⟨quiet_of_isSome hround.live.isSome, quiet_reported m⟩,
    fun p hserves' s hs => ?_⟩
  have hserves := hpersists.serves hserves'
  rw [history_append, show history p [⟨none, .reported m⟩] = [] from rfl, List.append_nil]
  by_cases ht : h.tableName = t
  · rw [if_pos ht]
    obtain ⟨x, isStreaming, isVoluntary, x', rfl, hx, hxname, rfl, hdid, hs'⟩ | ⟨hnone, -⟩ :=
      hround.shows hord.toSorted hname hserves hs
    · obtain rfl := eq_of_nodup_map hord.live_names hh hx (hxname.trans ht.symm)
      obtain ⟨-, hdoes⟩ := hdid.cases.resolve_right fun hother => hother.1 (decide_eq_true rfl)
      have hpeer := (hkeeps x hh _ x' hdoes).1
      obtain ⟨es, a, hruns, hdid⟩ := hdoes
      refine ⟨es, .live x' isStreaming true, ?_, hdid.symm, hpeer ▸ shows_marked hs'⟩
      exact Work.runs_bind.2
        ⟨[], _, _, es, rfl, .done _, runs_lift hruns (.live · isStreaming true) _⟩
    · exact absurd ht (hnone h hh)
  · rw [if_neg ht]
    obtain ⟨hidle, hs'⟩ := hround.shows_other hord.toSorted hkeeps hserves hs fun x _ hx hsame =>
      ht ((of_decide_eq_true hsame).symm.trans hx)
    refine ⟨[], s, .done _, hidle.symm, shows_unmarked hs' fun x hx hxname hpeer =>
      ht ((hserves h hh).2 ?_)⟩
    exact hpeer.symm.trans ((hserves' x hx).1 hxname)

theorem follows_forgets {r : Registry} {tableName : String} (m : Metric)
    (hnone : ∀ h ∈ r.live, h.tableName ≠ tableName) (fresh : PeerId → TableSettings → Handler) :
    Follows t (fun p => if tableName = t then
      Standing.carryOut (fresh p) (.remove tableName) else pure ())
      r [⟨none, .reported m⟩] (r.clearDistressed tableName).2 := by
  refine ⟨.of_subset fun _ hh => hh, quiet_reported m, fun p _ s hs => ?_⟩
  by_cases ht : tableName = t
  · subst ht
    rw [if_pos rfl]
    refine ⟨[], .absent, ?_, rfl, .absent hnone fun h hh =>
      of_decide_eq_true (List.mem_filter.1 hh).2⟩
    cases hs with
    | absent | parked => exact .done _
    | live hh hname => exact absurd hname (hnone _ (mem_live_of_part hh))
  · rw [if_neg ht]
    refine ⟨[], s, .done _, rfl, hs.kept (fun _ _ _ => .rfl) (fun h hname => ?_) fun _ _ _ => rfl⟩
    refine List.mem_filter.trans (and_iff_left (decide_eq_true ?_))
    rw [hname]
    exact Ne.symm ht

/-- An instruction is carried out for its table as if there were no other. -/
theorem CarriesOut.follows (hcarries : CarriesOut now c i entries c')
    (hord : c.registry.InOrder c.nextPeer) :
    Follows t (fun p => if i.tableName = t then Standing.carryOut (c.fresh now p) i else pure ())
      c.registry entries c'.registry := by
  cases hcarries with
  | @invalid table f hinvalid =>
    have hwork : ∀ p, Standing.carryOut (c.fresh now p) (.add table) = pure () := by
      intro p
      rw [Standing.carryOut, hinvalid]
    simp only [hwork, ite_self]
    exact follows_reported _
  | @active table hvalid hactive =>
    refine ⟨.of_subset fun _ hh => hh, quiet_reported _, fun p _ s hs => ?_⟩
    refine ⟨[], s, ?_, rfl, hs⟩
    split
    next ht =>
      obtain rfl : table.tableName = t := ht
      rw [Standing.carryOut, hvalid]
      rw [isActive, List.contains_eq_mem, decide_eq_true_eq, hord.active.mem_iff] at hactive
      obtain ⟨x, hx, hname⟩ := List.mem_map.1 hactive
      cases hs with
      | absent hnone | parked hnone => exact absurd hname (hnone x hx)
      | live => exact .done _
    next => exact .done _
  | adds hvalid hinactive hdoes => exact follows_adds _ hord hvalid hinactive hdoes
  | stops hh hround => exact follows_stops _ hord hh hround _
  | forgets hnone => exact follows_forgets _ hnone _

/-- Instructions are carried out for each table as if there were no other. -/
theorem Carries.follows {is : List Instruction} {more : List PeerId}
    (hcarries : Carries now c is entries more c') (hord : c.registry.InOrder c.nextPeer) :
    Follows t (fun p => Standing.carryOutAll (c.fresh now p) (is.filter (·.tableName = t)))
      c.registry entries c'.registry := by
  induction hcarries with
  | done c =>
    exact .idle (.of_subset fun _ hh => hh) (List.forall_mem_nil _) (fun _ _ => rfl) fun _ hs => hs
  | @next c c₁ c' i rest first second _ hruns hrest ih =>
    have hcarried := carryOut_carriesOut hord now i _ _ hruns
    have hway : Way Step (c.ledger [] []) first (c₁.ledger ([] ++ c.asks i) []) :=
      carryOut_way hord now i _ _ hruns
    have hord₁ : c₁.registry.InOrder c₁.nextPeer := inOrder_of_works hway hord
    have hfollows := (hcarried.follows (t := t) hord).seq (ih hord₁)
    rw [hcarried.fresh_eq] at hfollows
    have hwork : ∀ p, Standing.carryOutAll (c.fresh now p) ((i :: rest).filter (·.tableName = t)) =
        (if i.tableName = t then Standing.carryOut (c.fresh now p) i else pure ()) >>= fun _ =>
          Standing.carryOutAll (c.fresh now p) (rest.filter (·.tableName = t)) := by
      intro p
      by_cases ht : i.tableName = t <;> simp [ht, Standing.carryOutAll]
    rw [funext hwork]
    exact hfollows

/-! ### Disconnections and polls -/

theorem hear_follows {d : Disconnection} (hord : c.registry.InOrder c.nextPeer) :
    Work.Records (hear d) c fun entries _ c' =>
      Follows t (fun p => if d.peer = p then Standing.onLive (onDisconnect d.socket) else pure ())
        c.registry entries c'.registry := by
  have hkeeps : c.registry.KeepsName (Does (onDisconnect d.socket)) := fun h hh did h' hdoes =>
    (hears_behaves d.socket).name
      (hdoes.of_always (onDisconnect_hears (hord.atRest.live h hh).live))
  have hwork : ∀ h ∈ c.registry.live, Work.Always (onDisconnect d.socket) h fun did _ h' =>
      Does (onDisconnect d.socket) h did h' ∧ True := fun h _ =>
    (always_does _ h).mono fun _ _ _ hdoes => ⟨hdoes, trivial⟩
  simp only [hear, Work.records_bind, onRegistry_records, Work.records_pure, List.append_nil]
  refine (updateLive?_round hwork (pairwise_of_nodup hord.live_peers d.peer)).mono ?_
  rintro entries _ r ⟨hround, -⟩
  exact hround.follows_only hord.toSorted hkeeps

/-- Disconnections are heard for each table as if there were no other. -/
theorem hearAll_follows {ds : List Disconnection} (hord : (c.ledger asked ds).InOrder) :
    Work.Records (hearAll ds) c fun entries _ c' =>
      Follows t (fun p => Standing.hearAll ((ds.filter (·.peer = p)).map (·.socket)))
        c.registry entries c'.registry := by
  induction ds generalizing c with
  | nil =>
    exact Work.records_pure.2
      (.idle (.of_subset fun _ hh => hh) (List.forall_mem_nil _) (fun _ _ => rfl) fun _ hs => hs)
  | cons d rest ih =>
    simp only [hearAll, Work.records_bind]
    refine ((hear_way hord).and (hear_follows (t := t) hord)).mono ?_
    rintro first _ c₁ ⟨hway, hfirst⟩
    refine (ih (inOrder_of_works hway hord)).mono fun second _ _ hsecond => ?_
    have hwork : ∀ p, Standing.hearAll (((d :: rest).filter (·.peer = p)).map (·.socket)) =
        (if d.peer = p then Standing.onLive (onDisconnect d.socket) else pure ()) >>= fun _ =>
          Standing.hearAll ((rest.filter (·.peer = p)).map (·.socket)) := by
      intro p
      by_cases hpeer : d.peer = p <;> simp [hpeer, Standing.hearAll]
    rw [funext hwork]
    exact hfirst.seq hsecond

theorem pollHandlers_follows (hord : c.registry.InOrder c.nextPeer) :
    Work.Records (pollHandlers now) c fun entries _ c' =>
      Follows t (fun _ => Standing.onLive (Handler.poll now)) c.registry entries c'.registry := by
  have hkeeps : c.registry.KeepsName (Does (Handler.poll now)) := fun h hh did h' hdoes =>
    moves_behaves.name (hdoes.of_always (poll_always (hord.atRest.live h hh).sound))
  simp only [pollHandlers, Work.records_bind, onRegistry_records, Work.records_pure,
    List.append_nil]
  refine (updateLive_round fun h _ => always_does (Handler.poll now) h).mono ?_
  exact fun _ _ _ hround => hround.follows hord.toSorted hkeeps

theorem promoteHandlers_follows :
    Work.Records promoteHandlers c fun entries _ c' => entries = [] ∧
      Follows t (fun _ => modify Standing.promoted) c.registry entries c'.registry := by
  simp only [promoteHandlers, Work.records_bind, Work.records_get, Work.records_modify,
    Work.records_pure, List.append_nil]
  exact ⟨trivial, promote_follows c.registry⟩

/-! ### Ticks -/

/-- Until it fetches the disconnections, and from there until handlers are reaped, a tick does for
each table what it would do if there were no other; then handlers come to their end. -/
inductive TickFollows (t : String) (now : Instant) (c : Controller) :
    List Entry → Controller → Prop where
  | intro {ds : List Disconnection} {carried worked reaped counted : List Entry} {r₁ : Registry}
      {c₂ c' : Controller} {more : List PeerId} :
      Follows t
        (fun p => Standing.carryOutAll (c.fresh now p) (c.queue.pending.filter (·.tableName = t)))
        c.registry carried r₁ →
      Follows t (fun p => do
        Standing.hearAll ((ds.filter (·.peer = p)).map (·.socket))
        Standing.onLive (Handler.poll now)
        modify Standing.promoted) r₁ worked c₂.registry →
      Way Step (c.ledger [] []) (carried ++ ⟨none, .answered .fetchDisconnections ds⟩ :: worked)
        (c₂.ledger more []) →
      Reaps c₂.registry reaped c'.registry → (∀ e ∈ counted, ∃ m, e = ⟨none, .reported m⟩) →
      TickFollows t now c
        (carried ++ ⟨none, .answered .fetchDisconnections ds⟩ :: (worked ++ (reaped ++ counted))) c'

theorem Ticks.follows {more : List PeerId} {busy : Bool} (hticks : Ticks c now entries more busy c')
    (hord : c.registry.InOrder c.nextPeer) : TickFollows t now c entries c' := by
  cases hticks with
  | @intro c₁ c₂ c₃ c₄ c₅ _ carried heard polled promoted reaped counted _ _ _ _ _ hcarries
      hheard hpolled
      hpromoted hreaped hcounted =>
    have hcarried : Way Step (c.ledger [] []) carried (c₁.ledger ([] ++ more) []) :=
      hcarries.way (c := { c with queue := c.queue.cleared }) hord
    have hord₁ := inOrder_of_works hcarried hord
    obtain ⟨ds, told, rfl, htold⟩ := drainDisconnections_hears _ _ hheard
    have hfetches : Step (c₁.ledger ([] ++ more) []) [⟨none, .answered .fetchDisconnections ds⟩]
      (c₁.ledger ([] ++ more) ds) := .fetches ds rfl
    have hord₁' := hfetches.inOrder hord₁
    have hheard := hearAll_way hord₁' _ _ htold
    have hord₂ := inOrder_of_works hheard hord₁'
    have hpolls := pollHandlers_way hord₂ now _ _ hpolled
    have hord₃ := inOrder_of_works hpolls hord₂
    have hmoves := (promoteHandlers_way ([] ++ more) [] _ _ hpromoted).1
    have hord₄ := inOrder_of_works hmoves hord₃
    obtain ⟨r, hreaps, rfl⟩ := reap_reaps_registry hord₄ _ _ hreaped
    obtain ⟨rfl, hcounts⟩ := reportCounts_reports _ _ hcounted
    have hworks := (hearAll_follows hord₁' _ _ htold).seq
      ((pollHandlers_follows hord₂ _ _ hpolled).seq
        (promoteHandlers_follows (t := t) _ _ hpromoted).2)
    have hfollows : TickFollows t now c
        (carried ++ ⟨none, .answered .fetchDisconnections ds⟩ ::
          ((told ++ (polled ++ promoted)) ++ (reaped ++ counted)))
        { c₄ with registry := r } :=
      .intro (hcarries.follows (c := { c with queue := c.queue.cleared }) hord) hworks
        (hcarried.trans (.head hfetches (hheard.trans (hpolls.trans hmoves)))) hreaps hcounts
    simpa using hfollows

end ReplicaHandshake.Controller
