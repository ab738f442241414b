import ReplicaHandshake.Proofs.Controller.Routine
import ReplicaHandshake.Proofs.Handler.Stopping

/-!
# Stopping handlers

A controller asks the multiplexer to let go of a peer only where it polls its handlers, and there
once for each handler that is stopping and whose writer the multiplexer has (`Ticks.urgings`).  The
connections that a stopping handler has left are those whose sockets the multiplexer holds; on its
behalf nothing is done but to ask, so that they only become fewer, by the disconnections that are
fetched (`Ledger.keepsStopping`).  `Controller.OpenRun.urges_in_time` says all of this of every run
of an open controller.
-/

namespace ReplicaHandshake

open Handler Registry

variable {peer : PeerId} {past entries : List Entry}

/-! ### Routine -/

/-- Only where handlers are polled the multiplexer is asked to let go. -/
theorem isWork_routine : Routine Happening.IsWork where
  begins := Begins.works
  stops := Stops.works
  hears := Hears.works
  ends _ _ _ := List.forall_mem_cons.2 ⟨⟨rfl, rfl⟩, List.forall_mem_singleton.2 ⟨rfl, rfl⟩⟩
  instructed _ _ := ⟨rfl, rfl⟩
  counted _ _ _ := ⟨rfl, rfl⟩
  waiting _ := ⟨rfl, rfl⟩

theorem urgings_history (hworks : ∀ e ∈ entries, e.happening.IsWork) :
    urgings (history peer entries) = [] := by
  refine Works.urgings fun x hx => ?_
  obtain ⟨e, he, -, rfl⟩ := mem_of_history hx
  exact hworks e he

/-! ### In the house -/

namespace House

variable {s s' : House}

/-- On behalf of a peer whose handler has turned to stopping nothing is done any more
but to linger. -/
theorem Step.lingers (hstep : Step s entries s') (hc : Chronicle past s)
    (hturned : Phase.stopping.name ∈ phases (history peer past)) :
    ∀ x ∈ history peer entries, x.Lingers peer := by
  cases hstep with
  | @turns _ before after h h' hs hway =>
    by_cases hpeer : h.peer = peer
    · subst hpeer
      obtain ⟨table, hlife⟩ := hc.lives h (by simp)
      rw [history_marked_self]
      exact (lingers_of_way hway hlife.sound (hlife.stopping_iff.1 hturned)).2.1
    · rw [history_marked_of_ne hpeer]
      exact List.forall_mem_nil _
  | begins =>
    rw [history_marked_of_ne]
    · exact List.forall_mem_nil _
    · rintro rfl
      rw [hc.unborn s.nextPeer (Nat.le_refl _)] at hturned
      cases hturned
  | forgets | silent => exact List.forall_mem_nil _

theorem lingers_along (hway : Way Step s entries s') (hc : Chronicle past s)
    (hturned : Phase.stopping.name ∈ phases (history peer past)) :
    ∀ x ∈ history peer entries, x.Lingers peer := by
  induction hway with
  | refl => exact List.forall_mem_nil _
  | tail hway hstep ih =>
    rw [history_append]
    refine List.forall_mem_append.2 ⟨ih, hstep.lingers (chronicle_of_way hway hc) ?_⟩
    rw [history_append, phases_append]
    exact List.mem_append_left _ hturned

end House

theorem Handler.Life.unfetched {table : TableSettings} {past : List Happening} {h : Handler}
    (hlife : Life table past h) : ∀ x ∈ past, x.fetched = [] := by
  induction hlife with
  | begins _ hbegins => exact hbegins.works.unfetched
  | turns _ hturn ih => exact List.forall_mem_append.2 ⟨ih, hturn.unfetched⟩

theorem House.Chronicle.unfetched {s : House} (hc : Chronicle past s) {e : Entry} (he : e ∈ past)
    (hsome : e.peer ≠ none) : e.happening.fetched = [] := by
  obtain ⟨owner, howner⟩ := Option.ne_none_iff_exists'.1 hsome
  have hmem := mem_history he howner
  obtain ⟨table, h, -, hlife⟩ := hc.every owner (List.ne_nil_of_mem hmem)
  exact hlife.unfetched _ hmem

/-- Where nothing is taken for a peer, the sockets that are held become fewer by what is fetched. -/
theorem foldl_holding_of_untaken
    (hfetched : ∀ e ∈ entries, e.peer ≠ none → e.happening.fetched = [])
    (htaken : ∀ x ∈ history peer entries, x.taken? = none) (held : List SocketId) :
    entries.foldl (holding peer) held = forget peer held (disconnections (happenings entries)) := by
  induction entries generalizing held with
  | nil => rfl
  | cons e rest ih =>
    obtain ⟨he, hrest⟩ := List.forall_mem_cons.1 hfetched
    have hsplit : disconnections (happenings (e :: rest)) =
        e.happening.fetched ++ disconnections (happenings rest) := rfl
    have hone : holding peer held e = forget peer held e.happening.fetched := by
      unfold holding
      split
      next owner howner =>
        rw [he (by rw [howner]; exact Option.some_ne_none _)]
        split
        next hsame =>
          rw [htaken _ (mem_history List.mem_cons_self (hsame ▸ howner))]
          exact List.append_nil _
        next => rfl
      next => rfl
    have hmore : ∀ x ∈ history peer rest, x.taken? = none := by
      intro x hx
      obtain ⟨e', he', howner, rfl⟩ := mem_of_history hx
      exact htaken _ (mem_history (List.mem_cons_of_mem _ he') howner)
    rw [List.foldl_cons, ih hrest hmore, hone, hsplit, forget, forget, forget, List.foldl_append]

/-! ### In the registry -/

/-- The connections that stopping handlers have left are those whose sockets the
multiplexer holds. -/
def LeftHeld (past : List Entry) (r : Registry) : Prop :=
  ∀ h ∈ r.live, h.phase = .stopping →
    (h.connections.map (·.socketId)).Perm ((heldSockets h.peer past).map some)

/-- Stopping handlers go on stopping: nothing is done on their behalf but to linger, the sockets
that the multiplexer holds of them become fewer by the disconnections that are fetched, and they get
no new connections.  What is left to stopping handlers, of these or of others, is what the
multiplexer holds. -/
structure KeepsStopping (past : List Entry) (r : Registry) (entries : List Entry) (r' : Registry) :
    Prop where
  left : LeftHeld (past ++ entries) r'
  lingers : ∀ h ∈ r.live, h.phase = .stopping → ∀ x ∈ history h.peer entries, x.Lingers h.peer
  held : ∀ h ∈ r.live, h.phase = .stopping → heldSockets h.peer (past ++ entries) =
    forget h.peer (heldSockets h.peer past) (disconnections (happenings entries))
  keeps : ∀ h ∈ r.live, h.phase = .stopping → ∀ h' ∈ r'.live, h'.peer = h.peer →
    h'.phase = .stopping ∧ h'.connections.Sublist h.connections

theorem Registry.Reaps.urgings {r r' : Registry} (hreaps : Reaps r entries r') :
    urgings (history peer entries) = [] :=
  urgings_history (hreaps.routine isWork_routine)

namespace Ledger

variable {b b' : Ledger}

theorem leftHeld (hkept : Kept past b) (hknows : Knows past b) (hwaiting : b.waiting = []) :
    LeftHeld past b.registry := by
  intro h hh hphase
  obtain ⟨table, hlife⟩ := hkept.life hh
  have hheld := hknows h hh
  rw [hwaiting] at hheld
  rw [hlife.sound.handed_of_over (not_atWork_stopping hphase)]
  exact hheld.map some

theorem keepsStopping (hkept : Kept past b) (hknows : Knows past b)
    (hway : Way AnyStep b entries b') (hwaiting : b'.waiting = []) :
    KeepsStopping past b.registry entries b'.registry := by
  obtain ⟨hkept', hknows'⟩ := hkept.along (fun _ _ _ hstep => hstep) hway
    (fun _ _ _ _ hkept hknows hstep => hstep.knows hkept hknows) hknows
  obtain ⟨hhouse, hrest⟩ := comes_of_way hway hkept.inOrder.atRest
  have hchronicle := House.chronicle_of_way hhouse hkept.chronicle
  have hlingers : ∀ h ∈ b.registry.live, h.phase = .stopping → ∀ x ∈ history h.peer entries,
      x.Lingers h.peer := by
    intro h hh hphase
    obtain ⟨table, hlife⟩ := hkept.life hh
    exact House.lingers_along hhouse hkept.chronicle
      (hlife.stopping_iff.2 (not_atWork_stopping hphase))
  refine ⟨leftHeld hkept' hknows' hwaiting, hlingers, fun h hh hphase => ?_,
    fun h hh hphase h' hh' hsame => ?_⟩
  · rw [heldSockets_append]
    refine foldl_holding_of_untaken (fun e he => ?_)
      (fun x hx => (hlingers h hh hphase x hx).untaken.1) _
    exact hchronicle.unfetched (List.mem_append_right _ he)
  · obtain ⟨table, hlife⟩ := hkept.life hh
    have hturns := House.turns_of_way hhouse hkept.chronicle (List.mem_append_left _ hh)
      (List.mem_append_left _ hh') hsame
    obtain ⟨hover, -, hsub⟩ := lingers_of_way hturns hlife.sound (not_atWork_stopping hphase)
    refine ⟨Classical.byContradiction fun hphase' => hover ?_, hsub⟩
    exact atWork_of_live (hrest.live h' hh').live hphase'

end Ledger

namespace Controller

open Ledger

variable {settings : Settings} {c c₁ c₂ c' : Controller} {asked more : List PeerId} {now : Instant}

/-! ### Ticks -/

theorem drainDisconnections_urgings (hord : (c.ledger asked []).InOrder) :
    Work.Records drainDisconnections c fun entries _ _ => ∀ peer, urgings (history peer entries) =
      [] := by
  refine (drainDisconnections_routine hord isWork_routine).mono ?_
  rintro _ _ _ ⟨ds, told, rfl, htold⟩ peer
  have hnone : urgings (history peer told) = [] := urgings_history htold
  exact hnone

theorem pollHandlers_urgings (hrest : c.registry.AtRest)
    (hnodup : (c.registry.live.map (·.peer)).Nodup) :
    Work.Records (pollHandlers now) c fun entries _ _ => ∀ peer,
      ((∃ h ∈ c.registry.live, h.peer = peer ∧ h.Owes) → urgings (history peer entries) = [peer]) ∧
      ((¬∃ h ∈ c.registry.live, h.peer = peer ∧ h.Owes) → urgings (history peer entries) = []) := by
  simp only [pollHandlers, Work.records_bind, onRegistry_records, Work.records_pure,
    List.append_nil]
  refine (updateLive_round fun h hh => poll_urges (hrest.live h hh).sound).mono ?_
  intro entries _ r hround peer
  constructor
  · rintro ⟨h, hh, rfl, howes⟩
    obtain ⟨h', -, hurges, -⟩ := hround.live.after hnodup hh
    exact hurges howes
  · intro hnone
    by_cases hlive : c.registry.HasLive peer
    · obtain ⟨h, hh, rfl⟩ := hlive
      obtain ⟨h', -, -, hidle⟩ := hround.live.after hnodup hh
      exact hidle fun howes => hnone ⟨h, hh, rfl, howes⟩
    · rw [hround.absent hlive]
      rfl

theorem Ticks.stages {busy : Bool} (hticks : Ticks c now entries more busy c')
    (hord : (c.ledger asked []).InOrder) :
    ∃ c₁ c₂ c₃ carried heard polled ended instructed disconnected polling,
      entries = carried ++ (heard ++ (polled ++ ended)) ∧
      ((drainInstructions now).run c).Runs carried (instructed, c₁) ∧
      (drainDisconnections.run c₁).Runs heard (disconnected, c₂) ∧
      ((pollHandlers now).run c₂).Runs polled (polling, c₃) ∧
      (∀ e ∈ carried, e.happening.IsWork) ∧ (∀ peer, urgings (history peer ended) = []) ∧
      Way AnyStep (c.ledger asked []) carried (c₁.ledger (asked ++ more) []) ∧
      Way AnyStep (c₁.ledger (asked ++ more) []) heard (c₂.ledger (asked ++ more) []) ∧
      Way AnyStep (c₂.ledger (asked ++ more) []) polled (c₃.ledger (asked ++ more) []) ∧
      Way AnyStep (c₃.ledger (asked ++ more) []) ended (c'.ledger (asked ++ more) []) := by
  have works : ∀ {b b' : Ledger} {entries : List Entry}, Way Step b entries b' →
      Way AnyStep b entries b' :=
    fun hway => any_of_open (open_of_works hway)
  cases hticks with
  | @intro c₁ c₂ c₃ c₄ c₅ _ carried heard polled promoted reaped counted _ disconnected polling _ _
      hcarries hheard
      hpolled hpromoted hreaped hcounted =>
    have hcarried := works (hcarries.way (c := { c with queue := c.queue.cleared }) hord)
    have hord₁ := inOrder_of_way hcarried hord
    have hdrained := works (drainDisconnections_way hord₁ _ _ hheard)
    have hord₂ := inOrder_of_way hdrained hord₁
    have hpolls := works (pollHandlers_way hord₂ now _ _ hpolled)
    have hord₃ := inOrder_of_way hpolls hord₂
    have hmoves := works (promoteHandlers_way (asked ++ more) [] _ _ hpromoted).1
    have hord₄ := inOrder_of_way hmoves hord₃
    obtain ⟨r, hreaps, rfl⟩ := reap_reaps_registry hord₄ _ _ hreaped
    obtain ⟨rfl, hcounts⟩ := reportCounts_way (asked ++ more) [] _ _ hcounted
    have hreaping : AnyStep (c₄.ledger (asked ++ more) []) reaped
        (Controller.ledger { c₄ with registry := r } (asked ++ more) []) := .goesOn (.reaps hreaps)
    refine ⟨c₁, c₂, c₃, carried, heard, polled, promoted ++ (reaped ++ counted), _, disconnected,
      polling, rfl, drainInstructions_iff.2 ⟨rfl, carries_iff.2 ⟨more, hcarries⟩⟩, hheard, hpolled,
      hcarries.routine (c := { c with queue := c.queue.cleared }) hord isWork_routine, fun peer =>
        ?_, hcarried, hdrained, hpolls,
      hmoves.trans (.head hreaping (works hcounts))⟩
    have hcounted := reportCounts_routine isWork_routine _ _ hcounted
    rw [promoteHandlers_silent _ _ hpromoted, List.nil_append, history_append, urgings_append,
      hreaps.urgings, urgings_history hcounted]
    rfl

/-- A live handler of the peer is stopping. -/
def IsStopping (c : Controller) (peer : PeerId) : Prop :=
  ∃ h ∈ c.registry.live, h.peer = peer ∧ h.phase = .stopping

theorem exists_owes_iff (hkept : Kept past (c.ledger asked [])) :
    (∃ h ∈ c.registry.live, h.peer = peer ∧ h.Owes) ↔
      c.IsStopping peer ∧ HoldsWriter peer past := by
  have howes : ∀ h ∈ c.registry.live, (h.Owes ↔ h.phase = .stopping ∧ HoldsWriter h.peer past) := by
    intro h hh
    obtain ⟨table, hlife⟩ := hkept.life hh
    exact hlife.owes_iff
  constructor
  · rintro ⟨h, hh, rfl, hstill⟩
    obtain ⟨hphase, hholds⟩ := (howes h hh).1 hstill
    exact ⟨⟨h, hh, rfl, hphase⟩, hholds⟩
  · rintro ⟨⟨h, hh, rfl, hphase⟩, hholds⟩
    exact ⟨h, hh, rfl, (howes h hh).2 ⟨hphase, hholds⟩⟩

/-- The multiplexer is asked to let go of a peer only on behalf of this peer. -/
theorem Run.peer_of_urge (hrun : Run settings past c) {e : Entry} (he : e ∈ past)
    (hurged : e.happening.urged? = some peer) : e.peer = some peer := by
  cases howner : e.peer with
  | none =>
    have hnobody : ∀ {x : Happening}, x.IsImpersonal → x.urged? = none := fun himpersonal => by
      cases himpersonal <;> rfl
    rw [hnobody (hrun.impersonal he howner)] at hurged
    cases hurged
  | some owner =>
    have hmem := mem_history he howner
    obtain ⟨table, h, rfl, hlife⟩ := hrun.chronicle.every owner (List.ne_nil_of_mem hmem)
    obtain ⟨before, after, hsplit⟩ := List.append_of_mem hmem
    have halong := hlife.urges
    rw [hsplit] at halong
    rw [(halong.split peer hurged).1]

/-- The multiplexer is asked to let go of a peer only on behalf of the peer, when its handler has
turned to stopping and after the multiplexer took its writer, and not any more when it has said that
it lets go; and in each tick once, if the handler is stopping when it is polled and the multiplexer
has the writer, and otherwise not at all.  When a handler has turned to stopping it releases what it
owns, and after that nothing is done on its behalf but to ask; its connections are those whose
sockets the multiplexer holds, and only disconnections of these take some away. -/
theorem OpenRun.urges_in_time (hrun : OpenRun settings past c asked) :
    (∀ peer, Along (Urges peer) [] (history peer past)) ∧
    (∀ e ∈ past, ∀ peer, e.happening.urged? = some peer → e.peer = some peer) ∧
    (∀ peer before after, history peer past = before ++ turnsToStopping :: after →
      ∃ released lingered,
      after = released ++ lingered ∧ (∀ x ∈ released, x.IsRelease) ∧
        ∀ x ∈ lingered, x.Lingers peer) ∧
    LeftHeld past c.registry ∧
    (∀ entries c' asked', Way Operates (c, asked) entries (c', asked') →
      KeepsStopping past c.registry entries c'.registry) ∧
    ∀ now entries busy c', ((tick now).run c).Runs entries (busy, c') →
      ∃ c₁ c₂ c₃ carried heard polled ended instructed disconnected polling,
        entries = carried ++ (heard ++ (polled ++ ended)) ∧
        ((drainInstructions now).run c).Runs carried (instructed, c₁) ∧
        (drainDisconnections.run c₁).Runs heard (disconnected, c₂) ∧
        ((pollHandlers now).run c₂).Runs polled (polling, c₃) ∧
        KeepsStopping past c.registry carried c₁.registry ∧
        KeepsStopping (past ++ carried) c₁.registry heard c₂.registry ∧
        KeepsStopping (past ++ carried ++ heard) c₂.registry polled c₃.registry ∧
        KeepsStopping (past ++ carried ++ heard ++ polled) c₃.registry ended c'.registry ∧
        ∀ peer, (c₂.IsStopping peer ∧ HoldsWriter peer (past ++ carried ++ heard) →
            urgings (history peer entries) = [peer]) ∧
          (¬(c₂.IsStopping peer ∧ HoldsWriter peer (past ++ carried ++ heard)) →
            urgings (history peer entries) = []) := by
  have hkept := hrun.kept
  have hknows := hrun.accounts.live
  have hurges : ∀ peer, Along (Urges peer) [] (history peer past) := by
    intro peer
    by_cases hnone : history peer past = []
    · rw [hnone]
      trivial
    · obtain ⟨table, h, rfl, hlife⟩ := hkept.chronicle.every peer hnone
      exact hlife.urges
  refine ⟨hurges, fun e he peer => hrun.run.peer_of_urge he, fun peer before after hsplit => ?_,
    leftHeld hkept hknows rfl, fun entries c' asked' hway => ?_, fun now entries busy c' hruns =>
      ?_⟩
  · obtain ⟨table, h, rfl, hlife⟩ := hkept.chronicle.every peer (by rw [hsplit]; simp)
    exact hlife.only_lingers hsplit
  · exact keepsStopping hkept hknows (any_of_open (hrun.of_way hway).2) rfl
  · obtain ⟨more, hticks⟩ := tick_iff.1 hruns
    obtain ⟨c₁, c₂, c₃, carried, heard, polled, ended, instructed, disconnected, polling, rfl,
      hinstructs, hdrains, hpolls, hcarried, hended, hway₁, hway₂, hway₃, hway₄⟩ :=
        hticks.stages hrun.inOrder
    have along : ∀ {past entries : List Entry} {b b' : Ledger}, Kept past b ∧ Knows past b →
        Way AnyStep b entries b' → Kept (past ++ entries) b' ∧ Knows (past ++ entries) b' :=
      fun h hway => h.1.along (fun _ _ _ hstep => hstep) hway
        (fun _ _ _ _ hkept hknows hstep => hstep.knows hkept hknows) h.2
    have h₁ := along ⟨hkept, hknows⟩ hway₁
    have h₂ := along h₁ hway₂
    have h₃ := along h₂ hway₃
    refine ⟨c₁, c₂, c₃, carried, heard, polled, ended, instructed, disconnected, polling, rfl,
      hinstructs, hdrains, hpolls, keepsStopping hkept hknows hway₁ rfl,
      keepsStopping h₁.1 h₁.2 hway₂ rfl,
      keepsStopping h₂.1 h₂.2 hway₃ rfl, keepsStopping h₃.1 h₃.2 hway₄ rfl, fun peer => ?_⟩
    have hpolled := pollHandlers_urgings h₂.1.inOrder.atRest h₂.1.inOrder.live_peers _ _ hpolls peer
    have hheard := drainDisconnections_urgings h₁.1.inOrder _ _ hdrains peer
    simp only [history_append, urgings_append, urgings_history hcarried, hheard, hended,
      List.nil_append, List.append_nil]
    rwa [exists_owes_iff h₂.1] at hpolled

section Rehearsal

open Rehearsal

/-- When the table streams its first socket is dropped, and the multiplexer refuses once to let go;
after that the controller makes so many ticks. -/
def lingering (n : Nat) : Performance World :=
  ((rehearsed 4).meanwhile fun w =>
    { w.drop ⟨.first, ⟨1⟩⟩ with multiplexer :=
      { (w.drop ⟨.first, ⟨1⟩⟩).multiplexer with refusedStops := 1 } }).ticks
      world 0 n

theorem lingering_open {n : Nat} (hidle : ∀ k < n, ∀ i ∈ (lingering k).controller.queue.pending,
    i.kind = "add") :
    OpenRun .small (lingering n).past (lingering n).controller [] := by
  have hrun : OpenRun .small (lingering 0).past (lingering 0).controller [] := rehearsed_open
  exact Performance.open_ticks hrun 0 n hidle

/-- The multiplexer is asked twice, in this tick and in the next; meanwhile the second
socket is left. -/
theorem urges_rehearsed :
    (lingering 1).controller.IsStopping .first ∧
    LeftHeld (lingering 1).past (lingering 1).controller.registry ∧
    heldSockets .first (lingering 1).past = [⟨2⟩] ∧
    Along (Urges .first) [] (history .first (lingering 3).past) ∧
    urgings (history .first (lingering 3).past) = [.first, .first] := by
  have hstopping : (lingering 1).controller.IsStopping .first := by
    unfold IsStopping
    decide +kernel
  have hfirst := (lingering_open (n := 1) (by decide +kernel)).urges_in_time
  have hthird := (lingering_open (n := 3) (by decide +kernel)).urges_in_time
  exact ⟨hstopping, hfirst.2.2.2.1, by decide +kernel, hthird.1 .first, by decide +kernel⟩

end Rehearsal

end Controller

end ReplicaHandshake
