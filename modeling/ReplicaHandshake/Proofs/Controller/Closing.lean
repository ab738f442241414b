import ReplicaHandshake.Proofs.Controller.Stopping

/-!
# Closing

When a controller is closed, all its handlers stop and are polled once, those that are drained come
to their end, and then all are forgotten (`Controller.Closes`).  So what happens on behalf of each
is known to the last word (`Controller.WindsUp`): it releases what it owns, and asks the multiplexer
once to let go if this has its writer.

Peers are not issued twice.  So a controller that goes on after it was closed has nobody whom the
disconnections of its former peers concern (`hearAll_fresh`).
-/

namespace ReplicaHandshake

open Handler Registry

variable {past entries : List Entry}

/-! ### What happens -/

/-- What may happen when a controller is closed: handlers stop and release what they own, the
multiplexer is asked to let go, and handlers come to their end as asked. -/
inductive Happening.IsClosing : Happening → Prop where
  | stops : IsClosing turnsToStopping
  | releases {x : Happening} : x.IsRelease → IsClosing x
  | reads (now : Instant) : IsClosing (.answered .readClock now)
  | urges (peer : PeerId) (answer : Bool) : IsClosing (.answered (.stopPeer peer) answer)
  | retries : IsClosing (.reported (.handoffRetry "stop"))
  | ends : IsClosing (.reported (.phaseEntered Phase.stopped.name))
  | concludes (tableName : String) : IsClosing
    (.reported (.handlerOutcome tableName (outcome .stopped)))

/-- Nothing comes in, and the multiplexer takes nothing. -/
structure Happening.BringsNothing (x : Happening) : Prop where
  opening : x.opening? = none
  received : x.received? = none
  taken : x.taken? = none
  takenWriter : x.takenWriter? = none
  fetched : x.fetched = []

theorem Happening.IsClosing.bringsNothing {x : Happening} (h : x.IsClosing) : x.BringsNothing := by
  cases h with
  | releases hx => cases hx <;> exact ⟨rfl, rfl, rfl, rfl, rfl⟩
  | stops | reads | urges | retries | ends | concludes => exact ⟨rfl, rfl, rfl, rfl, rfl⟩

namespace Handler

variable {h h' : Handler} {hs : List Happening}

theorem Stops.isClosing (hstops : Stops h hs h') : ∀ x ∈ hs, x.IsClosing := by
  cases hstops with
  | isStopping => exact List.forall_mem_nil _
  | stops => exact fun x hx => (mem_stopHappenings hx).elim (fun heq => heq ▸ .stops) .releases

theorem Pleads.isClosing (hpleads : Pleads h hs h') : ∀ x ∈ hs, x.IsClosing := by
  cases hpleads with
  | idle => exact List.forall_mem_nil _
  | freed => exact List.forall_mem_singleton.2 (.urges _ _)
  | kept => exact List.forall_mem_cons.2 ⟨.urges _ _, List.forall_mem_singleton.2 .retries⟩

theorem endings_isClosing (h : Handler) : ∀ x ∈ endings h .stopped, x.IsClosing :=
  List.forall_mem_cons.2 ⟨.ends, List.forall_mem_singleton.2 (.concludes h.tableName)⟩

theorem Stops.freed (hstops : Stops h hs h') : freedPeers hs = [] := by
  refine List.filterMap_eq_nil_iff.2 fun x hx => ?_
  cases hstops with
  | isStopping => cases hx
  | stops =>
    obtain rfl | hrelease := mem_stopHappenings hx
    · rfl
    · cases hrelease <;> rfl

theorem pleads_behaves : Behaves Pleads where
  way hpleads := hpleads.moves.mono fun _ _ _ => .move
  rest hpleads hrest := by
    refine atRest_of_stopping (sound_of_way hrest.sound (hpleads.moves.mono fun _ _ _ => .move)) ?_
    rw [phase_of_way hpleads.moves (by rw [hpleads.phase]; decide), hpleads.phase]
  through hpleads hover := .inl (phase_of_way hpleads.moves hover)

end Handler

/-- What each handler urges, all of them urge in their order. -/
theorem Each.urgings {R : Handler → List Happening → Handler → Prop} {hs hs' : List Handler}
    {p : Handler → Bool} (heach : Each R hs entries hs')
    (hone : ∀ h ∈ hs, ∀ did h', R h did h' → urgings did = if p h then [h.peer] else []) :
    urgings (happenings entries) = (hs.filter p).map (·.peer) := by
  induction heach with
  | nil => rfl
  | @cons h h' did rest rest' entries hR _ ih =>
    obtain ⟨hh, hrest⟩ := List.forall_mem_cons.1 hone
    rw [happenings_append, urgings_append, happenings_marked, hh _ _ hR, ih hrest, List.filter_cons]
    split <;> rfl

/-- What handlers owned is what is closed and let go of, where none is left and nothing comes in. -/
theorem House.Chronicle.closes {s s' : House} (hc : House.Chronicle past s)
    (hc' : House.Chronicle (past ++ entries) s') (hnone : s'.handlers = [])
    (hclosing : ∀ e ∈ entries, e.happening.IsClosing) :
    (closedSockets (happenings entries)).Perm (s.handlers.flatMap ownedSockets) ∧
      (releasedWriters (happenings entries)).Perm (s.handlers.flatMap ownedWriters) := by
  have hnothing : ∀ x ∈ happenings entries, x.BringsNothing :=
    List.forall_mem_map.2 fun e he => (hclosing e he).bringsNothing
  have hopened : openedSockets (happenings entries) = [] := by
    rw [openedSockets, openings, List.filterMap_eq_nil_iff.2 fun x hx => (hnothing x hx).opening]
    rfl
  have htaken : takenSockets (happenings entries) = [] :=
    List.filterMap_eq_nil_iff.2 fun x hx => (hnothing x hx).taken
  have hreceived : receivedWriters (happenings entries) = [] :=
    List.filterMap_eq_nil_iff.2 fun x hx => (hnothing x hx).received
  have htakenWriters : takenWriters (happenings entries) = [] :=
    List.filterMap_eq_nil_iff.2 fun x hx => (hnothing x hx).takenWriter
  have hsockets := hc'.sockets
  have hwriters := hc'.writers
  rw [happenings_append, openedSockets_append, takenSockets_append, closedSockets_append,
    perm_account_iff hc.sockets, hnone, hopened, htaken] at hsockets
  rw [happenings_append, receivedWriters_append, takenWriters_append, releasedWriters_append,
    perm_account_iff hc.writers, hnone, hreceived, htakenWriters] at hwriters
  exact ⟨hsockets.symm, hwriters.symm⟩

/-- A drained handler comes to its end when handlers are reaped, and nothing happens on behalf
of any other. -/
theorem Registry.Reaps.history_eq {r r' : Registry} (hreaps : Reaps r entries r')
    (hnodup : (r.live.map (·.peer)).Nodup) {h : Handler} (hh : h ∈ r.live) :
    history h.peer entries = if h.isDrained then endings h (r.verdict h) else [] := by
  split
  next hdrained =>
    obtain ⟨_, -, hends, -⟩ := hreaps.each.after (hnodup.sublist (List.filter_sublist.map _))
      (List.mem_filter.2 ⟨hh, hdrained⟩)
    exact hends
  next hdrained =>
    refine hreaps.each.history_other fun x hx hsame => hdrained ?_
    obtain rfl := eq_of_nodup_map hnodup hh (List.mem_filter.1 hx).1 hsame
    exact (List.mem_filter.1 hx).2

/-! ### Who is left -/

namespace Ledger

variable {b b' : Ledger} {n : Nat}

/-- All live handlers have peers that were issued from this one on, and so will those to come. -/
structure Fresh (n : Nat) (b : Ledger) : Prop where
  next : n ≤ b.nextPeer.number
  live : ∀ peer, b.registry.HasLive peer → n ≤ peer.number

theorem OpenStep.fresh (hstep : OpenStep b entries b') (hfresh : b.Fresh n) : b'.Fresh n := by
  cases hstep with
  | works hstep =>
    refine ⟨Nat.le_trans hfresh.next hstep.nextPeer_le, fun peer hlive => ?_⟩
    exact (hstep.hasLive hlive).elim (hfresh.live peer) (Nat.le_trans hfresh.next)
  | reaps hreaps =>
    refine ⟨hfresh.next, fun peer ⟨h, hh, hpeer⟩ => hfresh.live peer ⟨h, ?_, hpeer⟩⟩
    rw [hreaps.live] at hh
    exact b.registry.live_drained.mem_iff.2 (List.mem_append_right _ hh)

theorem AnyStep.fresh (hstep : AnyStep b entries b') (hfresh : b.Fresh n) : b'.Fresh n := by
  cases hstep with
  | goesOn hstep => exact hstep.fresh hfresh
  | asksAll _ _ hround =>
    exact ⟨hfresh.next, fun peer hlive => hfresh.live peer ((hround.hasLive stops_behaves).1 hlive)⟩
  | readsClock => exact hfresh
  | closes => exact ⟨hfresh.next, fun _ ⟨_, hh, _⟩ => nomatch hh⟩

theorem fresh_of_way (hway : Way AnyStep b entries b') (hfresh : b.Fresh n) : b'.Fresh n := by
  induction hway with
  | refl => exact hfresh
  | tail _ hstep ih => exact hstep.fresh ih

end Ledger

namespace Controller

open Ledger

variable {settings : Settings} {c c' c₁ c₂ : Controller} {asked : List PeerId} {n : Nat}

/-- Disconnections of peers that were issued before all live handlers are heard as if they
were not there. -/
theorem hearAll_fresh {ds : List Disconnection} (hord : (c.ledger asked ds).InOrder)
    (hfresh : (c.ledger asked ds).Fresh n) :
    Work.Records (hearAll ds) c fun entries _ c' =>
      ((hearAll (ds.filter fun d => n ≤ d.peer.number)).run c).Runs entries ((), c') := by
  induction ds generalizing c with
  | nil => exact fun _ _ hruns => hruns
  | cons d rest ih =>
    simp only [hearAll, Work.records_bind]
    rintro first ⟨_, c₁⟩ hhear second ⟨_, c'⟩ hruns
    have hway := hear_way hord _ _ hhear
    have hfresh₁ := fresh_of_way (any_of_open (open_of_works hway)) hfresh
    have hrest : ((hearAll (rest.filter fun d => n ≤ d.peer.number)).run c₁).Runs second ((), c') :=
      ih (inOrder_of_works hway hord) hfresh₁ _ _ hruns
    rw [List.filter_cons]
    split
    · exact Work.runs_bind.2 ⟨first, (), c₁, second, rfl, hhear, hrest⟩
    next hold =>
      obtain ⟨r, hround, heq⟩ := hear_round hord _ _ hhear
      obtain ⟨rfl, rfl⟩ := hround.eq_of_none fun h hh hsame =>
        hold (decide_eq_true (of_decide_eq_true hsame ▸ hfresh.live h.peer ⟨h, hh, rfl⟩))
      obtain rfl : c₁ = c := heq
      exact hrest

/-- A controller is closed, taken apart: all live handlers stop and are remembered as
asked, each pleads with the multiplexer, those that are drained come to their end, and then
all are forgotten. -/
inductive Closes (c : Controller) : List Entry → Controller → Prop where
  | intro {stopped pleaded reaped : List Entry} {r₁ r₂ r₃ : Registry} {voluntary : List PeerId}
      {now : Instant} :
      (∀ peer, peer ∈ voluntary ↔ peer ∈ c.registry.voluntary ∨ ∃ h ∈ c.registry.live,
        h.peer = peer) →
      Round Stops { c.registry with voluntary } stopped r₁ → Round Pleads r₁ pleaded r₂ →
      Reaps r₂ reaped r₃ →
      Closes c (stopped ++ ⟨none, .answered .readClock now⟩ :: (pleaded ++ reaped))
        { c with registry := {} }

theorem close_closes (hord : c.registry.InOrder c.nextPeer) :
    Work.Records close c fun entries _ c' => Closes c entries c' := by
  simp only [close, pollHandlers, Dialogue.readClock, Work.records_bind, Work.records_lift,
    Work.records_modify, Work.records_pure, onRegistry_records, List.append_nil]
  refine (onRegistry_records.1 (stopAll_round hord.atRest)).mono ?_
  rintro stopped _ r₁ ⟨voluntary, _, hvoluntary, hstops, heq⟩
  obtain rfl := congrArg Controller.registry heq
  refine Dialogue.records_call.2 fun now => ?_
  have hstopping : ∀ h ∈ r₁.live, h.phase = .stopping := by
    intro h₁ hh₁
    obtain ⟨_, -, _, hdid⟩ := hstops.live.origin hh₁
    exact hdid.phase
  refine (updateLive_round (r := r₁) fun h hh => poll_pleads (hstopping h hh)).mono ?_
  intro pleaded _ r₂ hpleads
  have hnodup : (r₂.live.map (·.peer)).Nodup := by
    rw [hpleads.live.map_eq fun _ _ _ hdid => (pleads_behaves.name hdid).1,
      hstops.live.map_eq fun _ _ _ hdid => (stops_behaves.name hdid).1]
    exact hord.live_peers
  refine (reap_reaps hnodup).mono ?_
  intro reaped _ r₃ hreaps
  show Closes c (stopped ++ ⟨none, .answered .readClock now⟩ :: (pleaded ++ reaped))
    { c with registry := {} }
  exact .intro hvoluntary hstops hpleads hreaps

/-- What happens on behalf of a live handler when its controller is closed.  It stops, and pleads
with the multiplexer if this has its writer; and if the multiplexer has nothing of it by then, it
comes to its end as asked. -/
def WindsUp (past entries : List Entry) (h : Handler) : Prop :=
  ∃ released h₁ pleaded h₂, Stops h released h₁ ∧ Pleads h₁ pleaded h₂ ∧
    (h₁.Owes ↔ HoldsWriter h.peer past) ∧
    (h₂.isDrained ↔ heldSockets h.peer past = [] ∧ ¬HoldsWriter h.peer (past ++ entries)) ∧
    history h.peer entries = released ++ pleaded ++ if h₂.isDrained then endings h .stopped else []

instance (peer : PeerId) (entries : List Entry) : Decidable (HoldsWriter peer entries) :=
  inferInstanceAs (Decidable (_ ∧ _))

theorem holdsWriter_append {peer : PeerId} (htaken : takenWriters (history peer entries) = [])
    (hfreed : freedPeers (history peer entries) = []) :
    HoldsWriter peer (past ++ entries) ↔ HoldsWriter peer past := by
  unfold HoldsWriter
  rw [history_append, takenWriters_append, freedPeers_append, htaken, hfreed, List.append_nil,
    List.append_nil]

theorem verdict_of_closing {stopped pleaded : List Entry} {r r₁ r₂ : Registry}
    (hvoluntary : ∀ h ∈ r.live, h.peer ∈ r.voluntary) (hstops : Round Stops r stopped r₁)
    (hpleads : Round Pleads r₁ pleaded r₂) : ∀ h ∈ r₂.live, r₂.verdict h = .stopped := by
  intro h₂ hh₂
  obtain ⟨h₁, hh₁, _, hdid₂⟩ := hpleads.live.origin hh₂
  obtain ⟨h, hh, _, hdid₁⟩ := hstops.live.origin hh₁
  rw [verdict, hpleads.voluntary, hstops.voluntary, (pleads_behaves.name hdid₂).1,
    (stops_behaves.name hdid₁).1, List.contains_iff_mem.2 (hvoluntary h hh), if_pos rfl]

theorem Closes.isClosing (hcloses : Closes c entries c') :
    ∀ e ∈ entries, e.happening.IsClosing := by
  cases hcloses with
  | @intro _ _ _ _ r₂ _ voluntary _ hvoluntary hstops hpleads hreaps =>
    have hverdict := verdict_of_closing (r := { c.registry with voluntary })
      (fun h hh => (hvoluntary _).2 (.inr ⟨h, hh, rfl⟩)) hstops hpleads
    simp only [List.forall_mem_append, List.forall_mem_cons]
    refine ⟨hstops.live.forall_happenings fun _ _ _ _ => Stops.isClosing, .reads _,
      hpleads.live.forall_happenings fun _ _ _ _ => Pleads.isClosing,
      hreaps.each.forall_happenings ?_⟩
    rintro h hh _ _ ⟨rfl, -⟩
    rw [hverdict h (List.mem_filter.1 hh).1]
    exact h.endings_isClosing

theorem known_of_closing {stopped pleaded : List Entry} {r₁ r₂ : Registry} {voluntary : List PeerId}
    (now : Instant) (hkept : Kept past (c.ledger asked []))
    (hknows : Knows past (c.ledger asked []))
    (hvoluntary : ∀ peer ∈ voluntary, peer ∈ c.registry.voluntary ∨ ∃ h ∈ c.registry.live,
      h.peer = peer)
    (hstops : Round Stops { c.registry with voluntary } stopped r₁)
    (hpleads : Round Pleads r₁ pleaded r₂) :
    Kept (past ++ stopped) (ledger { c with registry := r₁ } asked []) ∧
      Kept (past ++ stopped ++ [⟨none, .answered .readClock now⟩] ++ pleaded)
        (ledger { c with registry := r₂ } asked []) ∧
      Knows (past ++ stopped ++ [⟨none, .answered .readClock now⟩] ++ pleaded)
        (ledger { c with registry := r₂ } asked []) := by
  have hasks : AnyStep (c.ledger asked []) stopped (ledger { c with registry := r₁ } asked []) :=
    .asksAll voluntary hvoluntary hstops
  have hkept₁ := hkept.step hasks
  have hreads : AnyStep (ledger { c with registry := r₁ } asked [])
      [⟨none, .answered .readClock now⟩]
      (ledger { c with registry := r₁ } asked []) := .readsClock _ now
  have hpolls : AnyStep (ledger { c with registry := r₁ } asked []) pleaded
      (ledger { c with registry := r₂ } asked []) := by
    refine .goesOn (.works (.polls rfl (hpleads.mono fun h hh _ _ hdid => ⟨hdid.moves, ?_⟩)))
    exact (pleads_behaves.rest hdid (hkept₁.inOrder.atRest.live h hh)).settled
  have hread := hkept₁.step hreads
  exact ⟨hkept₁, hread.step hpolls,
    hpolls.knows hread (hreads.knows hkept₁ (hasks.knows hkept hknows))⟩

theorem owes_of_closing {stopped : List Entry} {h h₁ : Handler} {table : TableSettings}
    (hstops : Stops h (history h.peer stopped) h₁)
    (hlife : Life table (history h₁.peer (past ++ stopped)) h₁) :
    h₁.Owes ↔ HoldsWriter h.peer past := by
  have howes := hlife.owes_iff
  have htaken : takenWriters (history h.peer stopped) = [] :=
    List.filterMap_eq_nil_iff.2 fun x hx => (hstops.isClosing x hx).bringsNothing.takenWriter
  rw [(stops_behaves.name hstops).1] at howes
  rw [← holdsWriter_append htaken hstops.freed, howes, HoldsWriter]
  exact and_iff_right hstops.phase

theorem heldSockets_of_closing {peer : PeerId} (hclosing : ∀ e ∈ entries, e.happening.IsClosing) :
    heldSockets peer (past ++ entries) = heldSockets peer past := by
  have hnothing : ∀ x ∈ happenings entries, x.BringsNothing :=
    List.forall_mem_map.2 fun e he => (hclosing e he).bringsNothing
  have hnone : disconnections (happenings entries) = [] :=
    List.flatMap_eq_nil_iff.2 fun x hx => (hnothing x hx).fetched
  rw [heldSockets_append, foldl_holding_of_untaken, hnone]
  · rfl
  · exact fun e he _ => (hclosing e he).bringsNothing.fetched
  · intro x hx
    obtain ⟨e, he, -, rfl⟩ := mem_of_history hx
    exact (hclosing e he).bringsNothing.taken

theorem isDrained_of_held {h : Handler} {table : TableSettings}
    (hlife : Life table (history h.peer past) h)
    (hknows : h.handedSockets.Perm (heldSockets h.peer past)) (hphase : h.phase = .stopping) :
    h.isDrained ↔ heldSockets h.peer past = [] ∧ ¬HoldsWriter h.peer past := by
  have hsockets : h.handedSockets = [] ↔ heldSockets h.peer past = [] :=
    ⟨fun hnone => (hnone ▸ hknows.symm).eq_nil, fun hnone => (hnone ▸ hknows).eq_nil⟩
  rw [hlife.isDrained_iff hphase, hsockets, HoldsWriter, Classical.not_and_iff_not_or_not,
    Classical.not_not, Classical.not_not]

theorem filter_map_peer {p : PeerId → Bool} {hs hs' : List Handler}
    (hsame : hs'.map (·.peer) = hs.map (·.peer)) : (hs'.filter fun h => p h.peer).map (·.peer) =
      (hs.filter fun h => p h.peer).map (·.peer) := by
  have hpeers : ∀ hs : List Handler, (hs.filter fun h => p h.peer).map (·.peer) =
      (hs.map (·.peer)).filter p :=
    fun _ => List.filter_map.symm
  rw [hpeers, hpeers, hsame]

/-- When a controller is closed the multiplexer is asked to let go of each live handler whose writer
it has, once and in order. -/
theorem Closes.urgings (hcloses : Closes c entries c') (hkept : Kept past (c.ledger asked []))
    (hknows : Knows past (c.ledger asked [])) :
    urgings (happenings entries) =
      (c.registry.live.filter fun h => HoldsWriter h.peer past).map (·.peer) := by
  cases hcloses with
  | @intro stopped pleaded reaped r₁ r₂ _ voluntary now hvoluntary hstops hpleads hreaps =>
    obtain ⟨hkept₁, -, -⟩ :=
      known_of_closing now hkept hknows (fun peer => (hvoluntary peer).1) hstops hpleads
    have hsame : r₁.live.map (·.peer) = c.registry.live.map (·.peer) :=
      hstops.live.map_eq fun _ _ _ hdid => (stops_behaves.name hdid).1
    have hstopped : ReplicaHandshake.urgings (happenings stopped) = [] :=
      Works.urgings
        (List.forall_mem_map.2 (hstops.live.forall_happenings fun _ _ _ _ => Stops.works))
    have hreaped : ReplicaHandshake.urgings (happenings reaped) = [] :=
      Works.urgings (List.forall_mem_map.2 (hreaps.routine isWork_routine))
    have hpleaded : ReplicaHandshake.urgings (happenings pleaded) =
        (r₁.live.filter fun h => HoldsWriter h.peer past).map (·.peer) := by
      refine hpleads.live.urgings fun h₁ hh₁ did h₂ hdid => ?_
      obtain ⟨h, -, hstopped⟩ := hstops.live.before hkept.inOrder.live_peers hh₁
      obtain ⟨table, hlife⟩ := hkept₁.life hh₁
      have howes := owes_of_closing hstopped hlife
      rw [← (stops_behaves.name hstopped).1] at howes
      split
      next hholds => exact hdid.urgings.1 (howes.2 (of_decide_eq_true hholds))
      next hholds => exact hdid.urgings.2 fun hstill => hholds (decide_eq_true (howes.1 hstill))
    rw [happenings_append, happenings_cons, happenings_append, urgings_append, hstopped,
      List.nil_append]
    show ReplicaHandshake.urgings (happenings pleaded ++ happenings reaped) = _
    rw [urgings_append, hreaped, List.append_nil, hpleaded]
    exact filter_map_peer (p := fun peer => HoldsWriter peer past) hsame

theorem Closes.windsUp (hcloses : Closes c entries c') (hkept : Kept past (c.ledger asked []))
    (hknows : Knows past (c.ledger asked [])) {h : Handler} (hh : h ∈ c.registry.live) :
    WindsUp past entries h := by
  have hclosing := hcloses.isClosing
  cases hcloses with
  | @intro stopped pleaded reaped r₁ r₂ _ voluntary now hvoluntary hstops hpleads hreaps =>
    obtain ⟨hkept₁, hkept₂, hknows₂⟩ :=
      known_of_closing now hkept hknows (fun peer => (hvoluntary peer).1) hstops hpleads
    have hverdict := verdict_of_closing (r := { c.registry with voluntary })
      (fun h hh => (hvoluntary _).2 (.inr ⟨h, hh, rfl⟩)) hstops hpleads
    obtain ⟨h₁, hh₁, hdid₁⟩ := hstops.live.after hkept.inOrder.live_peers hh
    obtain ⟨h₂, hh₂, hdid₂⟩ := hpleads.live.after hkept₁.inOrder.live_peers hh₁
    obtain ⟨table, hlife₁⟩ := hkept₁.life hh₁
    obtain ⟨table, hlife₂⟩ := hkept₂.life hh₂
    obtain ⟨hpeer₁, hname₁⟩ := stops_behaves.name hdid₁
    obtain ⟨hpeer₂, hname₂⟩ := pleads_behaves.name hdid₂
    have hends := hreaps.history_eq hkept₂.inOrder.live_peers hh₂
    have hsame : endings h₂ .stopped = endings h .stopped := by
      rw [endings, endings, hname₂, hname₁]
    rw [hverdict h₂ hh₂, hsame] at hends
    refine ⟨_, h₁, _, h₂, hdid₁, hdid₂, owes_of_closing hdid₁ hlife₁, ?_, ?_⟩
    · have hdrained :=
        isDrained_of_held hlife₂ (hknows₂ h₂ hh₂) (pleads_behaves.stopping hdid₂ hdid₁.phase)
      have hnone : takenWriters (history h₂.peer reaped) = [] ∧
          freedPeers (history h₂.peer reaped) = [] := by
        rw [hends]
        split <;> exact ⟨rfl, rfl⟩
      have htold : ∀ e ∈ stopped ++ ⟨none, .answered .readClock now⟩ :: pleaded,
          e.happening.IsClosing := by
        simp only [List.forall_mem_append, List.forall_mem_cons] at hclosing ⊢
        exact ⟨hclosing.1, hclosing.2.1, hclosing.2.2.1⟩
      rw [List.append_assoc, List.append_assoc, List.singleton_append, heldSockets_of_closing htold,
        ← holdsWriter_append hnone.1 hnone.2, hpeer₂, hpeer₁] at hdrained
      simpa only [List.append_assoc, List.cons_append] using hdrained
    · rw [hpeer₂] at hends
      rw [history_append, ← hpeer₁]
      show _ ++ history h₁.peer (pleaded ++ reaped) = _
      rw [history_append, hends, List.append_assoc]

/-- A closed controller that goes on hears the disconnections of its former peers as if they
were not there. -/
theorem Run.hears_fresh (hrun : Run settings past c) (hempty : c.registry = {})
    (hway : Way Continues c entries c₁) {now : Instant} {told : List Entry} {instructed : Bool}
    (hinstructs : ((drainInstructions now).run c₁).Runs told (instructed, c₂)) :
    Work.Records drainDisconnections c₂ fun fetched _ c' => ∃ ds heard,
      fetched = ⟨none, .answered .fetchDisconnections ds⟩ :: heard ∧
        ((hearAll (ds.filter fun d => c.nextPeer.number ≤ d.peer.number)).run c₂).Runs heard
          ((), c') := by
  have hord : (c.ledger [] []).InOrder := hrun.inOrder
  have hfresh : (c.ledger [] []).Fresh c.nextPeer.number := by
    refine ⟨Nat.le_refl _, fun peer ⟨h, hh, _⟩ => ?_⟩
    rw [ledger, hempty] at hh
    cases hh
  obtain ⟨asked, hway⟩ := continues_way hway hord
  have hord₁ := inOrder_of_way hway hord
  obtain ⟨-, hcarried⟩ := drainInstructions_iff.1 hinstructs
  obtain ⟨more, hcarries⟩ := carries_iff.1 hcarried
  have hway₂ := hcarries.way (c := { c₁ with queue := c₁.queue.cleared }) hord₁
  have hord₂ := inOrder_of_works hway₂ hord₁
  have hfresh₂ := fresh_of_way (any_of_open (open_of_works hway₂)) (fresh_of_way hway hfresh)
  refine drainDisconnections_hears.mono ?_
  rintro _ _ c' ⟨ds, heard, rfl, hruns⟩
  have hord' : (c₂.ledger (asked ++ more) ds).InOrder := hord₂
  have hfresh' : (c₂.ledger (asked ++ more) ds).Fresh c.nextPeer.number :=
    ⟨hfresh₂.next, hfresh₂.live⟩
  exact ⟨ds, heard, rfl, hearAll_fresh hord' hfresh' _ _ hruns⟩

/-- When a controller is closed, it is left without handlers and is else as it was.  The multiplexer
is asked to let go of each live handler whose writer it has, once and in order, and of nobody else;
nothing is offered to it, the store is not asked for anything, and no socket is read or written.
What handlers owned is released.  Each live handler winds up, and if it comes to its end then as
asked.  Whatever is done with the controller afterwards, the disconnections of peers that were
issued before are heard as if they were not there. -/
theorem Run.closes_down (hrun : Run settings past c)
    (hruns : (Controller.close.run c).Runs entries ((), c')) :
    c' = { c with registry := {} } ∧
    (∀ e ∈ entries, e.happening.IsClosing) ∧
    urgings (happenings entries) = (c.registry.live.filter fun h => HoldsWriter h.peer past).map
      (·.peer) ∧
    (closedSockets (happenings entries)).Perm (c.registry.handlers.flatMap ownedSockets) ∧
    (releasedWriters (happenings entries)).Perm (c.registry.handlers.flatMap ownedWriters) ∧
    (∀ h ∈ c.registry.live, WindsUp past entries h) ∧
    (∀ h ∈ c.registry.handlers, h.peer.number < c.nextPeer.number) ∧
    ∀ more c₁, Way Continues c' more c₁ →
      ∀ now told instructed c₂, ((drainInstructions now).run c₁).Runs told (instructed, c₂) →
      ∀ fetched busy c₃, (drainDisconnections.run c₂).Runs fetched (busy, c₃) → ∃ ds heard,
        fetched = ⟨none, .answered .fetchDisconnections ds⟩ :: heard ∧
        ((hearAll (ds.filter fun d => c.nextPeer.number ≤ d.peer.number)).run c₂).Runs heard
          ((), c₃) := by
  obtain ⟨asked, hkept, hknows⟩ := hrun.knows
  have hcloses := close_closes hrun.inOrder _ _ hruns
  have hclosing := hcloses.isClosing
  obtain rfl : c' = { c with registry := {} } := by
    cases hcloses
    rfl
  have hclosed := Run.close hrun hruns
  obtain ⟨hsockets, hwriters⟩ := hrun.chronicle.closes hclosed.chronicle rfl hclosing
  refine ⟨rfl, hclosing, hcloses.urgings hkept hknows, hsockets, hwriters,
    fun h => hcloses.windsUp hkept hknows, hrun.chronicle.issued, ?_⟩
  intro more c₁ hway now told instructed c₂ hinstructs fetched busy c₃ hdrains
  exact hclosed.hears_fresh rfl hway hinstructs _ _ hdrains

section Rehearsal

open Rehearsal

/-- The rehearsed controller is closed after so many ticks. -/
def closing (n : Nat) : (Unit × Controller) × World × List Entry :=
  (close.run (rehearsed n).controller).perform world (rehearsed n).outside

/-- The closed controller carries out the instructions of its next tick. -/
def closedInstructed : Performance World :=
  ((rehearsed 4).goOn world close).goOn world (drainInstructions 0)

/-- Then it hears that its former peer, and one to come, have lost a socket each. -/
def closedNotified : (Bool × Controller) × World × List Entry :=
  (drainDisconnections.run closedInstructed.controller).perform world
    { closedInstructed.outside with disconnections := reported }

/-- In the midst of the handoff, when the multiplexer has the writer and no socket, it is asked to
let go, both sockets are closed, and the handler comes to its end.  A closed controller hears only
of the peer to come. -/
theorem closing_rehearsed :
    urgings (happenings (closing 3).2.2) = [.first] ∧
    (closedSockets (happenings (closing 3).2.2)).Perm [⟨1⟩, ⟨2⟩] ∧
    (∃ h ∈ (rehearsed 3).controller.registry.live, h.phase = .handingOff ∧
      WindsUp (rehearsed 3).past (closing 3).2.2 h) ∧
    phases (history .first (closing 3).2.2) = ["Stopping", "Stopped"] ∧
    ∃ heard, closedNotified.2.2 = ⟨none, .answered .fetchDisconnections reported⟩ :: heard ∧
      ((hearAll [⟨PeerId.first.next, ⟨2⟩⟩]).run closedInstructed.controller).Runs heard
        ((), closedNotified.1.2) := by
  have hcloses := fun n => (rehearsed_run n).closes_down
    (Dialogue.perform_runs world (close.run (rehearsed n).controller) (rehearsed n).outside)
  obtain ⟨-, -, hurgings, hsockets, -, hwinds, -, -⟩ := hcloses 3
  refine ⟨hurgings.trans (by decide +kernel), hsockets.trans (by decide +kernel),
    ?_, by decide +kernel, ?_⟩
  · have hseen : (rehearsed 3).controller.registry.live.map (·.phase) = [.handingOff] := by
      decide +kernel
    obtain ⟨h, hh, hphase⟩ :=
      List.mem_map.1 (hseen ▸ List.mem_singleton.2 rfl : Phase.handingOff ∈ _)
    exact ⟨h, hh, hphase, hwinds h hh⟩
  · obtain ⟨-, -, -, -, -, -, -, hlater⟩ := hcloses 4
    have hinstructs := Dialogue.perform_runs world
      ((drainInstructions 0).run ((rehearsed 4).goOn world close).controller)
      ((rehearsed 4).goOn world close).outside
    obtain ⟨ds, heard, hfetched, hheard⟩ := hlater [] _ (.refl _) _ _ _ _ hinstructs _ _ _
      (Dialogue.perform_runs world (drainDisconnections.run closedInstructed.controller)
        { closedInstructed.outside with disconnections := reported })
    have hsaid : closedNotified.2.2.head? = some ⟨none, .answered .fetchDisconnections reported⟩ :=
      rfl
    have hfresh : (reported.filter fun d => (rehearsed 4).controller.nextPeer.number ≤
        d.peer.number) =
        [⟨PeerId.first.next, ⟨2⟩⟩] := by
      decide +kernel
    have hfetched : closedNotified.2.2 = ⟨none, .answered .fetchDisconnections ds⟩ :: heard :=
      hfetched
    rw [hfetched, List.head?_cons] at hsaid
    cases hsaid
    rw [hfresh] at hheard
    exact ⟨heard, hfetched, hheard⟩

end Rehearsal

end Controller

end ReplicaHandshake
