import ReplicaHandshake.Proofs.Controller.Performed
import ReplicaHandshake.Proofs.Handler.Drained

/-!
# What the multiplexer holds

The sockets of a peer that the multiplexer holds can be read off the entries: it took them, and no
disconnection of them was fetched since (`heldSockets`).  It holds the writer if it took one and did
not say that it lets go (`HoldsWriter`).

A live handler knows these sockets, but for the disconnections that it will yet hear of in the same
tick; and the multiplexer holds nothing of a peer without a live handler (`Ledger.Accounts`).  As a
tick leaves no handler that is drained, a handler that is stopping stays exactly as long as
something of it is held (`OpenRun.stays_while_held`).
-/

namespace ReplicaHandshake

open Handler Registry

variable {peer : PeerId} {held held' : List SocketId} {past entries : List Entry}

/-! ### Held sockets -/

/-- The sockets of a peer that are left when these disconnections are known. -/
def forget (peer : PeerId) (held : List SocketId) (ds : List Disconnection) : List SocketId :=
  ds.foldl (fun held d => if d.peer = peer then held.erase d.socket else held) held

/-- The sockets of a peer that the multiplexer holds after an entry: those that it takes on behalf
of the peer come to them, and those go whose disconnections are fetched. -/
def holding (peer : PeerId) (held : List SocketId) (e : Entry) : List SocketId :=
  match e.peer with
  | some owner => if owner = peer then held ++ e.happening.taken?.toList else held
  | none => forget peer held e.happening.fetched

/-- The sockets of a peer that the multiplexer took and of which no disconnection was
fetched since. -/
def heldSockets (peer : PeerId) (entries : List Entry) : List SocketId :=
  entries.foldl (holding peer) []

/-- The multiplexer took a writer of a peer, and did not say that it lets go. -/
def HoldsWriter (peer : PeerId) (entries : List Entry) : Prop :=
  takenWriters (history peer entries) ≠ [] ∧ peer ∉ freedPeers (history peer entries)

theorem forget_perm (hperm : held.Perm held') (ds : List Disconnection) :
    (forget peer held ds).Perm (forget peer held' ds) := by
  induction ds generalizing held held' with
  | nil => exact hperm
  | cons d rest ih =>
    unfold forget
    rw [List.foldl_cons, List.foldl_cons]
    apply ih
    split
    · exact hperm.erase _
    · exact hperm

@[simp] theorem forget_nil (ds : List Disconnection) : forget peer [] ds = [] := by
  unfold forget
  induction ds with
  | nil => rfl
  | cons d rest ih =>
    rw [List.foldl_cons, List.erase_nil, ite_self]
    exact ih

theorem heldSockets_append :
    heldSockets peer (past ++ entries) = entries.foldl (holding peer) (heldSockets peer past) :=
  List.foldl_append

theorem foldl_holding (hmarked : ∀ e ∈ entries, e.peer.isSome) (held : List SocketId) :
    entries.foldl (holding peer) held = held ++ takenSockets (history peer entries) := by
  induction entries generalizing held with
  | nil => exact (List.append_nil held).symm
  | cons e rest ih =>
    obtain ⟨he, hrest⟩ := List.forall_mem_cons.1 hmarked
    obtain ⟨owner, howner⟩ := Option.isSome_iff_exists.1 he
    have htaken : takenSockets (history peer (e :: rest)) =
        (if owner = peer then e.happening.taken?.toList else []) ++ takenSockets
          (history peer rest) := by
      by_cases hsame : owner = peer
      · cases htaken : e.happening.taken? <;>
          simp [takenSockets, history, howner, hsame, htaken]
      · simp [takenSockets, history, howner, hsame]
    have hholding : holding peer held e =
        held ++ (if owner = peer then e.happening.taken?.toList else []) := by
      simp only [holding, howner]
      split
      · rfl
      · exact (List.append_nil held).symm
    rw [List.foldl_cons, ih hrest, htaken, hholding, List.append_assoc]

/-- Nothing is held of a peer of which nothing was taken. -/
theorem heldSockets_of_untaken (hnone : takenSockets (history peer past) = []) :
    heldSockets peer past = [] := by
  have hall : ∀ e ∈ past, e.peer = some peer → e.happening.taken? = none := fun e he howner =>
    List.filterMap_eq_nil_iff.1 hnone _
      (List.mem_map_of_mem (List.mem_filter.2 ⟨he, decide_eq_true howner⟩))
  unfold heldSockets
  clear hnone
  induction past with
  | nil => rfl
  | cons e rest ih =>
    obtain ⟨he, hrest⟩ := List.forall_mem_cons.1 hall
    have hholding : holding peer [] e = [] := by
      unfold holding
      split
      next owner howner =>
        split
        next hsame => rw [he (hsame ▸ howner)]; rfl
        next => rfl
      · exact forget_nil _
    rw [List.foldl_cons, hholding]
    exact ih hrest

theorem marked_isSome (owner : PeerId) (hs : List Happening) :
    ∀ e ∈ marked owner hs, e.peer.isSome := by
  intro e he
  obtain ⟨_, -, rfl⟩ := List.mem_map.1 he
  rfl

theorem Each.isSome {R : Handler → List Happening → Handler → Prop} {hs hs' : List Handler}
    (heach : Each R hs entries hs') : ∀ e ∈ entries, e.peer.isSome := by
  induction heach with
  | nil => exact List.forall_mem_nil _
  | cons _ _ ih => exact List.forall_mem_append.2 ⟨marked_isSome _ _, ih⟩

/-- What happens on nobody's behalf: something is reported, disconnections are fetched, or the
clock is read. -/
inductive Happening.IsImpersonal : Happening → Prop where
  | reports (m : Metric) : IsImpersonal (.reported m)
  | fetches (ds : List Disconnection) : IsImpersonal (.answered .fetchDisconnections ds)
  | reads (now : Instant) : IsImpersonal (.answered .readClock now)

namespace Ledger

variable {b b' : Ledger}

theorem AnyStep.impersonal (hstep : AnyStep b entries b') {e : Entry} (he : e ∈ entries)
    (hnone : e.peer = none) :
    e.happening.IsImpersonal := by
  have hmarked : ¬∀ e ∈ entries, e.peer.isSome := by
    intro hsome
    have howner := hsome e he
    rw [hnone] at howner
    cases howner
  cases hstep with
  | goesOn hstep =>
    cases hstep with
    | works hstep =>
      cases hstep with
      | reports m =>
        obtain rfl := List.mem_singleton.1 he
        exact .reports m
      | fetches ds =>
        obtain rfl := List.mem_singleton.1 he
        exact .fetches ds
      | adds => exact absurd (marked_isSome _ _) hmarked
      | stops _ hround | hears _ hround | polls _ hround => exact absurd hround.live.isSome hmarked
      | forgets | promotes => cases he
    | reaps hreaps => exact absurd hreaps.each.isSome hmarked
  | asksAll _ _ hround => exact absurd hround.live.isSome hmarked
  | readsClock now =>
    obtain rfl := List.mem_singleton.1 he
    exact .reads now
  | closes => cases he

/-! ### Accounts -/

/-- Live handlers know what the multiplexer holds of them, but for what they will yet hear of. -/
def Knows (past : List Entry) (b : Ledger) : Prop :=
  ∀ h ∈ b.registry.live, (forget h.peer h.handedSockets b.waiting).Perm (heldSockets h.peer past)

/-- Live handlers know what the multiplexer holds of them, and of peers without one it
holds nothing. -/
structure Accounts (past : List Entry) (b : Ledger) : Prop where
  live : Knows past b
  gone : ∀ peer, ¬b.registry.HasLive peer → heldSockets peer past = [] ∧ ¬HoldsWriter peer past

theorem knows_blank (instanceId : InstanceId) (frameBuffer : Nat) :
    Knows [] (Controller.blank instanceId frameBuffer) := by
  simp [Knows, Controller.blank, Registry.live]

theorem accounts_blank (instanceId : InstanceId) (frameBuffer : Nat) :
    Accounts [] (Controller.blank instanceId frameBuffer) where
  live := knows_blank instanceId frameBuffer
  gone _ _ := ⟨rfl, fun hholds => hholds.1 rfl⟩

theorem holdsWriter_silent (x : Happening) :
    HoldsWriter peer (past ++ [⟨none, x⟩]) ↔ HoldsWriter peer past := by
  have hnone : history peer (past ++ [⟨none, x⟩]) = history peer past := by
    rw [history_append]
    exact List.append_nil _
  rw [HoldsWriter, hnone, ← HoldsWriter]

theorem held_of_others (past : List Entry) (hmarked : ∀ e ∈ entries, e.peer.isSome)
    (hnone : history peer entries = []) :
    heldSockets peer (past ++ entries) = heldSockets peer past ∧
      (HoldsWriter peer (past ++ entries) ↔ HoldsWriter peer past) := by
  refine ⟨?_, by rw [HoldsWriter, HoldsWriter, history_append, hnone, List.append_nil]⟩
  rw [heldSockets_append, foldl_holding hmarked, hnone]
  exact List.append_nil _

theorem Accounts.gone_step (haccounts : Accounts past b) (hstep : Step b entries b')
    (hmarked : ∀ e ∈ entries, e.peer.isSome) (peer : PeerId) (hgone : ¬b'.registry.HasLive peer) :
    heldSockets peer (past ++ entries) = [] ∧ ¬HoldsWriter peer (past ++ entries) := by
  obtain ⟨hgone, hnone⟩ := hstep.absent hgone
  obtain ⟨hsockets, hwriter⟩ := held_of_others past hmarked hnone
  rw [hsockets, hwriter]
  exact haccounts.gone peer hgone

/-- Where handlers come to know of what is taken, and forget what they hear of, they know
what is held. -/
theorem Knows.round {R : Handler → List Happening → Handler → Prop} {r r' : Registry}
    {waiting : List Disconnection} (hknows : Knows past b) (hord : b.InOrder)
    (hlive : r.live = b.registry.live) (hround : Round R r entries r')
    (hlearns : ∀ h ∈ b.registry.live, ∀ did h', R h did h' → h'.peer = h.peer ∧
      (forget h.peer h'.handedSockets waiting).Perm
        (forget h.peer h.handedSockets b.waiting ++ takenSockets did)) :
    ∀ h ∈ r'.live,
      (forget h.peer h.handedSockets waiting).Perm (heldSockets h.peer (past ++ entries)) := by
  have heach := hround.live
  rw [hlive] at heach
  intro h' hh'
  obtain ⟨h, hh, hdid⟩ := heach.before hord.live_peers hh'
  obtain ⟨hpeer, hknown⟩ := hlearns h hh _ _ hdid
  rw [hpeer, heldSockets_append, foldl_holding heach.isSome]
  exact hknown.trans ((hknows h hh).append_right _)

theorem learns_of_stops {h h' : Handler} {did : List Happening} (hstops : Stops h did h')
    (waiting : List Disconnection) :
    h'.peer = h.peer ∧ (forget h.peer h'.handedSockets waiting).Perm
      (forget h.peer h.handedSockets waiting ++ takenSockets did) := by
  refine ⟨(stops_behaves.name hstops).1, ?_⟩
  rw [hstops.handed.1, hstops.handed.2, List.append_nil]

theorem Step.knows (hstep : Step b entries b') (hkept : Kept past b) (hknows : Knows past b) :
    Knows (past ++ entries) b' := by
  cases hstep with
  | reports m =>
    intro h hh
    rw [heldSockets_append]
    exact hknows h hh
  | fetches ds hnone =>
    intro h hh
    have hlive := hknows h hh
    rw [hnone] at hlive
    rw [heldSockets_append]
    exact forget_perm hlive ds
  | @adds table _ _ hs h _ _ hbegins =>
    intro x hx
    obtain hx | rfl := mem_live_insert.1 hx
    · have hissued := hkept.inOrder.live_issued hx
      have hother : history x.peer (marked b.nextPeer hs) = [] := by
        apply history_marked_of_ne
        rintro heq
        rw [heq] at hissued
        exact Nat.lt_irrefl _ hissued
      rw [(held_of_others past (marked_isSome _ _) hother).1]
      exact hknows x hx
    · obtain ⟨hhanded, htaken⟩ := hbegins.handed
      have hunheard := hkept.chronicle.unborn b.nextPeer (Nat.le_refl _)
      rw [hhanded, forget_nil, hbegins.spec.1, heldSockets_append,
      foldl_holding (marked_isSome _ _), heldSockets_of_untaken (by rw [hunheard]; rfl),
        history_marked_self, htaken]
      exact .refl _
  | stops _ hround =>
    have hknown := hknows.round hkept.inOrder rfl hround fun x _ did x' hdid => by
      obtain ⟨-, hdid⟩ | ⟨-, rfl, rfl⟩ := hdid.cases
      · exact learns_of_stops hdid b.waiting
      · exact ⟨rfl, .of_eq (List.append_nil _).symm⟩
    exact hknown
  | forgets =>
    rw [List.append_nil]
    exact hknows
  | @hears d rest _ r hqueue hround =>
    refine hknows.round hkept.inOrder rfl hround fun x _ did x' hdid => ?_
    refine ⟨(((hears_behaves d.socket).only _).name hdid).1, ?_⟩
    rw [hqueue, forget, forget, List.foldl_cons]
    obtain ⟨htest, hdid⟩ | ⟨htest, rfl, rfl⟩ := hdid.cases
    · rw [hdid.handed.1, hdid.handed.2, if_pos (of_decide_eq_true htest).symm, List.append_nil]
    · rw [if_neg fun heq => htest (decide_eq_true heq.symm)]
      exact .of_eq (List.append_nil _).symm
  | polls hnone hround =>
    refine hknows.round hkept.inOrder rfl hround fun x hx did x' hdid => ?_
    rw [hnone]
    exact ⟨(moves_behaves.name hdid).1, hdid.handed (hkept.inOrder.atRest.live x hx).sound⟩
  | promotes =>
    rw [List.append_nil]
    exact fun h hh => hknows h (b.registry.live_promote.mem_iff.2 hh)

theorem OpenStep.knows (hstep : OpenStep b entries b') (hkept : Kept past b)
    (hknows : Knows past b) :
    Knows (past ++ entries) b' := by
  cases hstep with
  | works hstep => exact hstep.knows hkept hknows
  | reaps hreaps =>
    intro h hh
    obtain ⟨hlive, -, hnone⟩ := hreaps.stays hkept.inOrder.live_peers hh
    rw [(held_of_others past hreaps.each.isSome hnone).1]
    exact hknows h hlive

theorem AnyStep.knows (hstep : AnyStep b entries b') (hkept : Kept past b) (hknows : Knows past b) :
    Knows (past ++ entries) b' := by
  cases hstep with
  | goesOn hstep => exact hstep.knows hkept hknows
  | asksAll voluntary _ hround =>
    have hknown := hknows.round (r := { b.registry with voluntary }) hkept.inOrder rfl hround
      fun _ _ _ _ hdid => learns_of_stops hdid b.waiting
    exact hknown
  | readsClock =>
    intro h hh
    rw [heldSockets_append]
    exact hknows h hh
  | closes => simp [Knows, Registry.live]

theorem Step.accounts (hstep : Step b entries b') (hkept : Kept past b)
    (haccounts : Accounts past b) :
    Accounts (past ++ entries) b' := by
  have hgone := haccounts.gone_step hstep
  refine ⟨hstep.knows hkept haccounts.live, ?_⟩
  cases hstep with
  | reports m =>
    intro peer hgone
    rw [heldSockets_append, holdsWriter_silent]
    exact haccounts.gone peer hgone
  | fetches ds hnone =>
    intro peer hgone
    obtain ⟨hsockets, hwriter⟩ := haccounts.gone peer hgone
    rw [heldSockets_append, holdsWriter_silent, hsockets]
    exact ⟨forget_nil ds, hwriter⟩
  | adds => exact hgone (marked_isSome _ _)
  | stops _ hround | hears _ hround | polls _ hround => exact hgone hround.live.isSome
  | forgets =>
    rw [List.append_nil]
    exact haccounts.gone
  | promotes =>
    rw [List.append_nil]
    exact fun peer hgone => haccounts.gone peer (not_hasLive_promote hgone)

theorem OpenStep.accounts (hstep : OpenStep b entries b') (hkept : Kept past b)
    (haccounts : Accounts past b) :
    Accounts (past ++ entries) b' := by
  cases hstep with
  | works hstep => exact hstep.accounts hkept haccounts
  | @reaps _ r hreaps =>
    have hpeers := hkept.inOrder.live_peers
    have hmarked := hreaps.each.isSome
    refine ⟨(OpenStep.reaps hreaps).knows hkept haccounts.live, fun peer hgone => ?_⟩
    · obtain ⟨hgone, hnone⟩ | ⟨h, hh, rfl, hends⟩ := hreaps.absent hpeers hgone
      · obtain ⟨hsockets, hwriter⟩ := held_of_others past hmarked hnone
        rw [hsockets, hwriter]
        exact haccounts.gone peer hgone
      · obtain ⟨hlive, hdrained⟩ := List.mem_filter.1 hh
        obtain ⟨table, hlife⟩ := hkept.life hlive
        obtain ⟨hsockets, hwriter⟩ := (hlife.isDrained_iff (phase_of_isDrained hdrained)).1 hdrained
        have hheld := haccounts.live h hlive
        rw [hsockets, forget_nil] at hheld
        refine ⟨?_, fun hholds => ?_⟩
        · rw [heldSockets_append, foldl_holding hmarked, hends, hheld.symm.eq_nil]
          rfl
        · obtain ⟨htaken, hkeeps⟩ := hholds
          rw [history_append, hends] at htaken hkeeps
          rw [takenWriters_append] at htaken
          rw [freedPeers_append, List.mem_append, not_or] at hkeeps
          have hnone : takenWriters (endings h (b.registry.verdict h)) = [] := rfl
          rw [hnone, List.append_nil] at htaken
          exact hwriter.elim htaken hkeeps.1

end Ledger

/-! ### Ticks -/

namespace Controller

open Ledger

variable {settings : Settings} {c c' : Controller} {asked more : List PeerId}

/-- Whatever happens in a run on nobody's behalf is of these kinds. -/
theorem Run.impersonal (hrun : Run settings past c) {e : Entry} (he : e ∈ past)
    (hnone : e.peer = none) :
    e.happening.IsImpersonal := by
  have hsteps : ∀ past b entries b', (∀ e ∈ past, e.peer = none → e.happening.IsImpersonal) →
      AnyStep b entries b' → ∀ e ∈ past ++ entries, e.peer = none → e.happening.IsImpersonal :=
    fun _ _ _ _ hpast hstep => List.forall_mem_append.2 ⟨hpast, fun _ => hstep.impersonal⟩
  obtain ⟨asked, hway, -⟩ := hrun.way
  have hall := hway.invariant hsteps (List.forall_mem_nil _)
  rw [List.nil_append] at hall
  exact hall e he hnone

theorem Ticks.undrained {now : Instant} {busy : Bool} (hticks : Ticks c now entries more busy c')
    (hord : (c.ledger asked []).InOrder) {h : Handler} (hh : h ∈ c'.registry.live) :
    h.isDrained = false := by
  obtain ⟨c₁, _, _, _, r, -, hfirst, -, hreaps, rfl, -⟩ := hticks.way hord
  have hord₁ : (c₁.ledger (asked ++ more) []).InOrder :=
    inOrder_of_works hfirst hord
  exact (hreaps.stays hord₁.live_peers hh).2.1

theorem OpenRun.accounts (hrun : OpenRun settings past c asked) :
    Accounts past (c.ledger asked []) :=
  hrun.invariant (accounts_blank · _) fun _ _ _ _ hkept haccounts hstep =>
    hstep.accounts hkept haccounts

theorem OpenRun.hasLive_of_held (hrun : OpenRun settings past c asked)
    (hheld : heldSockets peer past ≠ [] ∨ HoldsWriter peer past) : c.registry.HasLive peer := by
  refine Classical.byContradiction fun hgone => ?_
  obtain ⟨hsockets, hwriter⟩ := hrun.accounts.gone peer hgone
  exact hheld.elim (fun hsome => hsome hsockets) hwriter

/-- After a tick a handler that has turned to stopping is live exactly if the multiplexer holds
a socket of it, or its writer.  So as long as anything is held of a handler, the handler is
live and its table active; and a handler whose writer was not taken before it turned to
stopping has ended. -/
theorem OpenRun.stays_while_held (hrun : OpenRun settings past c asked) {now : Instant}
    {busy : Bool} (hruns : ((tick now).run c).Runs entries (busy, c')) :
    (∀ peer, Phase.stopping.name ∈ phases (history peer (past ++ entries)) →
      (c'.registry.HasLive peer ↔
        heldSockets peer (past ++ entries) ≠ [] ∨ HoldsWriter peer (past ++ entries))) ∧
    (∀ peer, heldSockets peer (past ++ entries) ≠ [] ∨ HoldsWriter peer (past ++ entries) →
      ∃ h ∈ c'.registry.live, h.peer = peer ∧ c'.registry.isActive h.tableName) ∧
    ∀ peer before after,
      history peer (past ++ entries) = before ++ .reported (.phaseEntered Phase.stopping.name) ::
        after →
      takenWriters before = [] → ¬c'.registry.HasLive peer := by
  obtain ⟨more, hticks⟩ := tick_iff.1 hruns
  have hrun' := hrun.goesOn (.tick now hticks)
  have hkept := hrun'.kept
  have hstays : ∀ h ∈ c'.registry.live,
      Phase.stopping.name ∈ phases (history h.peer (past ++ entries)) →
      heldSockets h.peer (past ++ entries) ≠ [] ∨ HoldsWriter h.peer (past ++ entries) := by
    intro h hh hturned
    obtain ⟨table, hlife⟩ := hkept.life hh
    have hphase : h.phase = .stopping := Classical.byContradiction fun hphase =>
      hlife.stopping_iff.1 hturned (atWork_of_live (hkept.inOrder.atRest.live h hh).live hphase)
    have hundrained := hticks.undrained hrun.inOrder hh
    rw [← Bool.not_eq_true, hlife.isDrained_iff hphase, Classical.not_and_iff_not_or_not,
      not_or] at hundrained
    refine hundrained.imp_left fun hsome hnone => hsome ?_
    have hheld := hrun'.accounts.live h hh
    rw [hnone] at hheld
    exact hheld.eq_nil
  refine ⟨fun peer hturned => ⟨?_, hrun'.hasLive_of_held⟩, fun peer hheld => ?_,
    fun peer before after hsplit hnone => ?_⟩
  · rintro ⟨h, hh, rfl⟩
    exact hstays h hh hturned
  · obtain ⟨h, hh, hpeer⟩ := hrun'.hasLive_of_held hheld
    refine ⟨h, hh, hpeer, ?_⟩
    unfold isActive
    rw [List.contains_iff_mem]
    exact hkept.inOrder.active.mem_iff.2 (List.mem_map_of_mem hh)
  · rintro ⟨h, hh, rfl⟩
    obtain ⟨table, hlife⟩ := hkept.life hh
    have hwriters := hlife.takenWriters_of_stopping hsplit
    have hturned : Phase.stopping.name ∈ phases (history h.peer (past ++ entries)) := by
      rw [hsplit, phases_append]
      exact List.mem_append_right _ List.mem_cons_self
    obtain hsockets | hwriter := hstays h hh hturned
    · refine hlife.takenWriters_of_sockets (fun huntaken => ?_) (hwriters.trans hnone)
      exact hsockets (heldSockets_of_untaken huntaken)
    · exact hwriter.1 (hwriters.trans hnone)

/-- When one of two sockets was dropped, the handler stays until the other one is, too. -/
theorem stay_rehearsed :
    heldSockets .first (dropped 1).past = [⟨2⟩] ∧ (dropped 1).controller.registry.HasLive .first ∧
    heldSockets .first (dropped 2).past = [] ∧ ¬(dropped 2).controller.registry.HasLive .first := by
  have hheld : heldSockets .first (dropped 1).past = [⟨2⟩] := by decide +kernel
  have hnone : heldSockets .first (dropped 2).past = [] := by decide +kernel
  have hfreed : PeerId.first ∈ freedPeers (history .first (dropped 2).past) := by decide +kernel
  have hruns := fun n => Dialogue.perform_runs Rehearsal.world ((tick 0).run (dropped n).controller)
    (dropped n).outside
  have hfirst := (dropped_open (n := 0) (by decide +kernel)).stays_while_held (hruns 0)
  have hsecond := (dropped_open (n := 1) (by decide +kernel)).stays_while_held (hruns 1)
  refine ⟨hheld, (hfirst.1 .first (by decide +kernel)).2 (.inl ?_), hnone, fun hlive => ?_⟩
  · show heldSockets .first (dropped 1).past ≠ []
    rw [hheld]
    exact List.cons_ne_nil _ _
  · obtain hsockets | hwriter := (hsecond.1 .first (by decide +kernel)).1 hlive
    · exact hsockets hnone
    · exact hwriter.2 hfreed

end Controller

end ReplicaHandshake
