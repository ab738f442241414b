import ReplicaHandshake.Proofs.Controller.Performed
import ReplicaHandshake.Proofs.Handler.Failing

/-!
# How handlers end

A handler ends as it should: it was stopping, turns to its last phase, and its outcome is counted
(`Ended`).  It has stopped if it was asked to at any time of its life, and is parked otherwise.
`Ledger.Verdicts` says this of all handlers that have ended, and of the live ones what is needed for
it: the registry knows which of them were asked, and a handler that was not asked and is stopping
has failed.  So whoever is parked has failed.

`Ledger.Losses` says that a handler that failed since a socket was dropped was told so: a
disconnection of it was fetched, and the socket was opened to the master that the reason names.
-/

namespace ReplicaHandshake

open Handler Registry

variable {past entries : List Entry}

/-- A handler was stopping, and came to its end in this phase. -/
def Ended (last : Phase) (hs : List Happening) : Prop :=
  ∃ before tableName masters,
    hs = before ++
      [.reported (.phaseEntered last.name), .reported (.handlerOutcome tableName (outcome last))] ∧
    before.head? = some (.noted (.started tableName masters)) ∧
    (phases before).getLast? = some Phase.stopping.name

theorem Handler.Life.ended {table : TableSettings} {hs : List Happening} {h : Handler}
    (hlife : Life table hs h) (hphase : h.phase = .stopping) (last : Phase) :
    Ended last (hs ++ endings h last) := by
  refine ⟨hs, h.tableName, table.masters.length, rfl, ?_, ?_⟩
  · rw [hlife.tableName]
    exact hlife.announces.2
  · rw [hlife.phase, hphase]

namespace Registry

variable {r r' : Registry}

theorem verdict_eq_of_iff {h : Handler} {asked : List PeerId}
    (hasked : h.peer ∈ r.voluntary ↔ h.peer ∈ asked) :
    r.verdict h = if h.peer ∈ asked then .stopped else .distressed := by
  unfold verdict
  simp [hasked]

theorem mem_parked {hs : List Handler} {h : Handler} :
    h ∈ r.parked hs ↔ ∃ x ∈ hs, x.peer ∉ r.voluntary ∧ { x with phase := .distressed } = h := by
  simp [parked, and_assoc]

end Registry

namespace Ledger

variable {b b' : Ledger}

/-! ### Verdicts -/

/-- Those that were asked to stop have stopped or are going to, and all others that end were parked
and have failed. -/
structure Verdicts (past : List Entry) (b : Ledger) : Prop where
  asked : ∀ h ∈ b.registry.live, h.peer ∈ b.registry.voluntary ↔ h.peer ∈ b.asked
  issued : ∀ peer ∈ b.asked, peer.number < b.nextPeer.number
  excused : ∀ h ∈ b.registry.live, h.peer ∉ b.asked → h.Excused
  ended : ∀ peer, history peer past ≠ [] → ¬b.registry.HasLive peer →
    Ended (if peer ∈ b.asked then .stopped else .distressed) (history peer past) ∧
      (peer ∈ b.asked ∨ failures (history peer past) ≠ [])
  parked : ∀ h ∈ b.registry.distressed, h.peer ∉ b.asked ∧ h.failure.isSome

theorem verdicts_blank (instanceId : InstanceId) (frameBuffer : Nat) :
    Verdicts [] (Controller.blank instanceId frameBuffer) where
  asked := by simp [Controller.blank, live]
  issued := by simp [Controller.blank]
  excused := by simp [Controller.blank, live]
  ended _ hsome := absurd rfl hsome
  parked := by simp [Controller.blank]

theorem Verdicts.ended_step (hverdicts : Verdicts past b) (hstep : Step b entries b')
    (hasked : ∀ peer, ¬b.registry.HasLive peer → (peer ∈ b'.asked ↔ peer ∈ b.asked)) (peer : PeerId)
    (hsome : history peer (past ++ entries) ≠ []) (hgone : ¬b'.registry.HasLive peer) :
    Ended (if peer ∈ b'.asked then .stopped else .distressed) (history peer (past ++ entries)) ∧
      (peer ∈ b'.asked ∨ failures (history peer (past ++ entries)) ≠ []) := by
  obtain ⟨hgone, hnone⟩ := hstep.absent hgone
  rw [history_append, hnone, List.append_nil] at hsome ⊢
  rw [ite_congr (propext (hasked peer hgone)) (fun _ => rfl) fun _ => rfl, hasked peer hgone]
  exact hverdicts.ended peer hsome hgone

/-- In a round in which nobody stops but those that have failed, whoever was asked stays so. -/
theorem Verdicts.round {R : Handler → List Happening → Handler → Prop} {r : Registry}
    (hverdicts : Verdicts past b) (hround : Round R b.registry entries r) (hR : Behaves R)
    (hexcuses : ∀ h did h', R h did h' → h.Excused → h'.Excused) :
    (∀ h ∈ r.live, h.peer ∈ r.voluntary ↔ h.peer ∈ b.asked) ∧ ∀ h ∈ r.live, h.peer ∉ b.asked →
      h.Excused := by
  refine ⟨fun h' hh' => ?_, fun h' hh' hnot => ?_⟩
  · obtain ⟨h, hh, did, hdid⟩ := hround.live.origin hh'
    rw [hround.voluntary, (hR.name hdid).1]
    exact hverdicts.asked h hh
  · obtain ⟨h, hh, did, hdid⟩ := hround.live.origin hh'
    rw [(hR.name hdid).1] at hnot
    exact hexcuses h did h' hdid (hverdicts.excused h hh hnot)

theorem Verdicts.not_asked (hverdicts : Verdicts past b) (hord : b.InOrder) :
    b.nextPeer ∉ b.asked ∧ b.nextPeer ∉ b.registry.voluntary := by
  refine ⟨fun hmem => Nat.lt_irrefl _ (hverdicts.issued _ hmem), fun hmem => ?_⟩
  obtain ⟨x, hx, hsame, -⟩ := hord.heeds _ hmem
  have hissued := hord.live_issued hx
  rw [hsame] at hissued
  exact Nat.lt_irrefl _ hissued

theorem others_of_stops {h : Handler} {r : Registry} (hord : b.InOrder) (hh : h ∈ b.registry.live)
    (hround : Round (Only (·.tableName = h.tableName) Stops) b.registry entries r) {x : Handler}
    (hx : x ∈ r.live) (hother : x.peer ≠ h.peer) : x ∈ b.registry.live := by
  obtain ⟨y, hy, did, hdid⟩ := hround.live.origin hx
  obtain ⟨htest, hstops⟩ | ⟨-, -, rfl⟩ := hdid.cases
  · obtain rfl := eq_of_nodup_map hord.live_names hh hy (of_decide_eq_true htest)
    exact absurd (stops_behaves.name hstops).1 hother
  · exact hy

theorem Step.verdicts (hstep : Step b entries b') (hord : b.InOrder) (hverdicts : Verdicts past b) :
    Verdicts (past ++ entries) b' := by
  have hended := hverdicts.ended_step hstep
  cases hstep with
  | reports | fetches =>
    exact ⟨hverdicts.asked, hverdicts.issued, hverdicts.excused, hended fun _ _ => .rfl,
      hverdicts.parked⟩
  | @adds table _ _ _ h _ _ hbegins =>
    obtain ⟨hnew, hfresh⟩ := hverdicts.not_asked hord
    refine ⟨fun x hx => ?_, fun peer hmem => ?_, fun x hx hnot => ?_, hended fun _ _ => .rfl,
      fun x hx => ?_⟩
    · obtain hx | rfl := mem_live_insert.1 hx
      · exact hverdicts.asked x hx
      · rw [hbegins.spec.1]
        exact iff_of_false hfresh hnew
    · exact Nat.lt_trans (hverdicts.issued peer hmem) b.nextPeer.number_lt_next
    · obtain hx | rfl := mem_live_insert.1 hx
      · exact hverdicts.excused x hx hnot
      · exact hbegins.excused rfl
    · exact hverdicts.parked x (List.mem_filter.1 hx).1
  | @stops h _ r hh hround =>
    refine ⟨fun x' hx' => ?_, fun peer hmem => ?_, fun x hx hnot => ?_, hended fun peer hgone => ?_,
      fun x hx => ?_⟩
    · obtain ⟨x, hx, did, hdid⟩ := hround.live.origin hx'
      show x'.peer ∈ r.voluntary.insert h.peer ↔ x'.peer ∈ b.asked ++ [h.peer]
      rw [List.mem_insert_iff, List.mem_append, List.mem_singleton, hround.voluntary,
        ((stops_behaves.only _).name hdid).1, hverdicts.asked x hx, or_comm]
    · obtain hmem | hmem := List.mem_append.1 hmem
      · exact hverdicts.issued peer hmem
      · rw [List.mem_singleton.1 hmem]
        exact hord.live_issued hh
    · rw [List.mem_append, List.mem_singleton, not_or] at hnot
      exact hverdicts.excused x (others_of_stops hord hh hround hx hnot.2) hnot.1
    · rw [List.mem_append, List.mem_singleton]
      refine or_iff_left ?_
      rintro rfl
      exact hgone ⟨h, hh, rfl⟩
    · have hx : x ∈ b.registry.distressed := hround.distressed ▸ hx
      obtain ⟨hnot, hfailed⟩ := hverdicts.parked x hx
      rw [List.mem_append, List.mem_singleton]
      exact ⟨not_or.2 ⟨hnot, (hord.peer_ne_of_parked hh hx).symm⟩, hfailed⟩
  | forgets =>
    exact ⟨hverdicts.asked, hverdicts.issued, hverdicts.excused, hended fun _ _ => .rfl,
      fun h hh => hverdicts.parked h (List.mem_filter.1 hh).1⟩
  | @hears d _ _ r _ hround =>
    obtain ⟨hasked, hexcused⟩ := hverdicts.round hround ((hears_behaves _).only _) <| by
      intro h did h' hdid hexcused
      obtain ⟨-, hdid⟩ | ⟨-, -, rfl⟩ := hdid.cases
      · exact hdid.excused hexcused
      · exact hexcused
    exact ⟨hasked, hverdicts.issued, hexcused, hended fun _ _ => .rfl,
      fun h hh => hverdicts.parked h (hround.distressed ▸ hh)⟩
  | polls _ hround =>
    obtain ⟨hasked, hexcused⟩ := hverdicts.round hround moves_behaves fun _ _ _ => Moves.excused
    exact ⟨hasked, hverdicts.issued, hexcused, hended fun _ _ => .rfl,
      fun h hh => hverdicts.parked h (hround.distressed ▸ hh)⟩
  | promotes =>
    have hlive := fun h => b.registry.live_promote.mem_iff (a := h)
    exact ⟨fun h hh => hverdicts.asked h ((hlive h).2 hh), hverdicts.issued,
      fun h hh => hverdicts.excused h ((hlive h).2 hh), hended fun _ _ => .rfl, hverdicts.parked⟩

theorem OpenStep.verdicts (hstep : OpenStep b entries b') (hkept : Kept past b)
    (hverdicts : Verdicts past b) :
    Verdicts (past ++ entries) b' := by
  cases hstep with
  | works hstep => exact hstep.verdicts hkept.inOrder hverdicts
  | @reaps _ r hreaps =>
    have hpeers := hkept.inOrder.live_peers
    refine ⟨fun h hh => ?_, hverdicts.issued, fun h hh => ?_, fun peer hsome hgone => ?_,
      fun h hh => ?_⟩
    · obtain ⟨hlive, hundrained, -⟩ := hreaps.stays hpeers hh
      have hleft : (b.registry.drained.all fun x => decide (x.peer ≠ h.peer)) = true := by
        apply List.all_eq_true.2
        intro x hx
        apply decide_eq_true
        intro hsame
        obtain ⟨hx, hdrained⟩ := List.mem_filter.1 hx
        obtain rfl := eq_of_nodup_map hpeers hlive hx hsame
        rw [hundrained] at hdrained
        cases hdrained
      rw [Settles.voluntary hreaps, List.mem_filter, and_iff_left hleft]
      exact hverdicts.asked h hlive
    · exact hverdicts.excused h (hreaps.stays hpeers hh).1
    · rw [history_append] at hsome ⊢
      obtain ⟨hgone, hnone⟩ | ⟨h, hh, rfl, hends⟩ := hreaps.absent hpeers hgone
      · rw [hnone, List.append_nil] at hsome ⊢
        exact hverdicts.ended peer hsome hgone
      · obtain ⟨hlive, hdrained⟩ := List.mem_filter.1 hh
        obtain ⟨table, hlife⟩ := hkept.life hlive
        have hphase := phase_of_isDrained hdrained
        rw [hends, verdict_eq_of_iff (hverdicts.asked h hlive)]
        refine ⟨hlife.ended hphase _, ?_⟩
        by_cases hnot : h.peer ∈ b.asked
        · exact .inl hnot
        · rw [failures_append]
          refine .inr (List.append_ne_nil_of_left_ne_nil ?_ _)
          exact hlife.failures_ne_nil (hverdicts.excused h hlive hnot hphase)
    · rw [Settles.distressed hreaps, List.mem_append] at hh
      obtain hh | hh := hh
      · exact hverdicts.parked h hh
      · obtain ⟨x, hx, hnot, rfl⟩ := mem_parked.1 hh
        obtain ⟨hlive, hdrained⟩ := List.mem_filter.1 hx
        have hnot : x.peer ∉ b.asked := fun hmem => hnot ((hverdicts.asked x hlive).2 hmem)
        exact ⟨hnot, hverdicts.excused x hlive hnot (phase_of_isDrained hdrained)⟩

/-! ### Losses -/

/-- If the handler failed since a socket was dropped, then a disconnection of this
socket was fetched. -/
def Lost (past : List Entry) (h : Handler) : Prop :=
  ∀ endpoint, h.failure = some (.dropped endpoint) → ∃ socket,
    (endpoint, socket) ∈ openings (history h.peer past) ∧
      ⟨h.peer, socket⟩ ∈ disconnections (happenings past)

theorem Lost.mono {h : Handler} (hlost : Lost past h) (entries : List Entry) :
    Lost (past ++ entries) h := by
  intro endpoint hdropped
  obtain ⟨socket, hopened, hfetched⟩ := hlost endpoint hdropped
  refine ⟨socket, ?_, ?_⟩
  · rw [history_append, openings_append]
    exact List.mem_append_left _ hopened
  · rw [happenings_append, disconnections_append]
    exact List.mem_append_left _ hfetched

theorem Lost.keeps {h h' : Handler} (hlost : Lost past h) (hpeer : h'.peer = h.peer)
    (hdropped : ∀ endpoint, h'.failure = some (.dropped endpoint) →
      h.failure = some (.dropped endpoint)) :
    Lost past h' := by
  intro endpoint h'dropped
  rw [hpeer]
  exact hlost endpoint (hdropped endpoint h'dropped)

/-- All that waits was fetched, and so was the disconnection of every socket that was lost. -/
structure Losses (past : List Entry) (b : Ledger) : Prop where
  waiting : ∀ d ∈ b.waiting, d ∈ disconnections (happenings past)
  lost : ∀ h ∈ b.registry.handlers, Lost past h

theorem losses_blank (instanceId : InstanceId) (frameBuffer : Nat) :
    Losses [] (Controller.blank instanceId frameBuffer) where
  waiting := by simp [Controller.blank]
  lost := by simp [Controller.blank, handlers, live]

theorem Losses.round {R : Handler → List Happening → Handler → Prop} {r : Registry}
    (hlosses : Losses past b) (hround : Round R b.registry entries r)
    (hloses : ∀ h ∈ b.registry.live, ∀ did h', R h did h' → Lost past h → Lost past h') :
    ∀ h ∈ r.handlers, Lost (past ++ entries) h := by
  intro h' hh'
  apply Lost.mono
  obtain hh' | hh' := List.mem_append.1 hh'
  · obtain ⟨h, hh, did, hdid⟩ := hround.live.origin hh'
    exact hloses h hh did h' hdid (hlosses.lost h (List.mem_append_left _ hh))
  · exact hlosses.lost h' (List.mem_append_right _ (hround.distressed ▸ hh'))

theorem Losses.waiting_mono (hlosses : Losses past b) (entries : List Entry) {d : Disconnection}
    (hd : d ∈ b.waiting) : d ∈ disconnections (happenings (past ++ entries)) := by
  rw [happenings_append, disconnections_append]
  exact List.mem_append_left _ (hlosses.waiting d hd)

theorem lost_of_begins {h₀ h : Handler} {hs : List Happening} (hnone : h₀.failure = none)
    (hbegins : Begins h₀ hs h) : Lost past h := by
  intro endpoint hdropped
  cases hbegins with
  | opens => exact absurd (hnone.symm.trans hdropped) (by simp)
  | fails =>
    have hfailed : h₀.failure.or (some (.failed _)) = some (.dropped endpoint) := hdropped
    rw [hnone] at hfailed
    cases hfailed

theorem Step.losses (hstep : Step b entries b') (hkept : Kept past b) (hlosses : Losses past b) :
    Losses (past ++ entries) b' := by
  have hwaiting := fun d hd => hlosses.waiting_mono entries (d := d) hd
  have hlost := fun h hh => (hlosses.lost h hh).mono entries
  cases hstep with
  | reports => exact ⟨hwaiting, hlost⟩
  | adds hvalid hinactive hbegins =>
    refine ⟨hwaiting, fun x hx => ?_⟩
    obtain hx | hx := List.mem_append.1 hx
    · obtain hx | rfl := mem_live_insert.1 hx
      · exact hlost x (List.mem_append_left _ hx)
      · exact lost_of_begins rfl hbegins
    · exact hlost x (List.mem_append_right _ (List.mem_filter.1 hx).1)
  | @stops _ _ r _ hround =>
    suffices hlost : ∀ h ∈ r.handlers, Lost (past ++ entries) h from ⟨hwaiting, hlost⟩
    refine hlosses.round hround fun h hh did h' hdid hlost => ?_
    refine hlost.keeps ((stops_behaves.only _).name hdid).1 fun endpoint hdropped => ?_
    obtain ⟨-, hdid⟩ | ⟨-, -, rfl⟩ := hdid.cases
    · rwa [hdid.failure] at hdropped
    · exact hdropped
  | forgets tableName =>
    refine ⟨hwaiting, fun h hh => hlost h ?_⟩
    exact (List.filter_sublist.append_left b.registry.live).subset hh
  | fetches ds =>
    refine ⟨fun d hd => ?_, hlost⟩
    rw [happenings_append, disconnections_append]
    exact List.mem_append_right _ (List.mem_append_left _ hd)
  | @hears d rest _ _ hqueue hround =>
    refine ⟨fun x hx => hwaiting x (hqueue ▸ List.mem_cons_of_mem d hx),
      hlosses.round hround fun h hh did h' hdid hlost endpoint hdropped => ?_⟩
    have hpeer := (((hears_behaves d.socket).only _).name hdid).1
    rw [hpeer]
    obtain ⟨htest, hdid⟩ | ⟨-, -, rfl⟩ := hdid.cases
    · obtain ⟨table, hlife⟩ := hkept.life hh
      obtain hdropped | hopened := hdid.dropped hlife hdropped
      · exact hlost endpoint hdropped
      · refine ⟨d.socket, hopened, ?_⟩
        rw [of_decide_eq_true htest]
        exact hlosses.waiting d (hqueue ▸ List.mem_cons_self)
    · exact hlost endpoint hdropped
  | polls _ hround =>
    refine ⟨hwaiting, hlosses.round hround fun h hh did h' hdid hlost => ?_⟩
    exact hlost.keeps (moves_behaves.name hdid).1 fun endpoint => hdid.dropped
  | promotes =>
    refine ⟨hwaiting, fun h hh => hlost h ?_⟩
    exact (b.registry.live_promote.append_right _).mem_iff.2 hh

theorem OpenStep.losses (hstep : OpenStep b entries b') (hkept : Kept past b)
    (hlosses : Losses past b) :
    Losses (past ++ entries) b' := by
  cases hstep with
  | works hstep => exact hstep.losses hkept hlosses
  | reaps hreaps =>
    refine ⟨fun d hd => hlosses.waiting_mono entries hd, fun h hh => ?_⟩
    obtain hh | hh := List.mem_append.1 hh
    · exact (hlosses.lost h
        (List.mem_append_left _ (hreaps.stays hkept.inOrder.live_peers hh).1)).mono _
    · rw [Settles.distressed hreaps, List.mem_append] at hh
      obtain hh | hh := hh
      · exact (hlosses.lost h (List.mem_append_right _ hh)).mono _
      · obtain ⟨x, hx, -, rfl⟩ := mem_parked.1 hh
        have hlost := hlosses.lost x (List.mem_append_left _ (List.mem_filter.1 hx).1)
        exact (hlost.mono _).keeps rfl fun _ => id

end Ledger

/-! ### Ticks -/

namespace Controller

open Ledger

variable {settings : Settings} {c c' : Controller} {asked asked' more : List PeerId}

theorem Ticks.parks {now : Instant} {busy : Bool} (hticks : Ticks c now entries more busy c')
    (hkept : Kept past (c.ledger asked [])) (hverdicts : Verdicts past (c.ledger asked []))
    {peer : PeerId} (hbefore : c.registry.HasLive peer ∨ history peer past = [])
    (hsome : history peer (past ++ entries) ≠ []) (hgone : ¬c'.registry.HasLive peer) :
    (∃ h ∈ c'.registry.distressed, h.peer = peer) ↔ peer ∉ asked ++ more := by
  obtain ⟨c₁, first, reaped, counted, r, rfl, hfirst, -, hreaps, rfl, hcounted⟩ :=
    hticks.way hkept.inOrder
  obtain ⟨hkept₁, hverdicts₁⟩ := hkept.along (fun _ _ _ => .goesOn) (open_of_works hfirst)
    (fun _ _ _ _ hkept hverdicts hstep => hstep.verdicts hkept hverdicts) hverdicts
  have hord := hkept₁.inOrder
  have hnone := (absent_of_way hcounted hgone).2
  obtain ⟨hgone₁, hnone₁⟩ | ⟨h, hh, rfl, -⟩ := hreaps.absent hord.live_peers hgone
  · obtain ⟨hgone₀, hnone₀⟩ := absent_of_way hfirst hgone₁
    have hpast := hbefore.resolve_left hgone₀
    rw [history_append, hpast, history_append, hnone₀, history_append, hnone₁, hnone] at hsome
    exact absurd rfl hsome
  · have hlive := (List.mem_filter.1 hh).1
    have hasked : h.peer ∈ c₁.registry.voluntary ↔ h.peer ∈ asked ++ more :=
      hverdicts₁.asked h hlive
    rw [← hasked]
    show (∃ x ∈ r.distressed, x.peer = h.peer) ↔ _
    rw [Settles.distressed hreaps]
    constructor
    · rintro ⟨x, hx, hsame⟩
      obtain hx | hx := List.mem_append.1 hx
      · exact absurd hsame.symm (hord.peer_ne_of_parked hlive hx)
      · obtain ⟨y, -, hnot, rfl⟩ := mem_parked.1 hx
        exact hsame ▸ hnot
    · exact fun hnot => ⟨_, List.mem_append_right _ (mem_parked.2 ⟨h, hh, hnot, rfl⟩), rfl⟩

theorem OpenRun.verdicts (hrun : OpenRun settings past c asked) :
    Verdicts past (c.ledger asked []) :=
  hrun.invariant (verdicts_blank · _) fun _ _ _ _ hkept hverdicts hstep =>
    hstep.verdicts hkept hverdicts

theorem OpenRun.losses (hrun : OpenRun settings past c asked) : Losses past (c.ledger asked []) :=
  hrun.invariant (losses_blank · _) fun _ _ _ _ hkept hlosses hstep => hstep.losses hkept hlosses

/-- While a controller is open, a handler that ends was stopping before.  It has stopped exactly if
its table was removed at any time while it was live, and otherwise it is parked in the tick in which
it ends.  Whoever is parked shows a failure.  That is the only one that it reported, and if it is a
dropped socket, then a disconnection of this socket was fetched.  What a handler shows of its
failure never changes. -/
theorem OpenRun.ends_as_asked (hrun : OpenRun settings past c asked) :
    (∀ peer, history peer past ≠ [] → ¬c.registry.HasLive peer →
      Ended (if peer ∈ asked then .stopped else .distressed) (history peer past)) ∧
    (∀ now entries more busy c', Ticks c now entries more busy c' → ∀ peer,
      c.registry.HasLive peer ∨ history peer past = [] → history peer (past ++ entries) ≠ [] →
      ¬c'.registry.HasLive peer →
      ((∃ h ∈ c'.registry.distressed, h.peer = peer) ↔ peer ∉ asked ++ more)) ∧
    (∀ h ∈ c.registry.distressed, h.phase = .distressed ∧ ∃ table reason,
      Announces table (history h.peer past) ∧ h.status.failure = some reason.message ∧
      FailedOnce table (history h.peer past) reason ∧
      ∀ endpoint, reason = .dropped endpoint →
        ∃ socket, (endpoint, socket) ∈ openings (history h.peer past) ∧
        ⟨h.peer, socket⟩ ∈ disconnections (happenings past)) ∧
    ∀ entries c' asked', Way Operates (c, asked) entries (c', asked') →
      ∀ h ∈ c.registry.handlers, ∀ h' ∈ c'.registry.handlers, h'.peer = h.peer →
        ∀ text, h.status.failure = some text → h'.status.failure = some text := by
  have hkept := hrun.kept
  have hverdicts := hrun.verdicts
  refine ⟨fun peer hsome hgone => (hverdicts.ended peer hsome hgone).1,
    fun now entries more busy c' hticks peer hbefore hsome hgone => ?_, fun h hh => ?_,
    fun entries c' asked' hway h hh h' hh' hsame text htext => ?_⟩
  · exact hticks.parks hkept hverdicts hbefore hsome hgone
  · have hmem : h ∈ c.registry.handlers := List.mem_append_right _ hh
    obtain ⟨table, hlife⟩ := hkept.chronicle.lives h hmem
    obtain ⟨reason, hfailure⟩ := Option.isSome_iff_exists.1 (hverdicts.parked h hh).2
    refine ⟨hrun.inOrder.atRest.distressed h hh, table, reason, hlife.announces, ?_,
      hlife.failedOnce hfailure, ?_⟩
    · show h.failure.map StopReason.message = _
      rw [hfailure, Option.map_some]
    · rintro endpoint rfl
      exact hrun.losses.lost h hmem endpoint hfailure
  · obtain ⟨-, hopen⟩ := hrun.of_way hway
    have hhouse := (comes_of_way (any_of_open hopen) hrun.inOrder.atRest).1
    have hturns := House.turns_of_way hhouse hkept.chronicle hh hh' hsame
    obtain ⟨reason, hfailure, rfl⟩ := Option.map_eq_some_iff.1 htext
    show h'.failure.map StopReason.message = _
    rw [failure_of_way hturns hfailure, Option.map_some]

/-- A handler that loses a socket is parked, and says why; it has stopped instead if its table is
removed before it has come to its end. -/
theorem endings_rehearsed :
    Ended .distressed (history .first (dropped 2).past) ∧
    (dropped 2).controller.registry.distressed.map (·.status.failure) =
      [some "connection to 127.0.0.1:1 dropped"] ∧
    (∃ h ∈ (dropped 2).controller.registry.distressed, ∃ table reason,
      h.status.failure = some reason.message ∧
        FailedOnce table (history h.peer (dropped 2).past) reason) ∧
    Ended .stopped (history .first removed.past) ∧ removed.controller.registry.distressed = [] := by
  obtain ⟨hends, -, hparked, -⟩ := (dropped_open (n := 2) (by decide +kernel)).ends_as_asked
  obtain ⟨hstops, -⟩ := removed_open.ends_as_asked
  have hgone : (dropped 2).controller.registry.live = [] := by decide +kernel
  have hgone' : removed.controller.registry.live = [] := by decide +kernel
  have hshown : (dropped 2).controller.registry.distressed.map (·.status.failure) =
      [some "connection to 127.0.0.1:1 dropped"] := by
    decide +kernel
  refine ⟨?_, hshown, ?_, ?_, by decide +kernel⟩
  · have hended :=
      hends .first (by decide +kernel) (by rintro ⟨h, hh, -⟩; rw [hgone] at hh; cases hh)
    rwa [if_neg List.not_mem_nil] at hended
  · obtain ⟨h, rest, hdistressed, -⟩ := List.map_eq_cons_iff.1 hshown
    have hh : h ∈ (dropped 2).controller.registry.distressed := hdistressed ▸ List.mem_cons_self
    obtain ⟨-, table, reason, -, hmessage, hfailed, -⟩ := hparked h hh
    exact ⟨h, hh, table, reason, hmessage, hfailed⟩
  · have hended :=
      hstops .first (by decide +kernel) (by rintro ⟨h, hh, -⟩; rw [hgone'] at hh; cases hh)
    rwa [if_pos (List.mem_singleton.2 rfl)] at hended

end Controller

end ReplicaHandshake
