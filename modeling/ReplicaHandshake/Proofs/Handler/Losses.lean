import ReplicaHandshake.Proofs.Handler.Failing

/-!
# Losing sockets

What a live handler does when it hears that the multiplexer has closed a socket leaves nothing to
chance:  `Handler.afterLoss` says what becomes of it.  It loses the connection of which this socket
was taken, if there is one, and unless it is stopping anyway it fails (`Hears.of_handed`); if there
is none, nothing happens (`Hears.of_not_handed`).

So what is left of a handler when it has heard of many sockets depends only on which they are: the
connections of those that it had handed over go, and if there is any, then also those that were not
taken (`foldl_hearing`, `foldl_hearing_congr`).
-/

namespace ReplicaHandshake.Handler

variable {h h' : Handler} {past hs : List Happening} {table : TableSettings} {socket : SocketId}

/-! ### One socket -/

/-- What becomes of a handler that hears of a socket that was closed. -/
def afterLoss (h : Handler) (socket : SocketId) : Handler :=
  match h.connections.find? (isTakenAs socket) with
  | none => h
  | some c =>
    let left := { h with connections := h.connections.eraseP (isTakenAs socket) }
    if h.phase = .stopping then left else left.stoppedFor (.dropped c.endpoint)

theorem find?_isTakenAs :
    h.connections.find? (isTakenAs socket) = none ↔ socket ∉ h.handedSockets := by
  rw [List.find?_eq_none, handedSockets, List.mem_filterMap, not_exists]
  simp only [isTakenAs_iff, not_and]

theorem Hears.eq_afterLoss (hhears : Hears socket h hs h') : h' = h.afterLoss socket := by
  cases hhears with
  | isOther hfind => simp only [afterLoss, hfind]
  | loses _ hphase hfind heq => simp only [afterLoss, hfind, if_neg hphase, heq]
  | letsGo hphase hfind => simp only [afterLoss, hfind, if_pos hphase]

theorem afterLoss_of_not_handed (hnot : socket ∉ h.handedSockets) : h.afterLoss socket = h := by
  rw [afterLoss, find?_isTakenAs.2 hnot]

/-- Of a socket that was not handed over a handler need not know. -/
theorem Hears.of_not_handed (hhears : Hears socket h hs h') (hnot : socket ∉ h.handedSockets) :
    hs = [] ∧ h' = h := by
  have hfind := find?_isTakenAs.2 hnot
  cases hhears with
  | isOther => exact ⟨rfl, rfl⟩
  | loses _ _ hsome | letsGo _ hsome =>
    rw [hfind] at hsome
    cases hsome

/-- What it means for a handler to lose a socket that it had handed over.  The connection goes; if
the handler was not stopping anyway, then it fails and is stopping, and so those connections go as
well that were not taken, and their sockets are closed. -/
inductive Loses (socket : SocketId) : Handler → List Happening → Handler → Prop where
  | letsGo {h : Handler} {before after : List Connection} {c : Connection} :
      h.phase = .stopping → h.connections = before ++ c :: after → isTakenAs socket c →
      Loses socket h [] { h with connections := before ++ after }
  | fails {h h' : Handler} {hs : List Happening} {before after : List Connection} {c : Connection} :
      h.IsDelivering → h.connections = before ++ c :: after → isTakenAs socket c →
      h'.connections = (before ++ after).filter (·.isTransferred) → h'.phase = .stopping →
      h.failure = none → h'.failure = some (.dropped c.endpoint) →
      failures hs = ["connection_closed"] → phases hs = [Phase.stopping.name] →
      closedSockets hs = h.ownedSockets → Loses socket h hs h'

theorem split_of_find? {c : Connection} (hfind : h.connections.find? (isTakenAs socket) = some c) :
    ∃ before after, h.connections = before ++ c :: after ∧ isTakenAs socket c ∧
      h.connections.eraseP (isTakenAs socket) = before ++ after := by
  obtain ⟨hpicked, before, after, hsplit, hbefore⟩ := List.find?_eq_some_iff_append.1 hfind
  refine ⟨before, after, hsplit, hpicked, ?_⟩
  rw [hsplit, List.eraseP_append_right _ fun x hx => by simpa using hbefore x hx,
    List.eraseP_cons_of_pos hpicked]

/-- A handler that hears of a socket that it had handed over loses it. -/
theorem Hears.of_handed (hhears : Hears socket h hs h') (hlife : Life table past h)
    (hmem : socket ∈ h.handedSockets) : Loses socket h hs h' := by
  cases hhears with
  | isOther hnone => exact absurd hmem (find?_isTakenAs.1 hnone)
  | @loses h₁ c hlive hphase hfind heq =>
    have hwork := atWork_of_live hlive hphase
    have hdelivering := hlife.sound.delivering hwork (List.ne_nil_of_mem hmem)
    obtain ⟨hnone, -⟩ := hlife.fails.resolve_right fun hfailed => hfailed.1 hwork
    obtain ⟨before, after, hsplit, hpicked, hleft⟩ := split_of_find? hfind
    have hwhole := hlife.sound.toWhole
    have hcloses :=
      closes_stopFor (h := h₁) (heq ▸ (hwhole.erase (isTakenAs socket)).free) "connection_closed"
    rw [heq, ownedSockets_erase hwhole, ← heq] at hcloses
    refine .fails hdelivering hsplit hpicked ?_ rfl hnone ?_ ?_ ?_ hcloses.closed
    · rw [← hleft, heq]
      rfl
    · show h₁.failure.or _ = _
      rw [heq, show Handler.failure { h with connections := _ } = none from hnone, Option.none_or]
    · exact congrArg ("connection_closed" :: ·) h₁.failures_stop
    · exact h₁.phases_stop
  | @letsGo c hphase hfind =>
    obtain ⟨before, after, hsplit, hpicked, hleft⟩ := split_of_find? hfind
    rw [hleft]
    exact .letsGo hphase hsplit hpicked

/-! ### Many sockets -/

theorem handed_afterLoss (h : Handler) (socket : SocketId) :
    (h.afterLoss socket).handedSockets = h.handedSockets.erase socket := by
  rw [afterLoss]
  split
  next hfind => exact (List.erase_of_not_mem (find?_isTakenAs.1 hfind)).symm
  next c hfind =>
    rw [← h.handed_erase socket]
    dsimp only
    split
    · rfl
    · exact handed_stopped _

theorem peer_afterLoss (h : Handler) (socket : SocketId) : (h.afterLoss socket).peer = h.peer := by
  rw [afterLoss]
  split
  · rfl
  · dsimp only
    split <;> rfl

theorem eraseP_isTakenAs {cs : List Connection} (hnodup : (cs.filterMap (·.handedSocket?)).Nodup) :
    cs.eraseP (isTakenAs socket) = cs.filter (!isTakenAs socket ·) := by
  induction cs with
  | nil => rfl
  | cons c cs ih =>
    by_cases htaken : isTakenAs socket c
    · rw [List.eraseP_cons_of_pos htaken, List.filter_cons_of_neg (by simp [htaken]),
        List.filter_eq_self.2]
      rw [List.filterMap_cons_some (isTakenAs_iff.1 htaken), List.nodup_cons] at hnodup
      intro x hx
      rw [Bool.not_eq_true', ← Bool.not_eq_true]
      exact fun htaken => hnodup.1 (List.mem_filterMap.2 ⟨x, hx, isTakenAs_iff.1 htaken⟩)
    · rw [List.eraseP_cons_of_neg htaken, List.filter_cons_of_pos (by simpa using htaken), ih]
      exact hnodup.sublist ((List.sublist_cons_self c cs).filterMap _)

/-- What becomes of a handler that hears of a disconnection; one of another peer does
not concern it. -/
def hearing (h : Handler) (d : Disconnection) : Handler :=
  if h.peer = d.peer then h.afterLoss d.socket else h

/-- Whether a connection of this peer is one of those of which disconnections were heard. -/
def isLost (ds : List Disconnection) (peer : PeerId) (c : Connection) : Bool :=
  ds.any fun d => peer = d.peer && isTakenAs d.socket c

/-- The connections that are left when these disconnections were heard: not those that are lost, and
if there are any, not those either that were not taken. -/
def leftConnections (h : Handler) (ds : List Disconnection) : List Connection :=
  h.connections.filter fun c =>
    !isLost ds h.peer c && (!h.connections.any (isLost ds h.peer) || c.isTransferred)

/-- The phase that the handler is in when these disconnections were heard. -/
def leftPhase (h : Handler) (ds : List Disconnection) : Phase :=
  if h.connections.any (isLost ds h.peer) then .stopping else h.phase

theorem any_isLost_iff {ds : List Disconnection} :
    h.connections.any (isLost ds h.peer) = true ↔
      ∃ d ∈ ds, h.peer = d.peer ∧ d.socket ∈ h.handedSockets := by
  simp only [isLost, handedSockets, List.any_eq_true, List.mem_filterMap, Bool.and_eq_true,
    decide_eq_true_eq, isTakenAs_iff]
  constructor
  · rintro ⟨c, hc, d, hd, hpeer, htaken⟩
    exact ⟨d, hd, hpeer, c, hc, htaken⟩
  · rintro ⟨d, hd, hpeer, c, hc, htaken⟩
    exact ⟨c, hc, d, hd, hpeer, htaken⟩

theorem left_of_none {ds : List Disconnection}
    (hnone : h.connections.any (isLost ds h.peer) = false) :
    h.leftConnections ds = h.connections ∧ h.leftPhase ds = h.phase := by
  refine ⟨List.filter_eq_self.2 fun c hc => ?_, by rw [leftPhase, hnone]; rfl⟩
  rw [hnone, Bool.not_false, Bool.true_or, Bool.and_true, Bool.not_eq_true', ← Bool.not_eq_true]
  exact List.any_eq_false.1 hnone c hc

/-- The sockets that were handed over are different, and a handler that is stopping has
no other ones. -/
structure Distinct (h : Handler) : Prop where
  handed : h.handedSockets.Nodup
  stopping : h.phase = .stopping → ∀ c ∈ h.connections, c.isTransferred

theorem peer_hearing (h : Handler) (d : Disconnection) : (h.hearing d).peer = h.peer := by
  rw [hearing]
  split
  · exact h.peer_afterLoss d.socket
  · rfl

theorem afterLoss_spec (hdistinct : h.Distinct) (hmem : socket ∈ h.handedSockets) :
    (h.afterLoss socket).connections =
      (h.connections.filter fun c => !isTakenAs socket c && c.isTransferred) ∧
      (h.afterLoss socket).phase = .stopping := by
  obtain ⟨c, hfind⟩ := Option.ne_none_iff_exists'.1 (mt find?_isTakenAs.1 (not_not_intro hmem))
  have herase : h.connections.eraseP (isTakenAs socket) = _ := eraseP_isTakenAs hdistinct.handed
  simp only [afterLoss, hfind, herase]
  split
  next hphase =>
    refine ⟨List.filter_congr fun c hc => ?_, hphase⟩
    rw [hdistinct.stopping hphase c hc, Bool.and_true]
  next =>
    refine ⟨?_, rfl⟩
    show (h.connections.filter (!isTakenAs socket ·)).filter (·.isTransferred) = _
    rw [List.filter_filter]
    exact List.filter_congr fun c _ => Bool.and_comm ..

theorem hearing_of_none {d : Disconnection}
    (hnone : h.connections.any (isLost [d] h.peer) = false) :
    h.hearing d = h := by
  unfold hearing
  split
  next hpeer =>
    refine afterLoss_of_not_handed fun hmem => ?_
    rw [any_isLost_iff.2 ⟨d, List.mem_singleton_self d, hpeer, hmem⟩] at hnone
    cases hnone
  next => rfl

theorem hearing_spec (hdistinct : h.Distinct) (d : Disconnection) :
    (h.hearing d).connections = h.leftConnections [d] ∧ (h.hearing d).phase = h.leftPhase [d] := by
  cases hlost : h.connections.any (isLost [d] h.peer) with
  | false =>
    obtain ⟨hconnections, hphase⟩ := left_of_none hlost
    rw [hearing_of_none hlost, hconnections, hphase]
    exact ⟨rfl, rfl⟩
  | true =>
    obtain ⟨d', hd', hpeer, hmem⟩ := any_isLost_iff.1 hlost
    obtain rfl := List.mem_singleton.1 hd'
    obtain ⟨hconnections, hphase⟩ := afterLoss_spec hdistinct hmem
    rw [hearing, if_pos hpeer, hconnections, hphase, leftConnections, leftPhase, hlost]
    refine ⟨List.filter_congr fun c _ => ?_, rfl⟩
    simp [isLost, hpeer]

theorem hearing_distinct (hdistinct : h.Distinct) (d : Disconnection) : (h.hearing d).Distinct := by
  refine ⟨?_, fun hphase c hc => ?_⟩
  · unfold hearing
    split
    · rw [handed_afterLoss]
      exact hdistinct.handed.erase _
    · exact hdistinct.handed
  · obtain ⟨hconnections, hphase'⟩ := hearing_spec hdistinct d
    rw [hconnections] at hc
    rw [hphase', leftPhase] at hphase
    obtain ⟨hc, hkept⟩ := List.mem_filter.1 hc
    split at hphase
    next hlost => simpa [hlost] using (Bool.and_eq_true_iff.1 hkept).2
    next => exact hdistinct.stopping hphase c hc

theorem isLost_cons (d : Disconnection) (ds : List Disconnection) (peer : PeerId) (c : Connection) :
    isLost (d :: ds) peer c = (isLost [d] peer c || isLost ds peer c) := by
  simp [isLost]

theorem left_congr {ds ds' : List Disconnection}
    (hsame : ∀ c ∈ h.connections, isLost ds h.peer c = isLost ds' h.peer c) :
    h.leftConnections ds = h.leftConnections ds' ∧ h.leftPhase ds = h.leftPhase ds' := by
  have hany : h.connections.any (isLost ds h.peer) = h.connections.any (isLost ds' h.peer) := by
    rw [Bool.eq_iff_iff, List.any_eq_true, List.any_eq_true]
    exact exists_congr fun c => and_congr_right fun hc => by rw [hsame c hc]
  refine ⟨List.filter_congr fun c hc => ?_, by rw [leftPhase, hany, leftPhase]⟩
  rw [hsame c hc, hany]

theorem left_hearing (hdistinct : h.Distinct) (d : Disconnection) (rest : List Disconnection) :
    (h.hearing d).leftConnections rest = h.leftConnections (d :: rest) ∧
      (h.hearing d).leftPhase rest = h.leftPhase (d :: rest) := by
  cases hlost : h.connections.any (isLost [d] h.peer) with
  | false =>
    rw [hearing_of_none hlost]
    refine left_congr fun c hc => ?_
    rw [isLost_cons d rest, Bool.eq_false_iff.2 (List.any_eq_false.1 hlost c hc), Bool.false_or]
  | true =>
    obtain ⟨hconnections, hphase⟩ := hearing_spec hdistinct d
    have hany : h.connections.any (isLost (d :: rest) h.peer) = true := by
      obtain ⟨c, hc, hlost⟩ := List.any_eq_true.1 hlost
      exact List.any_eq_true.2 ⟨c, hc, by rw [isLost_cons, hlost, Bool.true_or]⟩
    rw [leftPhase, hlost, if_pos rfl] at hphase
    rw [leftConnections, hlost] at hconnections
    rw [leftConnections, leftPhase, leftConnections, leftPhase, hany, hphase, hconnections,
      peer_hearing, List.filter_filter]
    refine ⟨List.filter_congr fun c _ => ?_, ite_self _⟩
    rw [isLost_cons d rest]
    cases isLost [d] h.peer c <;> cases c.isTransferred <;> simp

/-- What is left of a handler that hears of one disconnection after the other. -/
theorem foldl_hearing (hdistinct : h.Distinct) (ds : List Disconnection) :
    (ds.foldl hearing h).connections = h.leftConnections ds ∧
      (ds.foldl hearing h).phase = h.leftPhase ds := by
  induction ds generalizing h with
  | nil =>
    have hnone : h.connections.any (isLost [] h.peer) = false :=
      List.any_eq_false.2 fun _ _ => Bool.false_ne_true
    obtain ⟨hconnections, hphase⟩ := left_of_none hnone
    exact ⟨hconnections.symm, hphase.symm⟩
  | cons d rest ih =>
    obtain ⟨hconnections, hphase⟩ := ih (hearing_distinct hdistinct d)
    obtain ⟨hconnections', hphase'⟩ := left_hearing hdistinct d rest
    exact ⟨hconnections.trans hconnections', hphase.trans hphase'⟩

theorem isLost_congr {ds ds' : List Disconnection} (hsame : ∀ d, d ∈ ds ↔ d ∈ ds') (peer : PeerId)
    (c : Connection) : isLost ds peer c = isLost ds' peer c := by
  rw [Bool.eq_iff_iff, isLost, isLost, List.any_eq_true, List.any_eq_true]
  exact exists_congr fun d => and_congr_left' (hsame d)

/-- Neither the order nor the number of times matters in which a handler hears of disconnections. -/
theorem foldl_hearing_congr (hdistinct : h.Distinct) {ds ds' : List Disconnection}
    (hsame : ∀ d, d ∈ ds ↔ d ∈ ds') :
    (ds.foldl hearing h).connections = (ds'.foldl hearing h).connections ∧
      (ds.foldl hearing h).phase = (ds'.foldl hearing h).phase := by
  obtain ⟨hconnections, hphase⟩ := foldl_hearing hdistinct ds
  obtain ⟨hconnections', hphase'⟩ := foldl_hearing hdistinct ds'
  rw [hconnections, hconnections', hphase, hphase']
  exact left_congr fun c _ => isLost_congr hsame h.peer c

theorem peer_foldl_hearing (ds : List Disconnection) : (ds.foldl hearing h).peer = h.peer := by
  induction ds generalizing h with
  | nil => rfl
  | cons d rest ih => rw [List.foldl_cons, ih, peer_hearing]

end ReplicaHandshake.Handler
