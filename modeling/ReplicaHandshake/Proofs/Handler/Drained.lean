import ReplicaHandshake.Proofs.Handler.Course
import ReplicaHandshake.Proofs.Handler.Handoff
import ReplicaHandshake.Proofs.Handler.Rest

/-!
# What the multiplexer has of a handler

The multiplexer has the writer of a handler if it took one (`Life.writerTransferred_iff`), and of
its sockets those that it took and has not reported as closed: `Handler.handedSockets`.  A handler
adds to them what is taken, and forgets what it hears to be closed (`Moves.handed`,
`Stops.handed`, `Hears.handed`).

A handler that is stopping is drained exactly if no socket of it is left, and the writer was not
taken, or the multiplexer said that it lets go (`Life.isDrained_iff`).
-/

namespace ReplicaHandshake

/-- The socket of a connection, if the multiplexer has it. -/
def Connection.handedSocket? (c : Connection) : Option SocketId :=
  if c.isTransferred then c.socketId else none

/-- The socket of a connection is owned, or the multiplexer has it. -/
theorem Connection.Sound.places {c : Connection} (hsound : c.Sound) :
    c.socketId.toList = c.ownedSockets ++ c.handedSocket?.toList := by
  have hkept : c.Holds ∨ c.Refused → c.socketId.toList = c.ownedSockets := by
    rintro (⟨-, hsocket, hnone⟩ | ⟨handoff, hid, hsocket, hsome⟩)
    · simp [ownedSockets, hsocket, hnone]
    · simp [ownedSockets, hid, hsocket, hsome]
  unfold Sound at hsound
  split at hsound
  case h_6 hstate =>
    obtain ⟨⟨-, hsocket, hnone⟩, -⟩ := hsound
    simp [ownedSockets, handedSocket?, isTransferred, hstate, hsocket, hnone]
  case h_7 | h_8 => exact hsound.elim
  all_goals
    rename_i hstate
    have hfree : c.handedSocket? = none := by simp [handedSocket?, isTransferred, hstate]
    rw [hfree, Option.toList_none, List.append_nil]
  · exact hkept (.inl hsound.1)
  · exact hkept (.inl hsound.1)
  · exact hkept (.inl hsound.1)
  · exact hkept hsound.1
  · exact hkept hsound.1

namespace Handler

variable {h h' h₁ : Handler} {past hs : List Happening} {table : TableSettings}

/-- The sockets of a handler that the multiplexer has. -/
def handedSockets (h : Handler) : List SocketId :=
  h.connections.filterMap (·.handedSocket?)

/-! ### Sockets -/

theorem Whole.places (hwhole : h.Whole) :
    (h.connections.filterMap (·.socketId)).Perm (h.ownedSockets ++ h.handedSockets) := by
  have hsound := hwhole.connections
  unfold ownedSockets handedSockets
  generalize h.connections = cs at hsound
  induction cs with
  | nil => exact .refl _
  | cons c cs ih =>
    obtain ⟨hc, hcs⟩ := List.forall_mem_cons.1 hsound
    have hone : ∀ {f : Connection → Option SocketId}, (c :: cs).filterMap f =
        (f c).toList ++ cs.filterMap f := by
      intro f
      cases hf : f c <;> simp [hf]
    have ih := ih hcs
    rw [hone, hone, hc.places, List.flatMap_cons]
    simp only [List.perm_iff_count, List.count_append] at ih ⊢
    intro socket
    have ih := ih socket
    omega

/-- Where the sockets are the same, and what was owned is owned still or taken, what was
taken is handed. -/
theorem handed_perm {taken : List SocketId} (hwhole : h.Whole) (hwhole' : h'.Whole)
    (hroster : h'.roster = h.roster) (howned : h.ownedSockets.Perm (h'.ownedSockets ++ taken)) :
    h'.handedSockets.Perm (h.handedSockets ++ taken) := by
  have hsockets : ∀ h : Handler, h.connections.filterMap (·.socketId) =
      h.roster.filterMap (·.2) := by
    intro h
    rw [roster, List.filterMap_map]
    rfl
  have hplaces := hwhole.places
  have hplaces' := hwhole'.places
  rw [hsockets, hroster, ← hsockets] at hplaces'
  simp only [List.perm_iff_count, List.count_append] at hplaces hplaces' howned ⊢
  intro socket
  have hplaces := hplaces socket
  have hplaces' := hplaces' socket
  have howned := howned socket
  omega

theorem View.closed (hview : View h hs h') (hwork : h'.AtWork) : closedSockets hs = [] := by
  have hnone : ∀ {hs : List Happening}, (∀ x ∈ hs, x.socket? = none) → closedSockets hs = [] :=
    fun hnone => closedSockets_of_still fun x hx => Happening.still_of_socket? (hnone x hx)
  cases hview with
  | acts _ _ _ _ hact hquiet =>
    obtain ⟨hfront, hback⟩ := List.forall_mem_append.1 hquiet
    rw [closedSockets_append, closedSockets_append, hnone hfront, hnone hback, hact.custody.2.1]
    rfl
  | goesOn _ _ _ hquiet => exact hnone hquiet
  | ends _ hover | rests _ hover => exact absurd hwork hover

/-- A handler that stays at work has given away what was taken. -/
theorem Turn.handed (hturn : Turn h hs h') (hsound : h.Sound) (hwork : h'.AtWork) :
    h'.handedSockets.Perm (h.handedSockets ++ takenSockets hs) := by
  have hview := hturn.view hsound
  have howned := (hturn.sockets hsound).2
  rw [hview.closed hwork, List.append_nil] at howned
  exact handed_perm hsound.toWhole (hturn.sound hsound).toWhole (hview.roster hwork).2 howned

theorem roster_put {before after : List Connection} {c c' : Connection}
    (hconnections : h.connections = before ++ c :: after) (hsame : Connection.Same c c') :
    (h.put before c' after).roster = h.roster := by
  rw [roster, roster, connections_put, hconnections]
  simp [hsame.1, hsame.2.2.2.2]

theorem Fault.roster {f : Failure} (hfault : Fault h hs f h') : h'.roster = h.roster := by
  cases hfault with
  | timeout | tableExists | openWriter | mismatch => rfl
  | connection _ hconnections hfault => exact roster_put hconnections hfault.same
  | divergence _ hconnections hhear => exact roster_put hconnections hhear.same
  | @request h₁ first first' rest _ _ _ _ _ _ hconnections hresolves hrequest =>
    obtain ⟨hsame, -⟩ := hresolves.keeps
    have hput : (h₁.put [] first' rest).roster = h₁.roster :=
      roster_put (hsame.trans hconnections) hrequest.same
    rw [hput, Handler.roster, hsame, Handler.roster]
  | createTable _ hconnections hhear => exact roster_put hconnections hhear.same
  | handoff hhands hfault => exact roster_put hhands.2.2.1 hfault.same

/-- On the way to a fault nothing is given away. -/
theorem Fault.handed {f : Failure} (hfault : Fault h hs f h') (hsound : h.Sound) :
    h'.handedSockets.Perm h.handedSockets := by
  have howned : h.ownedSockets.Perm (h'.ownedSockets ++ []) := by
    rw [List.append_nil, (hfault.talks hsound).2]
  have hhanded := handed_perm hsound.toWhole (hfault.whole hsound) hfault.roster howned
  rwa [List.append_nil] at hhanded

theorem handed_stopped (h : Handler) : h.stopped.handedSockets = h.handedSockets := by
  show (h.connections.filter (·.isTransferred)).filterMap (·.handedSocket?) = _
  have htest : (fun c : Connection => if c.isTransferred then c.handedSocket? else none) =
      (·.handedSocket?) := by
    funext c
    unfold Connection.handedSocket?
    split <;> rfl
  rw [List.filterMap_filter, htest]
  rfl

theorem isTakenAs_iff {socket : SocketId} {c : Connection} :
    isTakenAs socket c ↔ c.handedSocket? = some socket := by
  unfold isTakenAs Connection.handedSocket?
  split <;> simp_all

theorem handed_erase (h : Handler) (socket : SocketId) :
    handedSockets { h with connections := h.connections.eraseP (isTakenAs socket) } =
      h.handedSockets.erase socket := by
  show (h.connections.eraseP (isTakenAs socket)).filterMap (·.handedSocket?) =
    (h.connections.filterMap (·.handedSocket?)).erase socket
  induction h.connections with
  | nil => rfl
  | cons c cs ih =>
    by_cases htaken : isTakenAs socket c
    · rw [List.eraseP_cons_of_pos htaken, List.filterMap_cons_some (isTakenAs_iff.1 htaken),
        List.erase_cons_head]
    · rw [List.eraseP_cons_of_neg htaken]
      rw [isTakenAs_iff] at htaken
      cases hc : c.handedSocket? with
      | none => rw [List.filterMap_cons_none hc, List.filterMap_cons_none hc, ih]
      | some other =>
        have hne : other ≠ socket := fun heq => htaken (by rw [hc, heq])
        rw [List.filterMap_cons_some hc, List.filterMap_cons_some hc,
          List.erase_cons_tail (by simpa using hne), ih]

/-! ### Pieces of work -/

theorem Unoffered.taken (h : Unoffered hs) : takenSockets hs = [] ∧ takenWriters hs = [] := by
  refine ⟨List.filterMap_eq_nil_iff.2 fun x hx => ?_, List.filterMap_eq_nil_iff.2 fun x hx => ?_⟩
  · have hx := h x hx
    unfold Happening.taken?
    split <;> first | rfl | cases hx
  · have hx := h x hx
    unfold Happening.takenWriter?
    split <;> first | rfl | cases hx

theorem unoffered_stop (h : Handler) : Unoffered h.stopHappenings :=
  unoffered_of_isWord h.stopHappenings_isWord

theorem unoffered_stopFor (h : Handler) (kind : String) : Unoffered (h.stopForHappenings kind) :=
  unoffered_of_isWord (h.stopForHappenings_isWord kind)

/-- If a handler is not at work after a move, then it was stopping already, or it failed. -/
theorem Move.of_over (hmove : Move h hs h') (hover : ¬h'.AtWork) :
    h.phase = .stopping ∧ h'.connections = h.connections ∧
        h'.writerTransferred = h.writerTransferred ∧
        h'.needsPeerStop = h.needsPeerStop ∧ Unoffered hs ∨
      ∃ front f h₁, Fault h front f h₁ ∧ hs = front ++ h₁.stopForHappenings f.kind ∧
        h' = h₁.stoppedFor (.failed f) := by
  cases hmove with
  | exchange hpolls => exact absurd (atWork_of_polls hpolls) hover
  | tableInfo hphase => exact absurd hphase.atWork hover
  | allConnected | rendezvous | streamStart | streams =>
    exact absurd (atWork_of_phase rfl Phase.noConfusion rfl) hover
  | writerTaken hphase | writerRefused hphase =>
    exact absurd (atWork_of_phase hphase (by decide) rfl) hover
  | write hhands | socketTaken hhands | socketRefused hhands | waits hhands =>
    exact absurd hhands.atWork hover
  | fails hfault => exact .inr ⟨_, _, _, hfault, rfl, rfl⟩
  | stopAccepted hphase => exact .inl ⟨hphase, rfl, rfl, rfl, List.forall_mem_singleton.2 rfl⟩
  | stopRefused hphase =>
    exact .inl
      ⟨hphase, rfl, rfl, rfl, List.forall_mem_cons.2 ⟨rfl, List.forall_mem_singleton.2 rfl⟩⟩

theorem Move.handed (hmove : Move h hs h') (hsound : h.Sound) :
    h'.handedSockets.Perm (h.handedSockets ++ takenSockets hs) := by
  by_cases hwork : h'.AtWork
  · exact (Turn.move hmove).handed hsound hwork
  obtain ⟨-, hsame, -, -, hunoffered⟩ | ⟨front, f, h₁, hfault, rfl, rfl⟩ := hmove.of_over hwork
  · rw [hunoffered.taken.1, List.append_nil, handedSockets, hsame, ← handedSockets]
  · rw [(hfault.unoffered.append (h₁.unoffered_stopFor f.kind)).taken.1,
      List.append_nil, stoppedFor, handed_stopped]
    exact hfault.handed hsound

theorem Moves.handed (hmoves : Moves h hs h') (hsound : h.Sound) :
    h'.handedSockets.Perm (h.handedSockets ++ takenSockets hs) := by
  obtain ⟨hway, -⟩ := hmoves
  induction hway with
  | refl => exact .of_eq (List.append_nil _).symm
  | tail hway hmove ih =>
    rw [takenSockets_append, ← List.append_assoc]
    exact (hmove.handed (hsound.of_way hway)).trans (ih.append_right _)

theorem Stops.handed (hstops : Stops h hs h') :
    h'.handedSockets = h.handedSockets ∧ takenSockets hs = [] := by
  cases hstops with
  | stops => exact ⟨h.handed_stopped, h.unoffered_stop.taken.1⟩
  | isStopping => exact ⟨rfl, rfl⟩

theorem Hears.handed {socket : SocketId} (hhears : Hears socket h hs h') :
    h'.handedSockets = h.handedSockets.erase socket ∧ takenSockets hs = [] := by
  cases hhears with
  | isOther hfind =>
    have hsame := h.handed_erase socket
    rw [List.eraseP_of_forall_not (List.find?_eq_none.1 hfind)] at hsame
    exact ⟨hsame, rfl⟩
  | loses _ _ _ heq =>
    subst heq
    rw [stoppedFor, handed_stopped]
    exact ⟨h.handed_erase socket, (unoffered_stopFor _ _).taken.1⟩
  | letsGo => exact ⟨h.handed_erase socket, rfl⟩

/-! ### The writer -/

theorem Sound.delivering (hsound : h.Sound) (hwork : h.AtWork) (hsome : h.handedSockets ≠ []) :
    h.IsDelivering := by
  refine (early_or_delivering hwork).resolve_left fun hearly => hsome ?_
  refine List.filterMap_eq_nil_iff.2 fun c hc => if_neg ?_
  rcases hearly with hgathering | hphase
  · rcases (hsound.gathers hgathering).states c hc with h | h | h <;>
      simp [Connection.isTransferred, h]
  · obtain ⟨first, rest, hsplit, hfirst, hrest⟩ := (hsound.requests hphase).states
    rw [hsplit, List.mem_cons] at hc
    rcases hc with rfl | hc
    · simp [Connection.isTransferred, hfirst]
    · simp [Connection.isTransferred, hrest c hc]

/-- The multiplexer takes no socket before it has the writer. -/
theorem Sound.writerTransferred (hsound : h.Sound) (hwork : h.AtWork)
    (hsome : h.handedSockets ≠ []) :
    h.writerTransferred = true := by
  rcases hsound.delivering hwork hsome with hphase | hphase
  · refine (hsound.handsOver hphase).writer.resolve_right fun hnone => hsome ?_
    refine List.filterMap_eq_nil_iff.2 fun c hc => if_neg ?_
    rw [(hnone.2 c hc).1]
    exact Bool.false_ne_true
  · exact (hsound.streams hphase).writerTransferred

/-- A handler that stops owes nothing but what the multiplexer took: it has to ask it to let go
exactly if it took the writer. -/
theorem needsPeerStop_stopped (hwhole : h.Whole)
    (hwriter : h.handedSockets ≠ [] → h.writerTransferred = true) :
    h.stopped.needsPeerStop = h.writerTransferred := by
  show (h.writerTransferred || !(h.connections.filter (·.isTransferred)).isEmpty) = _
  cases hflag : h.writerTransferred with
  | true => rfl
  | false =>
    have hnone : h.handedSockets = [] := Classical.byContradiction fun hsome => by
      simp [hwriter hsome] at hflag
    have hfree : h.connections.filter (·.isTransferred) = [] := by
      apply List.filter_eq_nil_iff.2
      intro c hc htransferred
      have hid := List.filterMap_eq_nil_iff.1 hnone c hc
      rw [Connection.handedSocket?, if_pos htransferred] at hid
      have hsound := hwhole.connections c hc
      rw [Connection.isTransferred, decide_eq_true_eq] at htransferred
      simp [Connection.Sound, htransferred, Connection.Given, hid] at hsound
    rw [hfree]
    rfl

theorem Resolves.writerTransferred {rows : UInt64} (hresolves : h.Resolves hs rows h') :
    h'.writerTransferred = h.writerTransferred := by
  cases hresolves <;> rfl

theorem Fault.writerTransferred {f : Failure} (hfault : Fault h hs f h') :
    h'.writerTransferred = h.writerTransferred := by
  cases hfault with
  | request _ _ _ hresolves => exact hresolves.writerTransferred
  | timeout | connection | divergence | tableExists | openWriter | mismatch | createTable
    | handoff => rfl

/-- A handler that is not at work after a turn offers nothing by it and gives no writer away, and
has to ask the multiplexer to let go if it took the writer. -/
theorem Turn.of_over (hturn : Turn h hs h') (hsound : h.Sound) (hover : ¬h'.AtWork) :
    Unoffered hs ∧ h'.writerTransferred = h.writerTransferred ∧
      ((¬h.AtWork → h.needsPeerStop = h.writerTransferred) →
        h'.needsPeerStop = h'.writerTransferred) := by
  cases hturn with
  | move hmove =>
    obtain ⟨hphase, -, hwriter, hneeds, hunoffered⟩ | ⟨front, f, h₁, hfault, rfl, rfl⟩ :=
      hmove.of_over hover
    · refine ⟨hunoffered, hwriter, fun hbefore => ?_⟩
      rw [hneeds, hwriter, hbefore (not_atWork_stopping hphase)]
    · refine ⟨hfault.unoffered.append (h₁.unoffered_stopFor f.kind), hfault.writerTransferred,
        fun _ => ?_⟩
      have hwhole := hfault.whole hsound
      refine needsPeerStop_stopped ⟨hwhole.connections, hwhole.same, hwhole.writer⟩ fun hsome => ?_
      refine hfault.writerTransferred.trans
        (hsound.writerTransferred hfault.atWork fun hnone => hsome ?_)
      exact (hnone ▸ hfault.handed hsound).eq_nil
  | stops hlive hphase =>
    refine ⟨h.unoffered_stop, rfl, fun _ => ?_⟩
    exact needsPeerStop_stopped hsound.toWhole
      (hsound.writerTransferred (atWork_of_live hlive hphase))
  | @loses _ c socket hlive hphase _ heq =>
    subst heq
    refine ⟨unoffered_stopFor _ _, rfl, fun _ => ?_⟩
    have hwhole := hsound.toWhole.erase (isTakenAs socket)
    refine needsPeerStop_stopped ⟨hwhole.connections, hwhole.same, hwhole.writer⟩ fun hsome => ?_
    refine hsound.writerTransferred (atWork_of_live hlive hphase) fun hnone => hsome ?_
    have herase := h.handed_erase socket
    rw [hnone] at herase
    exact herase
  | letsGo _ hphase =>
    exact ⟨List.forall_mem_nil _, rfl, fun hbefore => hbefore (not_atWork_stopping hphase)⟩
  | finishes hphase =>
    exact ⟨List.forall_mem_singleton.2 rfl, rfl, fun hbefore =>
      hbefore (not_atWork_stopping hphase)⟩
  | concludes _ hterminal =>
    exact ⟨List.forall_mem_singleton.2 rfl, rfl, fun hbefore => hbefore fun hwork =>
      hwork (.inr hterminal)⟩

/-! ### Lives -/

/-- Of a handler that has just begun the multiplexer has nothing. -/
theorem Begins.handed {instanceId : InstanceId} {peer : PeerId} {frameBuffer : Nat}
    {timeout : Duration} {now : Instant}
    (hbegins : Begins (new instanceId peer table frameBuffer timeout now) hs h) :
    h.handedSockets = [] ∧ takenSockets hs = [] := by
  obtain ⟨-, -, hopened | hrefused⟩ := hbegins.spec
  · refine ⟨List.filterMap_eq_nil_iff.2 fun c hc => ?_,
      (closedSockets_of_overture hopened.overture).2⟩
    have hstate := (hopened.connections c hc).1.state
    simp [Connection.handedSocket?, Connection.isTransferred, hstate]
  · obtain ⟨front, back, rfl, hfront, -, hback, -⟩ := hrefused.happenings
    refine ⟨by rw [handedSockets, hrefused.connections]; rfl, ?_⟩
    exact ((unoffered_of_overture hfront).append
      (unoffered_of_isWord fun x hx => (hback x hx).2)).taken.1

/-- A handler that is not at work has to ask the multiplexer to let go exactly if it
took the writer. -/
theorem Life.needsPeerStop (hlife : Life table past h) :
    ¬h.AtWork → h.needsPeerStop = h.writerTransferred := by
  refine hlife.invariant ?_ ?_ ?_
  · intro hs h hopened hover
    exact absurd (atWork_of_phase hopened.phase (by decide) rfl) hover
  · intro hs h hrefused _
    rw [hrefused.owes.1, hrefused.owes.2]
  · intro past h hs h' hlife ih hturn hover
    exact (hturn.of_over hlife.sound hover).2.2 ih

theorem Life.takenWriters_iff (hlife : Life table past h) :
    takenWriters past ≠ [] ↔ handed h.peer past ≠ [] := by
  constructor
  · intro hsome
    obtain ⟨writer, hmem⟩ := List.exists_mem_of_ne_nil _ hsome
    obtain ⟨x, hx, htaken⟩ := List.mem_filterMap.1 hmem
    unfold Happening.takenWriter? at htaken
    split at htaken
    next p _ _ =>
      obtain ⟨before, after, rfl⟩ := List.append_of_mem hx
      obtain rfl := (hlife.offers.split.1 _ _ _ _ rfl).1
      exact List.ne_nil_of_mem (List.mem_filterMap.2 ⟨_, hx, if_pos rfl⟩)
    · cases htaken
  · intro hsome
    obtain ⟨-, writer, -, hlead⟩ := hlife.inOrder.resolve_left hsome
    cases hitems : handed h.peer past with
    | nil => exact absurd hitems hsome
    | cons item items =>
      rw [hitems, List.cons_prefix_cons] at hlead
      obtain ⟨rfl, -⟩ := hlead
      have hmem : Item.writer writer ∈ handed h.peer past := by
        rw [hitems]; exact List.mem_cons_self
      obtain ⟨x, hx, hhanded⟩ := List.mem_filterMap.1 hmem
      unfold Happening.handed? at hhanded
      split at hhanded
      · exact List.ne_nil_of_mem (List.mem_filterMap.2 ⟨_, hx, rfl⟩)
      · split at hhanded <;> cases hhanded
      · cases hhanded

/-- Before it took the writer the multiplexer took no socket. -/
theorem Life.takenWriters_of_sockets (hlife : Life table past h) (hsome : takenSockets past ≠ []) :
    takenWriters past ≠ [] := by
  obtain ⟨socket, hmem⟩ := List.exists_mem_of_ne_nil _ hsome
  obtain ⟨x, hx, htaken⟩ := List.mem_filterMap.1 hmem
  apply hlife.takenWriters_iff.2
  unfold Happening.taken? at htaken
  split at htaken
  next p _ =>
    obtain ⟨before, after, rfl⟩ := List.append_of_mem hx
    obtain rfl := (hlife.offers.split.2 _ _ _ rfl).1
    exact List.ne_nil_of_mem (List.mem_filterMap.2 ⟨_, hx, if_pos rfl⟩)
  · cases htaken

/-- The multiplexer takes no writer of a handler that has turned to stopping. -/
theorem Life.takenWriters_of_stopping (hlife : Life table past h) {before after : List Happening}
    (hpast : past = before ++ .reported (.phaseEntered Phase.stopping.name) :: after) :
    takenWriters past = takenWriters before := by
  subst hpast
  rw [List.append_cons, takenWriters_append, takenWriters_append]
  refine (List.append_assoc ..).trans (List.append_right_eq_self.2 ?_)
  refine List.filterMap_eq_nil_iff.2 fun x hx => Option.eq_none_iff_forall_ne_some.2
    fun writer htaken => ?_
  obtain ⟨front, back, rfl⟩ := List.append_of_mem hx
  have hoffers := hlife.offers
  rw [← List.cons_append, ← List.append_assoc] at hoffers
  unfold Happening.takenWriter? at htaken
  split at htaken
  · have hoffer := hoffers.split.1 _ _ _ _ rfl
    exact hoffer.2.1.unstopped (.reported (.phaseEntered Phase.stopping.name)) (by simp) rfl
  · cases htaken

/-- A handler knows whether the multiplexer took its writer. -/
theorem Life.writerTransferred_iff (hlife : Life table past h) :
    h.writerTransferred = true ↔ takenWriters past ≠ [] := by
  have hfree : ∀ {hs : List Happening} {h : Handler}, h.writerTransferred = false → Unoffered hs →
      (h.writerTransferred = true ↔ takenWriters hs ≠ []) := by
    intro hs h hflag hunoffered
    rw [hflag, hunoffered.taken.2]
    exact iff_of_false Bool.false_ne_true (not_not_intro rfl)
  refine hlife.invariant ?_ ?_ ?_
  · intro hs h hopened
    exact hfree hopened.fresh.2.2 (unoffered_of_overture hopened.overture)
  · intro hs h hrefused
    obtain ⟨front, back, rfl, hfront, -, hback, -⟩ := hrefused.happenings
    exact hfree hrefused.owes.1 ((unoffered_of_overture hfront).append
      (unoffered_of_isWord fun x hx => (hback x hx).2))
  · intro past h hs h' hlife ih hturn
    have hlife' := hlife.turns hturn
    by_cases hwork : h'.AtWork
    · rw [hlife'.takenWriters_iff]
      rcases early_or_delivering hwork with hearly | hdelivering
      · rw [hlife'.handed_early hearly]
        have hflag : h'.writerTransferred = false := by
          rcases hearly with hgathering | hphase
          · exact (hlife'.sound.gathers hgathering).writerTransferred
          · exact (hlife'.sound.requests hphase).writerTransferred
        exact iff_of_false (by rw [hflag]; exact Bool.false_ne_true) (not_not_intro rfl)
      · have hitems := (hlife'.delivers hdelivering).items
        split at hitems
        next hflag =>
          obtain ⟨writer, -, hitems⟩ := hitems
          exact iff_of_true hflag (by rw [hitems]; exact List.cons_ne_nil _ _)
        next hflag => exact iff_of_false hflag (not_not_intro hitems)
    · obtain ⟨hunoffered, hflag, -⟩ := hturn.of_over hlife.sound hwork
      rw [hflag, takenWriters_append, hunoffered.taken.2, List.append_nil]
      exact ih

/-- A handler knows whether the multiplexer said that it lets go. -/
theorem Life.freed_iff (hlife : Life table past h) :
    h.peerStopAccepted = true ↔ h.peer ∈ freedPeers past := by
  induction hlife with
  | begins _ hbegins =>
    obtain ⟨back, rfl, hcourse⟩ := hbegins.course rfl
    have hgreetings : ∀ h : Handler, freedPeers h.greetings = [] := fun _ => rfl
    rw [freedPeers_append, hgreetings, List.nil_append]
    obtain ⟨hnone, hsame⟩ | ⟨hsome, hflag⟩ := hcourse.freedPeers
    · rw [hnone, hsame]
      exact iff_of_false Bool.false_ne_true List.not_mem_nil
    · rw [hsome, hflag, hbegins.spec.1]
      exact iff_of_true rfl (List.mem_singleton.2 rfl)
  | turns _ hturn ih =>
    rw [freedPeers_append, List.mem_append, hturn.name.1]
    obtain ⟨hnone, hsame⟩ | ⟨hsome, hflag⟩ := hturn.course.freedPeers
    · rw [hnone, hsame, ih]
      exact (or_iff_left List.not_mem_nil).symm
    · rw [hsome, hflag]
      exact iff_of_true rfl (.inr (List.mem_singleton.2 rfl))

/-- A handler that is stopping is drained exactly if the multiplexer has no socket of it, and took
no writer of it or said that it lets go. -/
theorem Life.isDrained_iff (hlife : Life table past h) (hphase : h.phase = .stopping) :
    h.isDrained ↔ h.handedSockets = [] ∧ (takenWriters past = [] ∨ h.peer ∈ freedPeers past) := by
  have hover := hlife.sound.isOver (.inl hphase)
  have hconnections : h.connections = [] ↔ h.handedSockets = [] := by
    refine ⟨fun hnone => by rw [handedSockets, hnone]; rfl, fun hnone => ?_⟩
    apply List.eq_nil_iff_forall_not_mem.2
    intro c hc
    have htransferred := hover.connections c hc
    have hid := List.filterMap_eq_nil_iff.1 hnone c hc
    rw [Connection.handedSocket?, if_pos htransferred] at hid
    have hsound := hlife.sound.connections c hc
    rw [Connection.isTransferred, decide_eq_true_eq] at htransferred
    simp [Connection.Sound, htransferred, Connection.Given, hid] at hsound
  have hwriter : h.needsPeerStop = false ↔ takenWriters past = [] := by
    rw [hlife.needsPeerStop (not_atWork_stopping hphase), ← Bool.not_eq_true,
      hlife.writerTransferred_iff, Classical.not_not]
  unfold isDrained
  rw [Bool.and_eq_true, Bool.and_eq_true, Bool.or_eq_true, decide_eq_true_eq, List.isEmpty_iff,
    hconnections, Bool.not_eq_true', hwriter, hlife.freed_iff]
  exact ⟨fun hdrained => ⟨hdrained.1.2, hdrained.2⟩, fun hdrained =>
    ⟨⟨hphase, hdrained.1⟩, hdrained.2⟩⟩

end Handler

end ReplicaHandshake
