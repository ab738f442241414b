import ReplicaHandshake.Proofs.Handler.Drained

/-!
# Phases and the states of connections

The phase of a handler and the states of its connections move together: `Handler.KeepsPace` says,
phase by phase, in which states the connections of a live handler are, what its count of answers is,
and where the writer is.  A handler at rest keeps pace all its life (`Life.keepsPace`).

Most of this is soundness, read in another way.  Two things are not: that in `awaitingRendezvous`
all masters have been asked, which no move undoes (`Life.hasRequested`); and that a phase lasts no
longer than it has to, which is what it means to be settled.
-/

namespace ReplicaHandshake

/-- A connection that has asked for the table does not go back. -/
theorem Connection.Step.hasRequestedTableInfo {c c' : Connection} {hs : List Happening}
    (hstep : Connection.Step c hs c') (hopen : c.hasRequestedTableInfo) :
    c'.hasRequestedTableInfo := by
  obtain ⟨hstate | ⟨-, hstate⟩, -⟩ := hstep.keeps
  · rwa [Connection.hasRequestedTableInfo, hstate]
  · rw [Connection.hasRequestedTableInfo, hstate]

namespace Handler

variable {h h' : Handler} {past hs : List Happening} {table : TableSettings}

/-- The states of the connections, in their order. -/
def states (h : Handler) : List ConnectionState :=
  h.connections.map (·.state)

/-- The state of the connection at a position when the sockets before a certain one have been taken:
the first connection is ahead of the others, which are ready. -/
def stateAt (first : ConnectionState) (taken i : Nat) : ConnectionState :=
  if i < taken then .transferred else if i = 0 then first else .ready

/-- The states of the connections of a live handler with so many masters, its count of answers and
its writer are as its phase says. -/
def KeepsPace (masters : Nat) (past : List Happening) (h : Handler) : Prop :=
  match h.phase with
  | .initializing =>
    h.states.length = masters ∧
      (∀ s ∈ h.states, s = .connecting ∨ s = .awaitingTableInfo ∨ s = .ready) ∧
      .connecting ∈ h.states ∧ h.ready = h.states.count .ready ∧ h.writer = none
  | .awaitingRendezvous =>
    h.states.length = masters ∧ (∀ s ∈ h.states, s = .awaitingTableInfo ∨ s = .ready) ∧
      .awaitingTableInfo ∈ h.states ∧ h.ready = h.states.count .ready ∧ h.writer = none
  | .requestingStream =>
    h.states = (List.range masters).map (stateAt .awaitingStreamStart 0) ∧ h.ready = masters
  | .handingOff => ∃ taken < masters,
    h.states = (List.range masters).map (stateAt .streamStarted taken) ∧
      (∀ c ∈ h.connections.drop taken, ∃ socket, c.socketId = some socket ∧
      c.ownedSockets = [socket]) ∧
      (takenWriters past ≠ [] ∧ h.writer = none ∨
        takenWriters past = [] ∧ h.writer.isSome ∧ taken = 0)
  | .streaming =>
    h.states = List.replicate masters .transferred ∧ takenWriters past ≠ [] ∧ h.writer = none
  | .stopping => (∀ s ∈ h.states, s = .transferred) ∧ h.writer = none
  | .stopped | .distressed => False

theorem forall_mem_states {P : ConnectionState → Prop} :
    (∀ s ∈ h.states, P s) ↔ ∀ c ∈ h.connections, P c.state :=
  List.forall_mem_map

theorem mem_states {c : Connection} {s : ConnectionState} (hc : c ∈ h.connections)
    (hstate : c.state = s) :
    s ∈ h.states :=
  List.mem_map.2 ⟨c, hc, hstate⟩

theorem length_states (h : Handler) : h.states.length = h.connections.length :=
  List.length_map _

/-! ### Waiting for the masters -/

/-- Exactly the connections that are ready have heard from their masters. -/
theorem Gathers.count_ready (hgathers : h.Gathers) (hsound : h.Sound) :
    h.ready = h.states.count .ready := by
  rw [hgathers.ready, Handler.states, List.count_eq_countP, List.countP_map]
  refine List.countP_congr fun c hc => ?_
  have hc' := hsound.connections c hc
  rcases hgathers.states c hc with h | h | h
  · simp only [Connection.Sound, h] at hc'
    simp [h, hc'.2]
  · simp only [Connection.Sound, h] at hc'
    simp [h, hc'.2]
  · simp only [Connection.Sound, h] at hc'
    obtain ⟨-, info, hinfo, -⟩ := hc'
    simp [h, hinfo]

/-- All masters have been asked for the table. -/
def HasRequested (h : Handler) : Prop :=
  ∀ c ∈ h.connections, c.hasRequestedTableInfo

theorem HasRequested.put {before after : List Connection} {c c' : Connection}
    (hasked : h.HasRequested) (hconnections : h.connections = before ++ c :: after)
    (hc' : c.hasRequestedTableInfo → c'.hasRequestedTableInfo) :
    (h.put before c' after).HasRequested := by
  intro x hx
  obtain hx | rfl := mem_put hconnections hx
  · exact hasked x hx
  · exact hc' (hasked c (mem_of_split hconnections))

/-- A handler comes to wait for the rendezvous when all masters have been asked, and it
does not go back. -/
theorem Turn.hasRequested (hturn : Turn h hs h')
    (ih : h.phase = .awaitingRendezvous → h.HasRequested)
    (hphase' : h'.phase = .awaitingRendezvous) : h'.HasRequested := by
  have hwork : h'.AtWork := atWork_of_phase hphase' (by decide) rfl
  cases hturn.move_of_atWork hwork with
  | exchange _ hconnections hstep =>
    exact (ih hphase').put hconnections hstep.hasRequestedTableInfo
  | tableInfo _ hconnections hhear =>
    refine (ih hphase').put hconnections fun _ => ?_
    rw [Connection.hasRequestedTableInfo, hhear.tableInfo_spec.2.2.1]
  | allConnected _ hall => exact hall
  | rendezvous | streamStart | streams => cases hphase'
  | writerTaken | writerRefused | waits | stopAccepted | stopRefused => exact ih hphase'
  | write hhands | socketTaken hhands | socketRefused hhands =>
    cases hphase'.symm.trans hhands.1
  | fails => exact absurd hwork (not_atWork_stopping rfl)

theorem Life.hasRequested (hlife : Life table past h) :
    h.phase = .awaitingRendezvous → h.HasRequested := by
  refine hlife.invariant ?_ ?_ ?_
  · intro hs h hopened hphase
    cases hphase.symm.trans hopened.phase
  · intro hs h hrefused hphase
    cases hphase.symm.trans hrefused.phase
  · intro past h hs h' _ ih hturn
    exact hturn.hasRequested ih

/-- While a handler waits for the rendezvous, each of its masters has been asked for the table. -/
theorem HasRequested.states (hasked : h.HasRequested) (hgathers : h.Gathers) :
    ∀ s ∈ h.states, s = .awaitingTableInfo ∨ s = .ready := by
  refine forall_mem_states.2 fun c hc => (hgathers.states c hc).resolve_left fun hstate => ?_
  have hasked := hasked c hc
  simp [Connection.hasRequestedTableInfo, hstate] at hasked

theorem Gathers.allReady_of_states (hgathers : h.Gathers) (hsound : h.Sound)
    (hall : ∀ s ∈ h.states, s = .ready) :
    h.allReady := by
  have hcount : h.states.count .ready = h.states.length :=
    List.count_eq_length.2 fun s hs => (hall s hs).symm
  rw [← hgathers.count_ready hsound, length_states] at hcount
  simp [allReady, hcount]

/-! ### Handing over -/

theorem states_eq {f : Nat → ConnectionState}
    (hat : ∀ i c, h.connections[i]? = some c → c.state = f i) :
    h.states = (List.range h.connections.length).map f := by
  refine List.ext_getElem? fun i => ?_
  rw [Handler.states, List.getElem?_map, List.getElem?_map]
  cases hc : h.connections[i]? with
  | none => simp [List.getElem?_eq_none_iff.1 hc]
  | some c =>
    obtain ⟨hi, -⟩ := List.getElem?_eq_some_iff.1 hc
    simp [hi, hat i c hc]

theorem Requests.states_eq (hrequests : h.Requests) :
    h.states = (List.range h.connections.length).map (stateAt .awaitingStreamStart 0) := by
  refine Handler.states_eq fun i c hc => ?_
  obtain ⟨first, rest, hsplit, hfirst, hothers⟩ := hrequests.states
  rw [hsplit] at hc
  cases i with
  | zero =>
    cases hc
    exact hfirst
  | succ i => exact hothers c (List.mem_of_getElem? hc)

/-- The connections that have been taken are those in front. -/
theorem HandsOver.split (hover : h.HandsOver) : ∃ given left, h.connections = given ++ left ∧
    (∀ c ∈ given, c.isTransferred) ∧ ∀ c ∈ left, c.isTransferred = false := by
  have horder := hover.order
  generalize h.connections = cs at horder
  induction cs with
  | nil => exact ⟨[], [], rfl, by simp, by simp⟩
  | cons c rest ih =>
    obtain ⟨hbehind, horder⟩ := List.pairwise_cons.1 horder
    cases htransferred : c.isTransferred with
    | true =>
      obtain ⟨given, left, rfl, hgiven, hleft⟩ := ih horder
      exact ⟨c :: given, left, rfl, List.forall_mem_cons.2 ⟨htransferred, hgiven⟩, hleft⟩
    | false =>
      refine ⟨[], c :: rest, rfl, by simp, List.forall_mem_cons.2 ⟨htransferred, fun x hx => ?_⟩⟩
      exact (hbehind x hx htransferred).1

theorem HandsOver.state_at (hover : h.HandsOver) {i : Nat} {c : Connection}
    (hc : h.connections[i]? = some c) (hfree : c.isTransferred = false) :
    c.state = if i = 0 then .streamStarted else .ready := by
  have hstate : c.state ≠ .transferred := by simpa [Connection.isTransferred] using hfree
  obtain ⟨first, rest, hsplit, hfirst, hrest⟩ := hover.states
  rw [hsplit] at hc
  cases i with
  | zero =>
    cases hc
    exact hfirst.resolve_right hstate
  | succ i => exact (hrest c (List.mem_of_getElem? hc)).resolve_right hstate

theorem HandsOver.owns (hover : h.HandsOver) (hsound : h.Sound) {c : Connection}
    (hc : c ∈ h.connections) (hfree : c.isTransferred = false) :
    ∃ socket, c.socketId = some socket ∧ c.ownedSockets = [socket] := by
  obtain ⟨i, hi⟩ := List.mem_iff_getElem?.1 hc
  have hstate := hover.state_at hi hfree
  have hkept : c.Holds ∨ c.Refused := by
    refine ((hsound.connections c hc).kept ?_).1
    split at hstate
    · exact .inr hstate
    · exact .inl hstate
  have hid : c.socketId.isSome := by
    obtain ⟨hid, -⟩ | ⟨handoff, hid, -⟩ := hkept
    · exact hid
    · rw [hid]
      rfl
  obtain ⟨socket, hid⟩ := Option.isSome_iff_exists.1 hid
  have hplaces := (hsound.connections c hc).places
  rw [hid, Connection.handedSocket?, hfree] at hplaces
  exact ⟨socket, hid, by simpa using hplaces.symm⟩

theorem HandsOver.left_ne_nil (hover : h.HandsOver) (hsound : h.Sound) (hsettled : h.Settled)
    (hphase : h.phase = .handingOff) {given left : List Connection}
    (hsplit : h.connections = given ++ left)
    (hgiven : ∀ c ∈ given, c.isTransferred) : left ≠ [] := by
  rintro rfl
  rw [List.append_nil] at hsplit
  obtain htransferred | ⟨-, hfree⟩ := hover.writer
  · exact hsettled.handingOff hphase ⟨htransferred, hsplit ▸ hgiven⟩
  · obtain ⟨c, hc⟩ := List.exists_mem_of_ne_nil _ (hsound.nonempty (by rw [hphase]; rfl))
    have htransferred := hgiven c (hsplit ▸ hc)
    rw [(hfree c hc).1] at htransferred
    cases htransferred

theorem HandsOver.holds_writer (hover : h.HandsOver) (hfree : h.writerTransferred = false)
    {given left : List Connection} (hsplit : h.connections = given ++ left)
    (hgiven : ∀ c ∈ given, c.isTransferred) : h.writer.isSome ∧ given = [] := by
  obtain ⟨hheld, hnone⟩ := hover.writer.resolve_left (by simp [hfree])
  refine ⟨hheld, List.eq_nil_iff_forall_not_mem.2 fun c hc => ?_⟩
  have hgiven := hgiven c hc
  rw [(hnone c (hsplit ▸ List.mem_append_left left hc)).1] at hgiven
  cases hgiven

theorem HandsOver.stateAt_eq (hover : h.HandsOver) {given left : List Connection}
    (hsplit : h.connections = given ++ left) (hgiven : ∀ c ∈ given, c.isTransferred)
    (hleft : ∀ c ∈ left, c.isTransferred = false) (i : Nat) (c : Connection)
    (hc : h.connections[i]? = some c) :
    c.state = stateAt .streamStarted given.length i := by
  have hc' := hc
  unfold stateAt
  rw [hsplit] at hc'
  split
  next hi =>
    rw [List.getElem?_append_left hi] at hc'
    simpa [Connection.isTransferred] using hgiven c (List.mem_of_getElem? hc')
  next hi =>
    rw [List.getElem?_append_right (Nat.le_of_not_lt hi)] at hc'
    exact hover.state_at hc (hleft c (List.mem_of_getElem? hc'))

/-- How far the handoff has come: the writer goes first, and then the connections in their order.
What has not been taken is still there. -/
theorem HandsOver.progress (hover : h.HandsOver) (hsound : h.Sound) (hsettled : h.Settled)
    (hphase : h.phase = .handingOff)
    (hwriter : h.writerTransferred = true ↔ takenWriters past ≠ []) :
    ∃ taken < h.connections.length,
      h.states = (List.range h.connections.length).map (stateAt .streamStarted taken) ∧
        (∀ c ∈ h.connections.drop taken, ∃ socket, c.socketId = some socket ∧
        c.ownedSockets = [socket]) ∧
        (takenWriters past ≠ [] ∧ h.writer = none ∨ takenWriters past = [] ∧ h.writer.isSome ∧
          taken = 0) := by
  obtain ⟨given, left, hsplit, hgiven, hleft⟩ := hover.split
  have hsome := hover.left_ne_nil hsound hsettled hphase hsplit hgiven
  refine ⟨given.length, ?_, states_eq (hover.stateAt_eq hsplit hgiven hleft), fun c hc => ?_, ?_⟩
  · rw [hsplit, List.length_append]
    exact Nat.lt_add_of_pos_right (List.length_pos_iff.2 hsome)
  · rw [hsplit, List.drop_left] at hc
    exact hover.owns hsound (hsplit ▸ List.mem_append_right given hc) (hleft c hc)
  · cases htransferred : h.writerTransferred with
    | true => exact .inl ⟨hwriter.1 htransferred, hsound.writer htransferred⟩
    | false =>
      rw [htransferred] at hwriter
      obtain ⟨hheld, rfl⟩ := hover.holds_writer htransferred hsplit hgiven
      exact .inr ⟨Classical.not_not.1 fun htaken => Bool.false_ne_true (hwriter.2 htaken), hheld,
        rfl⟩

/-! ### Lives -/

/-- A handler at rest keeps pace all its life. -/
theorem Life.keepsPace (hlife : Life table past h) (hrest : h.AtRest) :
    h.KeepsPace table.masters.length past := by
  have hsound := hrest.sound
  have hlength : h.AtWork → h.connections.length = table.masters.length := fun hwork =>
    (hlife.length_connections hwork).1
  have hwriter := hlife.writerTransferred_iff
  unfold KeepsPace
  cases hphase : h.phase with
  | initializing =>
    have hgathers := hsound.gathers (.inl hphase)
    obtain ⟨c, hc, hearly⟩ := hrest.settled.initializing hphase
    refine ⟨h.length_states.trans (hlength (atWork_of_phase hphase (by decide) rfl)),
      forall_mem_states.2 hgathers.states, ?_, hgathers.count_ready hsound, hgathers.writer⟩
    rcases hgathers.states c hc with hstate | hstate | hstate
    · exact mem_states hc hstate
    · simp [Connection.hasRequestedTableInfo, hstate] at hearly
    · simp [Connection.hasRequestedTableInfo, hstate] at hearly
  | awaitingRendezvous =>
    have hgathers := hsound.gathers (.inr hphase)
    have hstates := HasRequested.states (hlife.hasRequested hphase) hgathers
    refine ⟨h.length_states.trans (hlength (atWork_of_phase hphase (by decide) rfl)), hstates, ?_,
      hgathers.count_ready hsound, hgathers.writer⟩
    refine Classical.byContradiction fun hnone => Bool.false_ne_true ?_
    rw [← hrest.settled.gathering (.inr hphase)]
    exact hgathers.allReady_of_states hsound fun s hs => (hstates s hs).resolve_left fun heq =>
      hnone (heq ▸ hs)
  | requestingStream =>
    have hrequests := hsound.requests hphase
    have hlength := hlength (atWork_of_phase hphase (by decide) rfl)
    rw [← hlength]
    exact ⟨hrequests.states_eq, hrequests.ready⟩
  | handingOff =>
    have hover := hsound.handsOver hphase
    have hlength := hlength (atWork_of_phase hphase (by decide) rfl)
    rw [← hlength]
    exact hover.progress hsound hrest.settled hphase hwriter
  | streaming =>
    have hstreams := hsound.streams hphase
    have hall : ∀ s ∈ h.states, s = .transferred :=
      forall_mem_states.2
        fun c hc => by simpa [Connection.isTransferred] using hstreams.connections c hc
    refine ⟨List.eq_replicate_iff.2 ⟨?_, hall⟩, hwriter.1 hstreams.writerTransferred,
      hsound.writer hstreams.writerTransferred⟩
    exact h.length_states.trans (hlength (atWork_of_phase hphase (by decide) rfl))
  | stopping =>
    have hover := hsound.isOver (.inl hphase)
    exact ⟨forall_mem_states.2
      fun c hc => by simpa [Connection.isTransferred] using hover.connections c hc,
      hover.writer⟩
  | stopped | distressed =>
    have hlive := hrest.live
    rw [hphase] at hlive
    cases hlive

end Handler

end ReplicaHandshake
