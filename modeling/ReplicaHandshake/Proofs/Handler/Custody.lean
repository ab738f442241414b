import ReplicaHandshake.Proofs.Connection.Custody
import ReplicaHandshake.Proofs.Handler.Stop

/-!
# Who has the sockets and the writer

A handler owns the sockets of its connections, also those in handoffs that were refused, and the
writer while it has one.  `Handler.View` says of a turn what it has to do with sockets: a handler at
work lets one of its connections act, or goes on without; or it stops, and closes all that it owns.

From this it follows that nothing gets lost: what a handler owned or received it owns after a turn,
or the multiplexer took it, or it was closed or released (`Turn.sockets` and `Turn.writers`).
-/

namespace ReplicaHandshake

section Accounts

variable {α : Type} [DecidableEq α] {all new owned owned' taken taken' gone gone' : List α}

/-- All that there was is accounted for afterwards exactly when that is which was owned,
and what is new. -/
theorem perm_account_iff (h : all.Perm (owned ++ taken ++ gone)) :
    (all ++ new).Perm (owned' ++ (taken ++ taken') ++ (gone ++ gone')) ↔
      (new ++ owned).Perm (owned' ++ taken' ++ gone') := by
  simp only [List.perm_iff_count, List.count_append] at h ⊢
  apply forall_congr'
  intro x
  have h := h x
  omega

theorem perm_account_frame (front back : List α)
    (h : (new ++ owned).Perm (owned' ++ taken ++ gone)) :
    (new ++ (front ++ (owned ++ back))).Perm (front ++ (owned' ++ back) ++ taken ++ gone) := by
  simp only [List.perm_iff_count, List.count_append] at h ⊢
  intro x
  have h := h x
  omega

end Accounts

/-- Something is released. -/
inductive Happening.IsRelease : Happening → Prop where
  | socket (socket : SocketId) : IsRelease (.answered (.closeSocket socket) ())
  | closed (tableName : String) : IsRelease (.reported (.connectionEvent tableName "closed"))
  | writer (writer : TableWriter) : IsRelease (.answered (.releaseWriter writer) ())

namespace Handler

variable {h h' : Handler} {hs : List Happening}

/-- The handler has not been stopped. -/
def AtWork (h : Handler) : Prop :=
  ¬(h.phase = .stopping ∨ h.phase.isTerminal)

/-- The sockets that a handler owns. -/
def ownedSockets (h : Handler) : List SocketId :=
  h.connections.flatMap Connection.ownedSockets

/-- The writers that a handler owns, which is one at most. -/
def ownedWriters (h : Handler) : List TableWriter :=
  h.writer.toList

theorem atWork_of_phase {phase : Phase} (hphase : h.phase = phase) (h₁ : phase ≠ .stopping)
    (h₂ : phase.isTerminal = false) : h.AtWork := by
  rintro (h | h)
  · exact h₁ (hphase.symm.trans h)
  · rw [hphase, h₂] at h
    cases h

theorem atWork_of_polls {before : List Connection} (hpolls : h.Polls before) : h.AtWork := by
  rcases hpolls with (h | h) | ⟨h, -⟩ <;> exact atWork_of_phase h (by decide) rfl

theorem Hands.atWork {given left : List Connection} {c : Connection}
    (hhands : h.Hands given c left) : h.AtWork :=
  atWork_of_phase hhands.1 (by decide) rfl

/-! ### Talking -/

/-- A happening that is at most about a socket that the handler may use. -/
def Talks (h : Handler) (x : Happening) : Prop :=
  x.Still ∧ ∀ socket, x.socket? = some socket → ∃ c ∈ h.connections, c.socket = some socket

theorem talks_of_none (hnone : ∀ x ∈ hs, x.socket? = none) : ∀ x ∈ hs, h.Talks x :=
  fun x hx => ⟨Happening.still_of_socket? (hnone x hx), fun _ h => by simp [hnone x hx] at h⟩

theorem talks_put {before after : List Connection} {c c' : Connection} (hsound : h.Sound)
    (hconnections : h.connections = before ++ c :: after)
    (htalk : Connection.Keeps c c' ∧ ∀ x ∈ hs, Connection.Talk c x) :
    (∀ x ∈ hs, h.Talks x) ∧ (h.put before c' after).ownedSockets = h.ownedSockets := by
  obtain ⟨hkeeps, htalk⟩ := htalk
  have hc := mem_of_split hconnections
  refine ⟨?_, by simp [ownedSockets, hconnections, hkeeps.ownedSockets_eq]⟩
  intro x hx
  refine ⟨(htalk x hx).still, fun socket hsocket => ⟨c, hc, ?_⟩⟩
  exact ((htalk x hx).socket (hsound.connections c hc) hsocket).2

theorem Resolves.sockets {rows : UInt64} (hresolves : h.Resolves hs rows h') :
    (∀ x ∈ hs, x.socket? = none) ∧ h'.connections = h.connections := by
  cases hresolves <;> simp [Happening.socket?]

theorem Supplies.sockets {tableName : String} {owned : Option TableWriter}
    {start : StartOfReplicationStream} {writer : TableWriter}
    (hsupplies : Supplies tableName owned start hs writer) : ∀ x ∈ hs, x.socket? = none := by
  cases hsupplies <;> simp [Happening.socket?]

/-- On the way to a fault the handler talks, and keeps its sockets. -/
theorem Fault.talks {f : Failure} (hfault : Fault h hs f h') (hsound : h.Sound) :
    (∀ x ∈ hs, h.Talks x) ∧ h'.ownedSockets = h.ownedSockets := by
  cases hfault with
  | timeout => exact ⟨by simp, rfl⟩
  | tableExists | openWriter | mismatch =>
    exact ⟨talks_of_none (by simp [Happening.socket?]), rfl⟩
  | connection _ hconnections hfault =>
    obtain ⟨hkeeps, htraffic⟩ := hfault.traffic
    exact talks_put hsound hconnections ⟨hkeeps, fun x hx => .traffic (htraffic x hx)⟩
  | handoff hhands hfault =>
    obtain ⟨hkeeps, htraffic⟩ := hfault.traffic
    exact talks_put hsound hhands.2.2.1 ⟨hkeeps, fun x hx => .traffic (htraffic x hx)⟩
  | divergence hphase hconnections hhear =>
    have hholds := (hsound.gathers hphase).holds _ (mem_of_split hconnections)
    exact talks_put hsound hconnections (hhear.talk hholds)
  | @request h₁ first first' rest hs₁ hs₂ _ _ hphase _ hconnections hresolves hrequest =>
    have hsplit : h.connections = [] ++ first :: rest := hconnections
    have hholds := (hsound.gathers (.inr hphase)).holds _ (mem_of_split hsplit)
    obtain ⟨htalks, howned⟩ := talks_put hsound hsplit (hrequest.talk hholds)
    refine ⟨fun x hx => ?_, howned⟩
    rcases List.mem_append.1 hx with hx | hx
    · exact talks_of_none hresolves.sockets.1 x hx
    · exact htalks x hx
  | createTable hphase hconnections hhear =>
    have hsplit : h.connections = [] ++ _ := hconnections
    have hholds := (hsound.requests hphase).holds _ (mem_of_split hsplit)
    obtain ⟨htalks, howned⟩ := talks_put hsound hsplit (hhear.talk hholds)
    refine ⟨fun x hx => ?_, howned⟩
    rcases List.mem_append.1 hx with hx | hx
    · exact htalks x hx
    · exact talks_of_none (by simp [Happening.socket?]) x hx

/-! ### Closing -/

/-- These sockets are closed, and nothing else happens to any socket. -/
structure Closes (sockets : List SocketId) (hs : List Happening) : Prop where
  closed : closedSockets hs = sockets
  none_else : ∀ x ∈ hs, x.opening? = none ∧ x.offered? = none ∧ x.taken? = none ∧ x.used? = none
  socket : ∀ x ∈ hs, ∀ socket, x.socket? = some socket → socket ∈ sockets

theorem Closes.append {sockets sockets' : List SocketId} {hs' : List Happening}
    (hcloses : Closes sockets hs) (hcloses' : Closes sockets' hs') :
    Closes (sockets ++ sockets') (hs ++ hs') where
  closed := by rw [closedSockets_append, hcloses.closed, hcloses'.closed]
  none_else x hx := (List.mem_append.1 hx).elim (hcloses.none_else x) (hcloses'.none_else x)
  socket x hx socket hsocket := by
    rw [List.mem_append] at hx ⊢
    exact hx.imp (hcloses.socket x · socket hsocket) (hcloses'.socket x · socket hsocket)

theorem closes_of_none (hnone : ∀ x ∈ hs, x.socket? = none) : Closes [] hs where
  closed := closedSockets_of_still fun x hx => Happening.still_of_socket? (hnone x hx)
  none_else x hx := by
    have hstill := Happening.still_of_socket? (hnone x hx)
    refine ⟨hstill.opening, hstill.offered, hstill.taken, ?_⟩
    rw [Option.eq_none_iff_forall_ne_some]
    intro socket hused
    have hsocket := Happening.socket?_of_used hused
    simp [hnone x hx] at hsocket
  socket x hx socket hsocket := by simp [hnone x hx] at hsocket

theorem closes_map (sockets : List SocketId) :
    Closes sockets (sockets.map fun socket => .answered (.closeSocket socket) ()) where
  closed := by
    rw [closedSockets, List.filterMap_map]
    exact List.filterMap_some
  none_else x hx := by
    obtain ⟨socket, -, rfl⟩ := List.mem_map.1 hx
    exact ⟨rfl, rfl, rfl, rfl⟩
  socket x hx socket hsocket := by
    obtain ⟨own, hown, rfl⟩ := List.mem_map.1 hx
    cases hsocket
    exact hown

theorem closes_closings {c : Connection} (hfree : c.isTransferred → c.ownedSockets = []) :
    Closes c.ownedSockets c.closings := by
  by_cases hempty : c.isTransferred ∨ c.ownedSockets = []
  · rw [Connection.closings, if_pos hempty, hempty.elim hfree id]
    exact closes_of_none (by simp)
  · rw [Connection.closings, if_neg hempty]
    have hreport : Closes [] [.reported (.connectionEvent c.tableName "closed")] :=
      closes_of_none (by simp [Happening.socket?])
    simpa using (closes_map c.ownedSockets).append hreport

theorem closes_flatMap {cs : List Connection}
    (hfree : ∀ c ∈ cs, c.isTransferred → c.ownedSockets = []) :
    Closes (cs.flatMap Connection.ownedSockets) (cs.flatMap Connection.closings) := by
  induction cs with
  | nil => exact closes_of_none (by simp)
  | cons c cs ih =>
    obtain ⟨hc, hcs⟩ := List.forall_mem_cons.1 hfree
    exact (closes_closings hc).append (ih hcs)

theorem releases_sockets (h : Handler) : ∀ x ∈ h.releases, x.socket? = none := by
  intro x hx
  unfold releases at hx
  split at hx
  · cases hx
  · obtain ⟨_, -, rfl⟩ := List.mem_map.1 hx
    rfl

theorem closings_isRelease (c : Connection) : ∀ x ∈ c.closings, x.IsRelease := by
  intro x hx
  unfold Connection.closings at hx
  split at hx
  · cases hx
  · rw [List.mem_append, List.mem_map, List.mem_singleton] at hx
    obtain ⟨socket, -, rfl⟩ | rfl := hx
    · exact .socket socket
    · exact .closed _

theorem releases_isRelease (h : Handler) : ∀ x ∈ h.releases, x.IsRelease := by
  intro x hx
  unfold releases at hx
  split at hx
  · cases hx
  · obtain ⟨writer, -, rfl⟩ := List.mem_map.1 hx
    exact .writer writer

/-- To stop is to enter `stopping` and to release what is owned. -/
theorem stopHappenings_releases (h : Handler) : ∃ back, (∀ x ∈ back, x.IsRelease) ∧
    h.stopHappenings = .reported (.phaseEntered Phase.stopping.name) :: back := by
  refine ⟨_, List.forall_mem_append.2 ⟨fun x hx => ?_, h.releases_isRelease⟩, rfl⟩
  obtain ⟨c, -, hx⟩ := List.mem_flatMap.1 hx
  exact closings_isRelease c x hx

theorem mem_stopHappenings {x : Happening} (hx : x ∈ h.stopHappenings) :
    x = .reported (.phaseEntered Phase.stopping.name) ∨ x.IsRelease := by
  obtain ⟨back, hback, heq⟩ := h.stopHappenings_releases
  rw [heq, List.mem_cons] at hx
  exact hx.imp_right (hback x)

theorem stopHappenings_isWord (h : Handler) : ∀ x ∈ h.stopHappenings, x.isWord = false := by
  intro x hx
  obtain rfl | hx := mem_stopHappenings hx
  · rfl
  · cases hx <;> rfl

theorem stopForHappenings_isWord (h : Handler) (kind : String) :
    ∀ x ∈ h.stopForHappenings kind, x.isWord = false :=
  List.forall_mem_cons.2 ⟨rfl, h.stopHappenings_isWord⟩

theorem closes_stop (hfree : ∀ c ∈ h.connections, c.isTransferred → c.ownedSockets = []) :
    Closes h.ownedSockets h.stopHappenings := by
  have hphase : Closes [] [.reported (.phaseEntered Phase.stopping.name)] :=
    closes_of_none (by simp [Happening.socket?])
  have hclosed := hphase.append ((closes_flatMap hfree).append (closes_of_none h.releases_sockets))
  rwa [List.nil_append, List.append_nil] at hclosed

theorem closes_stopFor (hfree : ∀ c ∈ h.connections, c.isTransferred → c.ownedSockets = [])
    (kind : String) : Closes h.ownedSockets (h.stopForHappenings kind) := by
  have hreport : Closes [] [.reported (.failure kind)] :=
    closes_of_none (by simp [Happening.socket?])
  exact hreport.append (closes_stop hfree)

theorem Whole.free (hwhole : h.Whole) :
    ∀ c ∈ h.connections, c.isTransferred → c.ownedSockets = [] :=
  fun c hc => (hwhole.connections c hc).ownedSockets_eq_nil

/-- A handler that hears of a lost socket owned nothing of it. -/
theorem ownedSockets_erase (hwhole : h.Whole) (socket : SocketId) :
    ownedSockets { h with connections := h.connections.eraseP (isTakenAs socket) } =
      h.ownedSockets := by
  unfold ownedSockets
  rcases List.exists_or_eq_self_of_eraseP (isTakenAs socket) h.connections with
    hself | ⟨c, before, after, -, htaken, hsplit, herase⟩
  · rw [hself]
  · have hc : c.Sound := hwhole.connections c (by simp [hsplit])
    simp only [isTakenAs, Connection.isTransferred, Bool.and_eq_true, decide_eq_true_eq] at htaken
    simp only [Connection.Sound, htaken.1] at hc
    have hnone : c.ownedSockets = [] := by simp [Connection.ownedSockets, hc.1.2.1, hc.1.2.2]
    rw [herase, hsplit, List.flatMap_append, List.flatMap_append, List.flatMap_cons, hnone,
      List.nil_append]

/-! ### The view -/

/-- What a turn has to do with sockets. -/
inductive View : Handler → List Happening → Handler → Prop where
  | acts {h h' : Handler} {before after : List Connection} {c c' : Connection}
      {front hs back : List Happening} :
      h.AtWork → h'.AtWork → h.connections = before ++ c :: after →
      h'.connections = before ++ c' :: after → Connection.Act c hs c' →
      (∀ x ∈ front ++ back, x.socket? = none) → View h (front ++ hs ++ back) h'
  | goesOn {h h' : Handler} {hs : List Happening} :
      h.AtWork → h'.AtWork → h'.connections = h.connections → (∀ x ∈ hs, x.socket? = none) →
      View h hs h'
  | ends {h h' : Handler} {hs hs' : List Happening} :
      h.AtWork → ¬h'.AtWork → (∀ x ∈ hs, h.Talks x) → Closes h.ownedSockets hs' →
      View h (hs ++ hs') h'
  | rests {h h' : Handler} {hs : List Happening} :
      ¬h.AtWork → ¬h'.AtWork → (∀ x ∈ hs, x.socket? = none) → View h hs h'

theorem View.act {before after : List Connection} {c c' : Connection} (hwork : h.AtWork)
    (hwork' : h'.AtWork) (hconnections : h.connections = before ++ c :: after)
    (hconnections' : h'.connections = before ++ c' :: after) (hact : Connection.Act c hs c') :
    View h hs h' := by
  have hview : View h ([] ++ hs ++ []) h' :=
    .acts hwork hwork' hconnections hconnections' hact (by simp)
  simpa using hview

theorem not_atWork_stopping (hphase : h.phase = .stopping) : ¬h.AtWork :=
  fun hwork => hwork (.inl hphase)

theorem Fault.atWork {f : Failure} (hfault : Fault h hs f h') : h.AtWork := by
  cases hfault with
  | timeout _ hphase =>
    rcases hphase with (h | h) | h <;> exact atWork_of_phase h (by decide) rfl
  | connection hpolls => exact atWork_of_polls hpolls
  | divergence hphase => exact atWork_of_polls (show Polls _ [] from .inl hphase)
  | tableExists hphase | openWriter hphase | mismatch hphase | request hphase =>
    exact atWork_of_phase hphase (by decide) rfl
  | createTable hphase => exact atWork_of_phase hphase (by decide) rfl
  | handoff hhands => exact hhands.atWork

theorem IsGathering.atWork (hgathering : h.IsGathering) : h.AtWork :=
  atWork_of_polls (show h.Polls [] from .inl hgathering)

/-- If a handler is at work after a turn, then this was a move. -/
theorem Turn.move_of_atWork (hturn : Turn h hs h') (hwork : h'.AtWork) : Move h hs h' := by
  cases hturn with
  | move hmove => exact hmove
  | stops | loses => exact absurd hwork (not_atWork_stopping rfl)
  | letsGo _ hphase => exact absurd hwork (not_atWork_stopping hphase)
  | finishes _ _ hlast => exact absurd (.inr hlast) hwork
  | concludes _ hterminal => exact absurd (.inr hterminal) hwork

theorem atWork_of_live (hlive : h.phase.isLive) (hphase : h.phase ≠ .stopping) : h.AtWork := by
  rintro (hstopping | hterminal)
  · exact hphase hstopping
  · simp [Phase.isLive, hterminal] at hlive

theorem Move.view (hmove : Move h hs h') (hsound : h.Sound) : View h hs h' := by
  cases hmove with
  | exchange hpolls hconnections hstep =>
    have hwork := atWork_of_polls hpolls
    exact .act hwork hwork hconnections rfl (.step hstep)
  | tableInfo hphase hconnections hhear =>
    have hwork := hphase.atWork
    have hholds := (hsound.gathers hphase).holds _ (mem_of_split hconnections)
    exact .act hwork hwork hconnections rfl (.hear hholds hhear)
  | allConnected hphase =>
    refine .goesOn (atWork_of_phase hphase (by decide) rfl) ?_ rfl (by simp [Happening.socket?])
    exact atWork_of_phase rfl (by simp) rfl
  | rendezvous hphase _ hconnections hresolves hrequest =>
    have hsplit : h.connections = [] ++ _ := hconnections
    have hholds := (hsound.gathers (.inr hphase)).holds _ (mem_of_split hsplit)
    refine .acts (atWork_of_phase hphase (by decide) rfl)
      (atWork_of_phase rfl (by simp) rfl) hsplit rfl
      (.request hholds hrequest) ?_
    intro x hx
    rcases List.mem_append.1 hx with hx | hx
    · exact hresolves.sockets.1 x hx
    · rw [List.mem_singleton] at hx
      subst hx
      rfl
  | @streamStart _ _ _ _ hs' _ _ hphase hconnections hhear hsupplies =>
    have hsplit : h.connections = [] ++ _ := hconnections
    have hholds := (hsound.requests hphase).holds _ (mem_of_split hsplit)
    rw [List.append_assoc, ← List.nil_append (_ ++ (hs' ++ _)), ← List.append_assoc []]
    refine .acts (atWork_of_phase hphase (by decide) rfl)
      (atWork_of_phase rfl (by simp) rfl) hsplit rfl
      (.hear hholds hhear) ?_
    intro x hx
    rw [List.nil_append] at hx
    rcases List.mem_append.1 hx with hx | hx
    · exact hsupplies.sockets x hx
    · rw [List.mem_singleton] at hx
      subst hx
      rfl
  | writerTaken hphase | writerRefused hphase =>
    have hwork : h.AtWork := atWork_of_phase hphase (by decide) rfl
    exact .goesOn hwork hwork rfl (by simp [Happening.socket?])
  | write hhands hwrite =>
    exact .act hhands.atWork hhands.atWork hhands.2.2.1 rfl (.step (.write hwrite))
  | socketTaken hhands hoffer =>
    have hkept := hsound.kept_of_hands hhands
    exact .act hhands.atWork hhands.atWork hhands.2.2.1 rfl (.offer hkept hoffer)
  | socketRefused hhands hoffer =>
    have hkept := hsound.kept_of_hands hhands
    rw [← List.nil_append (_ ++ _), ← List.append_assoc []]
    exact .acts hhands.atWork hhands.atWork hhands.2.2.1 rfl (.offer hkept hoffer)
      (by simp [Happening.socket?])
  | waits hhands => exact .goesOn hhands.atWork hhands.atWork rfl (by simp [Happening.socket?])
  | streams _ hphase =>
    refine .goesOn (atWork_of_phase hphase (by decide) rfl) ?_ rfl (by simp [Happening.socket?])
    exact atWork_of_phase rfl (by simp) rfl
  | fails hfault =>
    obtain ⟨htalks, howned⟩ := hfault.talks hsound
    refine .ends hfault.atWork (not_atWork_stopping rfl) htalks ?_
    rw [← howned]
    exact closes_stopFor (hfault.whole hsound).free _
  | stopAccepted hphase | stopRefused hphase =>
    have hover : ¬h.AtWork := not_atWork_stopping hphase
    exact .rests hover hover (by simp [Happening.socket?])

theorem Turn.view (hturn : Turn h hs h') (hsound : h.Sound) : View h hs h' := by
  cases hturn with
  | move hmove => exact hmove.view hsound
  | stops hlive hphase =>
    rw [← List.nil_append h.stopHappenings]
    exact .ends (atWork_of_live hlive hphase) (not_atWork_stopping rfl) (by simp)
      (closes_stop hsound.toWhole.free)
  | @loses _ _ socket hlive hphase hfind heq =>
    subst heq
    have hcloses :=
      closes_stopFor (hsound.toWhole.erase (isTakenAs socket)).free "connection_closed"
    rw [ownedSockets_erase hsound.toWhole] at hcloses
    rw [← List.nil_append (stopForHappenings _ _)]
    exact .ends (atWork_of_live hlive hphase) (not_atWork_stopping rfl) (by simp) hcloses
  | letsGo _ hphase =>
    exact .rests (not_atWork_stopping hphase) (not_atWork_stopping hphase) (by simp)
  | finishes hphase _ hlast =>
    refine .rests (not_atWork_stopping hphase) ?_ (by simp [Happening.socket?])
    exact fun hwork => hwork (.inr hlast)
  | concludes _ hterminal =>
    have hover : ¬h.AtWork := fun hwork => hwork (.inr hterminal)
    exact .rests hover hover (by simp [Happening.socket?])

/-! ### Sockets -/

theorem ownedSockets_of_over (hsound : h.Sound) (hover : ¬h.AtWork) : h.ownedSockets = [] := by
  have hall := (hsound.isOver (Decidable.not_not.1 hover)).connections
  exact List.flatMap_eq_nil_iff.2 fun c hc => hsound.toWhole.free c hc (hall c hc)

theorem ownedWriters_of_over (hsound : h.Sound) (hover : ¬h.AtWork) : h.ownedWriters = [] := by
  rw [ownedWriters, (hsound.isOver (Decidable.not_not.1 hover)).writer, Option.toList_none]

theorem Closes.openings {sockets : List SocketId} (hcloses : Closes sockets hs) :
    openings hs = [] ∧ takenSockets hs = [] :=
  ⟨List.filterMap_eq_nil_iff.2 fun x hx => (hcloses.none_else x hx).1,
    List.filterMap_eq_nil_iff.2 fun x hx => (hcloses.none_else x hx).2.2.1⟩

/-- What a handler owned it owns after a turn, or the multiplexer took it, or it was closed. -/
theorem Turn.sockets (hturn : Turn h hs h') (hsound : h.Sound) :
    openings hs = [] ∧
      h.ownedSockets.Perm (h'.ownedSockets ++ takenSockets hs ++ closedSockets hs) := by
  cases hturn.view hsound with
  | @acts _ before after c c' front hs back _ _ hconnections hconnections' hact hnone =>
    obtain ⟨hopen, hclosed, howned⟩ := hact.custody
    have hfront : ∀ x ∈ front, x.Still := fun x hx =>
      Happening.still_of_socket? (hnone x (List.mem_append_left back hx))
    have hback : ∀ x ∈ back, x.Still := fun x hx =>
      Happening.still_of_socket? (hnone x (List.mem_append_right front hx))
    refine ⟨by simp [openings_of_still hfront, openings_of_still hback, hopen], ?_⟩
    simp only [ownedSockets, hconnections, hconnections', takenSockets_append,
      closedSockets_append, takenSockets_of_still hfront, takenSockets_of_still hback,
      closedSockets_of_still hfront, closedSockets_of_still hback, hclosed, List.flatMap_append,
      List.flatMap_cons, howned, List.append_nil, List.nil_append, List.append_assoc]
    refine List.Perm.append_left _ (List.Perm.append_left _ ?_)
    exact List.perm_append_comm
  | goesOn _ _ hconnections hnone =>
    have hstill : ∀ x ∈ hs, x.Still := fun x hx => Happening.still_of_socket? (hnone x hx)
    refine ⟨openings_of_still hstill, ?_⟩
    rw [ownedSockets, ownedSockets, hconnections, takenSockets_of_still hstill,
      closedSockets_of_still hstill, List.append_nil, List.append_nil]
  | @ends _ hs hs' _ hover htalks hcloses =>
    have hstill : ∀ x ∈ hs, x.Still := fun x hx => (htalks x hx).1
    obtain ⟨hopen, htaken⟩ := hcloses.openings
    refine ⟨by simp [openings_of_still hstill, hopen], ?_⟩
    rw [ownedSockets_of_over (hturn.sound hsound) hover, takenSockets_append, closedSockets_append,
      takenSockets_of_still hstill, closedSockets_of_still hstill, htaken, hcloses.closed]
    exact List.Perm.refl _
  | rests hover hover' hnone =>
    have hstill : ∀ x ∈ hs, x.Still := fun x hx => Happening.still_of_socket? (hnone x hx)
    refine ⟨openings_of_still hstill, ?_⟩
    rw [ownedSockets_of_over hsound hover, ownedSockets_of_over (hturn.sound hsound) hover',
      takenSockets_of_still hstill, closedSockets_of_still hstill]
    exact List.Perm.refl _

/-! ### Writers -/

/-- Whatever writer the handler owned or received it owns afterwards, or the multiplexer took it, or
it was released. -/
def Balances (h : Handler) (hs : List Happening) (h' : Handler) : Prop :=
  (receivedWriters hs ++ h.ownedWriters).Perm
    (h'.ownedWriters ++ takenWriters hs ++ releasedWriters hs)

theorem balances_of_none (hnone : ∀ x ∈ hs, x.writer? = none) (hwriter : h'.writer = h.writer) :
    Balances h hs h' := by
  have hreceived : receivedWriters hs = [] :=
    List.filterMap_eq_nil_iff.2 fun x hx => (Happening.of_writer? (hnone x hx)).1
  have hreleased : releasedWriters hs = [] :=
    List.filterMap_eq_nil_iff.2 fun x hx => (Happening.of_writer? (hnone x hx)).2.1
  have htaken : takenWriters hs = [] :=
    List.filterMap_eq_nil_iff.2 fun x hx => (Happening.of_writer? (hnone x hx)).2.2
  rw [Balances, ownedWriters, ownedWriters, hwriter, hreceived, hreleased, htaken]
  simp

theorem balances_report (m : Metric) (hwriter : h'.writer = h.writer) :
    Balances h [.reported m] h' :=
  balances_of_none (by simp [Happening.writer?]) hwriter

theorem Balances.append {h₁ : Handler} {hs' : List Happening} (hfirst : Balances h hs h₁)
    (hsecond : Balances h₁ hs' h') : Balances h (hs ++ hs') h' := by
  simp only [Balances, List.perm_iff_count, List.count_append, receivedWriters_append,
    takenWriters_append, releasedWriters_append] at hfirst hsecond ⊢
  intro writer
  have hfirst := hfirst writer
  have hsecond := hsecond writer
  omega

theorem closings_writer (c : Connection) : ∀ x ∈ c.closings, x.writer? = none := by
  intro x hx
  unfold Connection.closings at hx
  split at hx
  · cases hx
  · rw [List.mem_append, List.mem_map, List.mem_singleton] at hx
    obtain ⟨_, -, rfl⟩ | rfl := hx <;> rfl

theorem balances_stop (h : Handler) : Balances h h.stopHappenings h.stopped := by
  have hclose : Balances h (.reported (.phaseEntered Phase.stopping.name) ::
      h.connections.flatMap Connection.closings) h := by
    refine balances_of_none (List.forall_mem_cons.2 ⟨rfl, fun x hx => ?_⟩) rfl
    obtain ⟨c, -, hx⟩ := List.mem_flatMap.1 hx
    exact closings_writer c x hx
  have hrelease : Balances h h.releases h.stopped := by
    cases htransferred : h.writerTransferred <;> cases hwriter : h.writer <;>
      simp [Balances, releases, stopped, ownedWriters, htransferred, hwriter, receivedWriters,
        takenWriters, releasedWriters, Happening.received?, Happening.takenWriter?,
        Happening.released?]
  exact hclose.append hrelease

theorem balances_stopFor (h : Handler) (kind : String) (reason : StopReason) :
    Balances h (h.stopForHappenings kind) (h.stoppedFor reason) := by
  have hstop := balances_stop { h with failure := h.failure.or (some reason) }
  exact (balances_report (.failure kind) rfl).append hstop

theorem Resolves.balances {rows : UInt64} (hresolves : h.Resolves hs rows h')
    (hwriter : h.writer = none) : Balances h hs h' := by
  cases hresolves <;>
    simp [Balances, ownedWriters, hwriter, receivedWriters, takenWriters, releasedWriters,
      Happening.received?, Happening.takenWriter?, Happening.released?]

theorem Supplies.balances {start : StartOfReplicationStream} {writer : TableWriter}
    (hsupplies : Supplies h.tableName h.writer start hs writer)
    (hwriter : h'.writer = some writer) : Balances h hs h' := by
  cases hsupplies with
  | kept howned => simp [Balances, ownedWriters, howned, hwriter, receivedWriters, takenWriters,
      releasedWriters]
  | created howned => simp [Balances, ownedWriters, howned, hwriter, receivedWriters, takenWriters,
      releasedWriters, Happening.received?, Happening.takenWriter?, Happening.released?]

theorem Fault.balances {f : Failure} (hfault : Fault h hs f h') (hsound : h.Sound) :
    Balances h hs h' := by
  cases hfault with
  | timeout => exact balances_of_none (by simp) rfl
  | tableExists | openWriter => exact balances_of_none (by simp [Happening.writer?]) rfl
  | mismatch =>
    simp only [Balances, receivedWriters, Happening.received?, List.filterMap_cons_none,
      Option.some.injEq, List.filterMap_cons_some, List.filterMap_nil, ownedWriters,
      List.cons_append,
      List.nil_append, takenWriters, Happening.takenWriter?, List.append_nil, releasedWriters,
      Happening.released?]
    exact (List.perm_append_singleton _ _).symm
  | connection _ _ hfault | handoff _ hfault =>
    refine balances_of_none (fun x hx => ?_) rfl
    exact (Connection.Talk.traffic (hfault.traffic.2 x hx)).writer
  | divergence hphase hconnections hhear =>
    have hholds := (hsound.gathers hphase).holds _ (mem_of_split hconnections)
    exact balances_of_none (fun x hx => ((hhear.talk hholds).2 x hx).writer) rfl
  | @request h₁ first first' rest hs₁ hs₂ _ _ hphase _ hconnections hresolves hrequest =>
    have hsplit : h.connections = [] ++ first :: rest := hconnections
    have hgathers := hsound.gathers (.inr hphase)
    have hholds := hgathers.holds _ (mem_of_split hsplit)
    refine (hresolves.balances hgathers.writer).append (balances_of_none (fun x hx => ?_) rfl)
    exact ((hrequest.talk hholds).2 x hx).writer
  | createTable hphase hconnections hhear =>
    have hsplit : h.connections = [] ++ _ := hconnections
    have hholds := (hsound.requests hphase).holds _ (mem_of_split hsplit)
    refine balances_of_none (fun x hx => ?_) rfl
    rcases List.mem_append.1 hx with hx | hx
    · exact ((hhear.talk hholds).2 x hx).writer
    · rw [List.mem_singleton] at hx
      subst hx
      rfl

theorem Move.writers (hmove : Move h hs h') (hsound : h.Sound) : Balances h hs h' := by
  cases hmove with
  | exchange _ _ hstep =>
    exact balances_of_none (Connection.Act.writer (.step hstep)) rfl
  | tableInfo hphase hconnections hhear =>
    have hholds := (hsound.gathers hphase).holds _ (mem_of_split hconnections)
    exact balances_of_none (Connection.Act.writer (.hear hholds hhear)) rfl
  | allConnected | writerRefused | waits | streams | stopAccepted | stopRefused =>
    exact balances_of_none (by simp [Happening.writer?]) rfl
  | @rendezvous h₁ first first' rest _ hs' _ hphase _ hconnections hresolves hrequest =>
    have hsplit : h.connections = [] ++ _ := hconnections
    have hgathers := hsound.gathers (.inr hphase)
    have hholds := hgathers.holds _ (mem_of_split hsplit)
    have hask : Balances h₁ hs' (h₁.put [] first' rest) :=
      balances_of_none (Connection.Act.writer (.request hholds hrequest)) rfl
    exact ((hresolves.balances hgathers.writer).append hask).append (balances_report _ rfl)
  | @streamStart first first' rest hs₁ hs₂ _ _ hphase hconnections hhear hsupplies =>
    have hsplit : h.connections = [] ++ _ := hconnections
    have hholds := (hsound.requests hphase).holds _ (mem_of_split hsplit)
    have hhear : Balances h hs₁ h :=
      balances_of_none (Connection.Act.writer (.hear hholds hhear)) rfl
    exact (hhear.append (hsupplies.balances rfl)).append (balances_report _ rfl)
  | writerTaken _ _ hwriter =>
    simp [Balances, ownedWriters, hwriter, receivedWriters, takenWriters, releasedWriters,
      Happening.received?, Happening.takenWriter?, Happening.released?]
  | write _ hwrite => exact balances_of_none (Connection.Act.writer (.step (.write hwrite))) rfl
  | socketTaken hhands hoffer =>
    have hkept := hsound.kept_of_hands hhands
    exact balances_of_none (Connection.Act.writer (.offer hkept hoffer)) rfl
  | socketRefused hhands hoffer =>
    have hkept := hsound.kept_of_hands hhands
    refine balances_of_none (fun x hx => ?_) rfl
    rcases List.mem_append.1 hx with hx | hx
    · exact Connection.Act.writer (.offer hkept hoffer) x hx
    · rw [List.mem_singleton] at hx
      subst hx
      rfl
  | fails hfault => exact (hfault.balances hsound).append (balances_stopFor _ _ _)

theorem Turn.writers (hturn : Turn h hs h') (hsound : h.Sound) : Balances h hs h' := by
  cases hturn with
  | move hmove => exact hmove.writers hsound
  | stops => exact balances_stop h
  | @loses _ c socket _ _ _ heq =>
    subst heq
    have herase : Balances h [] { h with connections := h.connections.eraseP (isTakenAs socket) } :=
      balances_of_none (by simp) rfl
    exact herase.append (balances_stopFor _ _ _)
  | letsGo => exact balances_of_none (by simp) rfl
  | finishes | concludes => exact balances_of_none (by simp [Happening.writer?]) rfl

end Handler

end ReplicaHandshake
