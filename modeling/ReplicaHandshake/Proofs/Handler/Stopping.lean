import Mathlib.Data.List.Basic
import ReplicaHandshake.Proofs.Handler.Drained

/-!
# Waiting for the multiplexer

A handler that is stopping has released what it owned, and has nothing left to do but to *urge* the
multiplexer:  to ask it to let go of the peer, once in every poll until it accepts.  Nobody else
urges it (`Life.urges`, `poll_urges`), and nothing else is done on behalf of a handler that has
stopped (`Turn.lingers`, `Life.only_lingers`).

What such a handler has left are connections whose sockets the multiplexer has
(`Sound.handed_of_over`), and of these it only loses some (`lingers_of_way`).
-/

namespace ReplicaHandshake

namespace Happening

/-- The peer of which the multiplexer was asked to let go, whatever it answered. -/
def urged? : Happening → Option PeerId
  | answered (.stopPeer peer) _ => some peer
  | _ => none

/-- Neither is the multiplexer asked to let go, nor are disconnections fetched. -/
def IsWork (x : Happening) : Prop :=
  x.urged? = none ∧ x.fetched = []

/-- What may happen on behalf of a peer while its handler lingers: the multiplexer is asked to let
go, and at last the handler comes to its end. -/
inductive Lingers (peer : PeerId) : Happening → Prop where
  | urges (answer : Bool) : Lingers peer (.answered (.stopPeer peer) answer)
  | retries : Lingers peer (.reported (.handoffRetry "stop"))
  | ends {last : Phase} : last.isTerminal → Lingers peer (.reported (.phaseEntered last.name))
  | concludes (tableName outcome : String) : Lingers peer
    (.reported (.handlerOutcome tableName outcome))

theorem IsRelease.isWork {x : Happening} (h : x.IsRelease) : x.IsWork := by
  cases h <;> exact ⟨rfl, rfl⟩

theorem Lingers.untaken {peer : PeerId} {x : Happening} (h : Lingers peer x) :
    x.taken? = none ∧ x.fetched = [] := by
  cases h <;> exact ⟨rfl, rfl⟩

end Happening

/-- The peers of which the multiplexer was asked to let go, as often as it was asked. -/
def urgings (hs : List Happening) : List PeerId :=
  hs.filterMap (·.urged?)

@[simp] theorem urgings_append (past hs : List Happening) :
    urgings (past ++ hs) = urgings past ++ urgings hs :=
  List.filterMap_append

theorem Connection.Traffic.isWork {c : Connection} {x : Happening} (h : Traffic c x) :
    x.IsWork := by
  cases h <;> exact ⟨rfl, rfl⟩

namespace Handler

variable {h h' h₁ : Handler} {past hs : List Happening} {table : TableSettings}

/-! ### Work -/

/-- All that happens is work. -/
def Works (hs : List Happening) : Prop :=
  ∀ x ∈ hs, x.IsWork

theorem Works.append {hs' : List Happening} (h : Works hs) (h' : Works hs') : Works (hs ++ hs') :=
  List.forall_mem_append.2 ⟨h, h'⟩

theorem works_cons {x : Happening} (hx : x.IsWork) (h : Works hs) : Works (x :: hs) :=
  List.forall_mem_cons.2 ⟨hx, h⟩

theorem works_nil : Works [] :=
  List.forall_mem_nil _

theorem Works.urgings (h : Works hs) : urgings hs = [] :=
  List.filterMap_eq_nil_iff.2 fun x hx => (h x hx).1

theorem Works.unfetched (h : Works hs) : ∀ x ∈ hs, x.fetched = [] :=
  fun x hx => (h x hx).2

theorem works_of_traffic {c : Connection} (h : ∀ x ∈ hs, Connection.Traffic c x) : Works hs :=
  fun x hx => (h x hx).isWork

theorem works_of_hear {c c' : Connection} {event : ConnectionEvent}
    (h : Connection.Hear c hs event c') :
    Works hs := by
  cases h with
  | accept => exact works_cons ⟨rfl, rfl⟩ (works_cons ⟨rfl, rfl⟩ works_nil)

theorem works_of_offer {c c' : Connection} {taken : Bool} (h : Connection.Offer c hs taken c') :
    Works hs := by
  cases h <;> exact works_cons ⟨rfl, rfl⟩ works_nil

theorem Resolves.works {rows : UInt64} (h : h.Resolves hs rows h') : Works hs := by
  cases h with
  | absent => exact works_cons ⟨rfl, rfl⟩ works_nil
  | present => exact works_cons ⟨rfl, rfl⟩ (works_cons ⟨rfl, rfl⟩ works_nil)

theorem Supplies.works {tableName : String} {owned : Option TableWriter}
    {start : StartOfReplicationStream} {writer : TableWriter}
    (h : Supplies tableName owned start hs writer) : Works hs := by
  cases h with
  | kept => exact works_nil
  | created => exact works_cons ⟨rfl, rfl⟩ (works_cons ⟨rfl, rfl⟩ works_nil)

theorem Fault.works {f : Failure} (hfault : Fault h hs f h') : Works hs := by
  cases hfault with
  | timeout => exact works_nil
  | tableExists => exact works_cons ⟨rfl, rfl⟩ works_nil
  | openWriter => exact works_cons ⟨rfl, rfl⟩ (works_cons ⟨rfl, rfl⟩ works_nil)
  | mismatch =>
    exact works_cons ⟨rfl, rfl⟩ (works_cons ⟨rfl, rfl⟩ (works_cons ⟨rfl, rfl⟩ works_nil))
  | connection _ _ hfault | handoff _ hfault => exact works_of_traffic hfault.traffic.2
  | divergence _ _ hhear => exact works_of_hear hhear
  | createTable _ _ hhear => exact (works_of_hear hhear).append (works_cons ⟨rfl, rfl⟩ works_nil)
  | request _ _ _ hresolves hrequest =>
    refine hresolves.works.append ?_
    obtain ⟨-, rfl | ⟨back, rfl, htraffic⟩⟩ := hrequest.traffic
    · exact works_nil
    · exact works_cons ⟨rfl, rfl⟩ (works_of_traffic htraffic)

theorem Opens.works {cs cs' : List Connection} {f : Option Failure} (h : Opens cs hs f cs') :
    Works hs := by
  induction h with
  | done => exact works_nil
  | opened _ _ ih => exact works_cons ⟨rfl, rfl⟩ ih
  | refused => exact works_cons ⟨rfl, rfl⟩ works_nil

theorem works_stop (h : Handler) : Works h.stopHappenings := by
  obtain ⟨back, hback, heq⟩ := h.stopHappenings_releases
  rw [heq]
  exact works_cons ⟨rfl, rfl⟩ fun x hx => (hback x hx).isWork

theorem works_stopFor (h : Handler) (kind : String) : Works (h.stopForHappenings kind) :=
  works_cons ⟨rfl, rfl⟩ h.works_stop

theorem Begins.works (hbegins : Begins h hs h') : Works hs := by
  have hgreetings : Works h.greetings := works_cons ⟨rfl, rfl⟩ (works_cons ⟨rfl, rfl⟩ works_nil)
  cases hbegins with
  | opens hopens => exact hgreetings.append hopens.works
  | fails hopens => exact (hgreetings.append hopens.works).append (works_stopFor _ _)

theorem Stops.works (hstops : Stops h hs h') : Works hs := by
  cases hstops with
  | stops => exact h.works_stop
  | isStopping => exact works_nil

theorem Hears.works {socket : SocketId} (hhears : Hears socket h hs h') : Works hs := by
  cases hhears with
  | isOther | letsGo => exact works_nil
  | loses => exact works_stopFor _ _

/-! ### Urging -/

/-- The handler has still to ask the multiplexer to let go. -/
def Owes (h : Handler) : Prop :=
  h.phase = .stopping ∧ h.needsPeerStop = true ∧ h.peerStopAccepted = false

/-- A move is work, unless the handler still has to urge the multiplexer, and then it
urges it once. -/
theorem Move.urges (hmove : Move h hs h') :
    Works hs ∨ h.Owes ∧ ∃ answer back, hs = .answered (.stopPeer h.peer) answer :: back ∧
      Works back := by
  have hreported : ∀ m, Works [.reported m] := fun m => List.forall_mem_singleton.2 ⟨rfl, rfl⟩
  cases hmove with
  | exchange _ _ hstep => exact .inl (works_of_traffic hstep.traffic.2)
  | tableInfo _ _ hhear => exact .inl (works_of_hear hhear)
  | allConnected | waits => exact .inl (hreported _)
  | rendezvous _ _ _ hresolves hrequest =>
    obtain ⟨-, back, rfl, htraffic⟩ := hrequest.traffic
    have hback := works_of_traffic htraffic
    exact .inl ((hresolves.works.append (works_cons ⟨rfl, rfl⟩ hback)).append (hreported _))
  | streamStart _ _ hhear hsupplies =>
    exact .inl (((works_of_hear hhear).append hsupplies.works).append (hreported _))
  | writerTaken => exact .inl (works_cons ⟨rfl, rfl⟩ works_nil)
  | writerRefused => exact .inl (works_cons ⟨rfl, rfl⟩ (hreported _))
  | write _ hwrite => exact .inl (works_of_traffic hwrite.traffic.2)
  | socketTaken _ hoffer => exact .inl (works_of_offer hoffer)
  | socketRefused _ hoffer => exact .inl ((works_of_offer hoffer).append (hreported _))
  | streams => exact .inl (works_cons ⟨rfl, rfl⟩ (hreported _))
  | fails hfault => exact .inl (hfault.works.append (works_stopFor _ _))
  | stopAccepted hphase hneeds haccepted =>
    exact .inr ⟨⟨hphase, hneeds, haccepted⟩, true, [], rfl, works_nil⟩
  | stopRefused hphase hneeds haccepted =>
    exact .inr ⟨⟨hphase, hneeds, haccepted⟩, false, _, rfl, hreported _⟩

theorem Turn.urges (hturn : Turn h hs h') :
    Works hs ∨ h.Owes ∧ ∃ answer back, hs = .answered (.stopPeer h.peer) answer :: back ∧
      Works back := by
  cases hturn with
  | move hmove => exact hmove.urges
  | stops => exact .inl h.works_stop
  | loses => exact .inl (works_stopFor _ _)
  | letsGo => exact .inl works_nil
  | finishes | concludes => exact .inl (works_cons ⟨rfl, rfl⟩ works_nil)

theorem Turn.unfetched (hturn : Turn h hs h') : ∀ x ∈ hs, x.fetched = [] := by
  obtain hworks | ⟨-, answer, back, rfl, hworks⟩ := hturn.urges
  · exact hworks.unfetched
  · exact List.forall_mem_cons.2 ⟨rfl, hworks.unfetched⟩

/-- The multiplexer is urged in time: for the peer itself, after its handler has come to be
stopping and while it is, only if the multiplexer took its writer, and not any more when it has
said that it lets go. -/
structure InTime (peer : PeerId) (past : List Happening) : Prop where
  stopping : (phases past).getLast? = some Phase.stopping.name
  took : takenWriters past ≠ []
  kept : peer ∉ freedPeers past

/-- If a happening urges the multiplexer, then it does so for this peer, and in time. -/
def Urges (peer : PeerId) (past : List Happening) (x : Happening) : Prop :=
  ∀ urged, x.urged? = some urged → urged = peer ∧ InTime peer past

theorem Works.urges {peer : PeerId} (hworks : Works hs) (past : List Happening) :
    Along (Urges peer) past hs := by
  refine along_of_forall fun x hx past urged hurged => ?_
  rw [(hworks x hx).1] at hurged
  cases hurged

/-- A handler owes it to the multiplexer to ask it to let go exactly as long as it is stopping, and
the multiplexer took its writer and did not say that it lets go. -/
theorem Life.owes_iff (hlife : Life table past h) :
    h.Owes ↔ h.phase = .stopping ∧ takenWriters past ≠ [] ∧ h.peer ∉ freedPeers past := by
  refine and_congr_right fun hphase => and_congr ?_ ?_
  · rw [hlife.needsPeerStop (not_atWork_stopping hphase), hlife.writerTransferred_iff]
  · rw [← hlife.freed_iff, Bool.not_eq_true]

/-- On behalf of a handler the multiplexer is urged in time. -/
theorem Life.urges (hlife : Life table past h) : Along (Urges h.peer) [] past := by
  induction hlife with
  | begins _ hbegins => exact hbegins.works.urges []
  | @turns past hs h h' hlife hturn ih =>
    rw [hturn.name.1]
    refine along_append.2 ⟨ih, ?_⟩
    rw [List.nil_append]
    obtain hworks | ⟨howes, answer, back, rfl, hback⟩ := hturn.urges
    · exact hworks.urges past
    · refine along_cons.2 ⟨fun urged hurged => ?_, hback.urges _⟩
      cases hurged
      obtain ⟨hphase, htook, hkept⟩ := hlife.owes_iff.1 howes
      exact ⟨rfl, by rw [hlife.phase, hphase], htook, hkept⟩

theorem works_of_way (hway : Way Move h hs h') (hphase : h'.phase ≠ .stopping) : Works hs := by
  induction hway with
  | refl => exact works_nil
  | @tail h₁ h₂ _ _ hway hmove ih =>
    obtain hworks | ⟨⟨hstopping, -⟩, -⟩ := hmove.urges
    · refine (ih fun hstopping => hphase ?_).append hworks
      rw [hmove.phase_of_over (by rw [hstopping]; decide), hstopping]
    · exact absurd (by rw [hmove.phase_of_over (by rw [hstopping]; decide), hstopping]) hphase

/-- What a stopping handler does when it is polled: it asks the multiplexer to let go, if it
still has to. -/
inductive Pleads : Handler → List Happening → Handler → Prop where
  | idle {h : Handler} : h.phase = .stopping → ¬h.Owes → Pleads h [] h
  | freed {h : Handler} : h.Owes →
      Pleads h [.answered (.stopPeer h.peer) true] { h with peerStopAccepted := true }
  | kept {h : Handler} : h.Owes →
      Pleads h [.answered (.stopPeer h.peer) false, .reported (.handoffRetry "stop")] h

theorem pollStopping_pleads (hphase : h.phase = .stopping) :
    Work.Always pollStopping h fun hs _ h' => Pleads h hs h' := by
  simp only [pollStopping, Work.always_bind, Work.always_get, List.nil_append, Bool.or_eq_true,
    Bool.not_eq_true']
  split
  next hdone =>
    refine Work.always_pure.2 (.idle hphase fun howes => ?_)
    rw [howes.2.1, howes.2.2] at hdone
    exact hdone.elim Bool.noConfusion Bool.noConfusion
  next howes =>
    rw [not_or, Bool.not_eq_false, Bool.not_eq_true] at howes
    have howes : h.Owes := ⟨hphase, howes⟩
    simpa only [Dialogue.stopPeer, Dialogue.call, report, bind_pure_comp, Work.always_bind,
      Work.always_lift, Dialogue.always_ask, Dialogue.always_done, Bool.forall_bool,
      Bool.false_eq_true, if_true, if_false,
      Work.always_map, Dialogue.always_metric, Work.always_set] using ⟨Pleads.kept howes,
      Pleads.freed howes⟩

theorem poll_pleads {now : Instant} (hphase : h.phase = .stopping) :
    Work.Always (poll now) h fun hs _ h' => Pleads h hs h' := by
  simp only [poll, Work.always_bind, Work.always_get, List.nil_append, hphase, Phase.isHandshaking,
    Bool.false_eq_true, if_false, if_true]
  exact pollStopping_pleads hphase

theorem Pleads.urgings (hpleads : Pleads h hs h') :
    (h.Owes → urgings hs = [h.peer]) ∧ (¬h.Owes → urgings hs = []) := by
  cases hpleads with
  | idle _ hnot => exact ⟨fun howes => absurd howes hnot, fun _ => rfl⟩
  | freed howes | kept howes => exact ⟨fun _ => rfl, fun hnot => absurd howes hnot⟩

theorem Pleads.phase (hpleads : Pleads h hs h') : h.phase = .stopping := by
  cases hpleads with
  | idle hphase => exact hphase
  | freed howes | kept howes => exact howes.1

theorem Pleads.moves (hpleads : Pleads h hs h') : Way Move h hs h' := by
  cases hpleads with
  | idle => exact .refl h
  | freed howes => exact .single (.stopAccepted howes.1 howes.2.1 howes.2.2)
  | kept howes => exact .single (.stopRefused howes.1 howes.2.1 howes.2.2)

/-- In a poll a handler urges the multiplexer once if it still has to, and otherwise not at all. -/
theorem poll_urges {now : Instant} (hsound : h.Sound) :
    Work.Always (poll now) h fun hs _ _ =>
      (h.Owes → urgings hs = [h.peer]) ∧ (¬h.Owes → urgings hs = []) := by
  by_cases hstopping : h.phase = .stopping
  · exact (poll_pleads hstopping).mono fun _ _ _ => Pleads.urgings
  have hidle : ∀ {hs : List Happening}, Works hs →
      (h.Owes → urgings hs = [h.peer]) ∧ (¬h.Owes → urgings hs = []) :=
    fun hworks => ⟨fun howes => absurd howes.1 hstopping, fun _ => hworks.urgings⟩
  simp only [poll, Work.always_bind, Work.always_get]
  by_cases hphase : h.phase.isHandshaking
  · simp only [hphase, if_true, Work.always_bind, Task.always_perform, List.nil_append]
    refine (pollHandshake_always hsound hphase).mono ?_ ?_
    · rintro hs busy h' hadvances
      rw [Work.always_pure, List.append_nil]
      exact hidle (works_of_way hadvances.way (hadvances.unstopped hstopping))
    · rintro _ f h' ⟨h₁, hs₁, hs₂, rfl, hway, hfault⟩
      have hfaulty := isLive_of_isHandshaking hfault.isHandshaking
      have hworks := (works_of_way hway hfaulty.2).append hfault.works
      rw [← hfault.phase_eq] at hfaulty
      refine (fail_always hfaulty.1 hfaulty.2).mono ?_
      rintro _ _ _ ⟨rfl, -⟩
      rw [Work.always_pure, List.append_nil]
      exact hidle (hworks.append (works_stopFor h' f.kind))
  · simpa [hphase, hstopping] using hidle works_nil

/-! ### Lingering -/

/-- Nothing is done on behalf of a handler that has stopped but to urge the multiplexer, and the
handler keeps its connections or loses some. -/
theorem Turn.lingers (hturn : Turn h hs h') (hover : ¬h.AtWork) :
    (∀ x ∈ hs, x.Lingers h.peer) ∧ h'.connections.Sublist h.connections := by
  have hone : ∀ {x : Happening}, x.Lingers h.peer → ∀ y ∈ [x], y.Lingers h.peer :=
    fun hx => List.forall_mem_singleton.2 hx
  cases hturn with
  | move hmove =>
    cases hmove with
    | exchange hpolls => exact absurd (atWork_of_polls hpolls) hover
    | tableInfo hphase => exact absurd hphase.atWork hover
    | allConnected hphase | rendezvous hphase | streamStart hphase | streams now hphase
      | writerTaken hphase | writerRefused hphase =>
      exact absurd (atWork_of_phase hphase (by decide) rfl) hover
    | write hhands | socketTaken hhands | socketRefused hhands | waits hhands =>
      exact absurd hhands.atWork hover
    | fails hfault => exact absurd hfault.atWork hover
    | stopAccepted => exact ⟨hone (.urges true), .refl _⟩
    | stopRefused => exact ⟨List.forall_mem_cons.2 ⟨.urges false, hone .retries⟩, .refl _⟩
  | stops hlive hphase | loses hlive hphase => exact absurd (atWork_of_live hlive hphase) hover
  | letsGo => exact ⟨List.forall_mem_nil _, List.eraseP_sublist⟩
  | finishes _ _ hterminal => exact ⟨hone (.ends hterminal), .refl _⟩
  | concludes outcome => exact ⟨hone (.concludes _ outcome), .refl _⟩

theorem Turn.over (hturn : Turn h hs h') (hsound : h.Sound) (hover : ¬h.AtWork) : ¬h'.AtWork :=
  fun hwork => hover ((hturn.view hsound).roster hwork).1

theorem lingers_of_way (hway : Way Turn h hs h') (hsound : h.Sound) (hover : ¬h.AtWork) :
    ¬h'.AtWork ∧ (∀ x ∈ hs, x.Lingers h.peer) ∧ h'.connections.Sublist h.connections := by
  induction hway with
  | refl => exact ⟨hover, List.forall_mem_nil _, .refl _⟩
  | tail hway hturn ih =>
    obtain ⟨hover₁, hlingers, hsub⟩ := ih
    obtain ⟨hlingers', hsub'⟩ := hturn.lingers hover₁
    rw [peer_of_way hway] at hlingers'
    exact ⟨hturn.over (sound_of_way hsound hway) hover₁,
      List.forall_mem_append.2 ⟨hlingers, hlingers'⟩, hsub'.trans hsub⟩

/-- The connections that a stopped handler has left are those whose sockets the multiplexer has. -/
theorem Sound.handed_of_over (hsound : h.Sound) (hover : ¬h.AtWork) :
    h.connections.map (·.socketId) = h.handedSockets.map some := by
  have htaken := (hsound.isOver (Decidable.not_not.1 hover)).connections
  have hparts := hsound.connections
  unfold handedSockets
  generalize h.connections = cs at htaken hparts
  induction cs with
  | nil => rfl
  | cons c cs ih =>
    obtain ⟨hc, htaken⟩ := List.forall_mem_cons.1 htaken
    obtain ⟨hsound, hparts⟩ := List.forall_mem_cons.1 hparts
    have hstate : c.state = .transferred := by simpa [Connection.isTransferred] using hc
    simp only [Connection.Sound, hstate, Connection.Given] at hsound
    obtain ⟨socket, hsocket⟩ := Option.isSome_iff_exists.1 hsound.1.1
    have hhanded : c.handedSocket? = some socket := by
      rw [Connection.handedSocket?, if_pos hc, hsocket]
    rw [List.map_cons, List.filterMap_cons_some hhanded, List.map_cons, ih htaken hparts, hsocket]

/-- What a handler says when it turns to stopping. -/
abbrev turnsToStopping : Happening :=
  .reported (.phaseEntered Phase.stopping.name)

theorem Uneventful.not_stopping (h : Uneventful hs) : turnsToStopping ∉ hs :=
  fun hmem => absurd (h _ hmem) (by decide)

/-- Whoever turns to stopping does so once, and releases what it owns. -/
theorem Course.releases (hcourse : Course h hs h') (hmem : turnsToStopping ∈ hs) : ∃ front back,
    hs = front ++ turnsToStopping :: back ∧ turnsToStopping ∉ front ∧ ∀ x ∈ back, x.IsRelease := by
  cases hcourse with
  | stays hquiet => exact absurd hmem hquiet.not_stopping
  | freed => exact absurd hmem (by simp)
  | enters _ hother _ hfront hback =>
    obtain hmem | heq | hmem := (List.mem_append.1 hmem).imp_right List.mem_cons.1
    · exact absurd hmem hfront.not_stopping
    · refine absurd ?_ (stopping_name_ne hother)
      simpa only [Happening.said.injEq, Remark.metric.injEq, Metric.phaseEntered.injEq] using heq
    · exact absurd hmem hback.not_stopping
  | stops =>
    obtain ⟨back, hback, heq⟩ := h.stopHappenings_releases
    exact ⟨[], back, heq, List.not_mem_nil, hback⟩
  | @fails h₁ front kind _ hbefalls =>
    obtain ⟨back, hback, heq⟩ := h₁.stopHappenings_releases
    refine ⟨front ++ [.reported (.failure kind)], back, ?_, ?_, hback⟩
    · rw [stopForHappenings, heq, List.append_assoc, List.singleton_append]
    · refine fun hmem => (List.mem_append.1 hmem).elim hbefalls.uneventful.not_stopping fun hmem =>
        ?_
      cases List.mem_singleton.1 hmem

/-- When a handler has turned to stopping, it releases what it owns, and after that it
only lingers. -/
theorem Life.only_lingers (hlife : Life table past h) {before after : List Happening}
    (hpast : past = before ++ turnsToStopping :: after) :
    ∃ released lingered, after = released ++ lingered ∧
      (∀ x ∈ released, x.IsRelease) ∧ ∀ x ∈ lingered, x.Lingers h.peer := by
  have hnow : ∀ {front hs : List Happening} {h h' : Handler} {before after : List Happening},
      turnsToStopping ∉ front → Course h hs h' → front ++ hs = before ++ turnsToStopping :: after →
      ∀ x ∈ after, x.IsRelease := by
    intro front hs h h' before after hfront hcourse hsplit
    have hmem : turnsToStopping ∈ front ++ hs := hsplit ▸ by simp
    obtain ⟨front', back, rfl, hfront', hback⟩ :=
      hcourse.releases ((List.mem_append.1 hmem).resolve_left hfront)
    have hnone : turnsToStopping ∉ back := fun hmem => by cases hback _ hmem
    rw [← List.append_assoc] at hsplit
    obtain ⟨-, -, rfl⟩ := (List.append_cons_inj_of_notMem
      (fun hmem => (List.mem_append.1 hmem).elim hfront hfront') hnone).1 hsplit
    exact hback
  induction hlife generalizing before after with
  | begins _ hbegins =>
    obtain ⟨back, rfl, hcourse⟩ := hbegins.course rfl
    refine ⟨after, [], (List.append_nil _).symm, hnow ?_ hcourse hpast, List.forall_mem_nil _⟩
    simp [greetings, new, Phase.name]
  | @turns past hs h h' hlife hturn ih =>
    rw [hturn.name.1]
    obtain ⟨between, rfl, hsplit⟩ | ⟨between, hsplit, hrest⟩ := List.append_eq_append_iff.1 hpast
    · refine ⟨after, [], (List.append_nil _).symm, ?_, List.forall_mem_nil _⟩
      exact hnow List.not_mem_nil hturn.course hsplit
    · obtain ⟨rfl, heq⟩ | ⟨after', rfl, rfl⟩ := List.cons_eq_append_iff.1 hrest
      · refine ⟨after, [], (List.append_nil _).symm, ?_, List.forall_mem_nil _⟩
        have hhead : [] ++ hs = [] ++ turnsToStopping :: after := heq
        exact hnow List.not_mem_nil hturn.course hhead
      · obtain ⟨released, lingered, rfl, hreleased, hlingered⟩ := ih hsplit
        have hover : ¬h.AtWork :=
          hlife.stopping_iff.1 (by rw [hsplit, phases_append]; simp [phases, Happening.entered?])
        exact ⟨released, lingered ++ hs, List.append_assoc .., hreleased,
          List.forall_mem_append.2 ⟨hlingered, (hturn.lingers hover).1⟩⟩

end Handler

end ReplicaHandshake
