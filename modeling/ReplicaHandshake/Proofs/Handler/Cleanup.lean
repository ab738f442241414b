import ReplicaHandshake.Proofs.Handler.Exchanges
import ReplicaHandshake.Proofs.Handler.Setbacks
import ReplicaHandshake.Proofs.Handler.Starts

/-!
# What a failure leaves behind

Wherever a handler fails, it *fails cleanly*: it stops at once, says why, and releases whatever the
multiplexer has not taken, so that the connections which are left are the first ones, as many as
were taken (`FailsCleanly`).  This is so when it cannot open a socket (`Begins.failsCleanly`), and
in every poll that comes upon a fault (`Life.poll_failsCleanly`).

After a failure no socket is read or written any more (`Life.mute_of_failure`).  If the failure came
before the handoff, then there is never one (`Life.never_of_failure`), so that the multiplexer is
not offered anything, nor asked to let go (`Life.unoffered_of_never`, `Life.unurged_of_never`).
-/

namespace ReplicaHandshake

/-! ### What was taken -/

theorem filter_eq_take {α : Type} {test : α → Bool} {l : List α}
    (horder : l.Pairwise fun a b => test a = false → test b = false) :
    l.filter test = l.take (l.countP test) := by
  induction l with
  | nil => rfl
  | cons a rest ih =>
    obtain ⟨hfirst, horder⟩ := List.pairwise_cons.1 horder
    cases htest : test a with
    | true =>
      rw [List.filter_cons_of_pos htest, List.countP_cons_of_pos htest, List.take_succ_cons,
        ih horder]
    | false =>
      have hnone : ∀ b ∈ rest, ¬test b = true := fun b hb => by rw [hfirst b hb htest]; decide
      rw [List.filter_cons_of_neg (by rw [htest]; decide), List.countP_cons_of_neg
        (by rw [htest]; decide),
        List.filter_eq_nil_iff.2 hnone, List.countP_eq_zero.2 hnone, List.take_zero]

/-- The socket that the multiplexer took. -/
def Item.socket? : Item → Option SocketId
  | .writer _ => none
  | .socket s => some s

theorem Happening.taken?_eq {x : Happening} {peer : PeerId}
    (hpeer : ∀ p handoff taken, x = .answered (.offerSocket p handoff) taken → p = peer) :
    x.taken? = (x.handed? peer).bind Item.socket? := by
  unfold handed?
  split
  · split <;> rfl
  · rw [if_pos (hpeer _ _ _ rfl)]
    rfl
  next hother =>
    unfold taken?
    split
    · exact absurd rfl (hother _ _)
    · rfl

namespace Connection

variable {c c' : Connection} {hs : List Happening} {f : Failure}

theorem isTransferred_of_writes (h : Way Write c hs c') : c'.isTransferred = c.isTransferred := by
  induction h with
  | refl => rfl
  | tail _ hwrite ih => cases hwrite <;> exact ih

theorem Hear.isTransferred {event : ConnectionEvent} (h : Hear c hs event c') :
    c'.isTransferred = c.isTransferred := by
  cases h with
  | accept _ _ haccept =>
    cases haccept with
    | tableInfo _ hstate | streamStart hstate =>
      have hstate : c.state = _ := hstate
      simp [Connection.isTransferred, hstate]

theorem Fault.isTransferred (h : Fault c hs f c') : c'.isTransferred = c.isTransferred := by
  cases h <;> rfl

theorem RequestFault.isTransferred {r : RequestReplicationStream} (h : RequestFault r c hs f c') :
    c'.isTransferred = c.isTransferred := by
  cases h with
  | queue => rfl
  | write hstate _ hends =>
    obtain ⟨_, _, _, rfl, hwrites, hfault, -⟩ := hends
    rw [hfault.isTransferred, isTransferred_of_writes hwrites, Connection.isTransferred,
      Connection.isTransferred, hstate]
    rfl

theorem Holds.free (hholds : c.Holds) (hsound : c.Sound) : c.isTransferred = false := by
  rw [← Bool.not_eq_true]
  intro htransferred
  have hnone := hsound.ownedSockets_eq_nil htransferred
  rw [ownedSockets, hholds.2.1, List.append_eq_nil_iff, Option.toList_eq_nil_iff] at hnone
  have hsome := hholds.1
  rw [hnone.1] at hsome
  cases hsome

end Connection

namespace Handler

variable {h h' h₁ : Handler} {past hs : List Happening} {table : TableSettings} {f : Failure}

theorem Life.takenSockets_of_handed (hlife : Life table past h) :
    takenSockets past = (handed h.peer past).filterMap Item.socket? := by
  rw [handed, List.filterMap_filterMap]
  refine List.filterMap_congr fun x hx => Happening.taken?_eq ?_
  rintro p handoff taken rfl
  obtain ⟨before, after, rfl⟩ := List.append_of_mem hx
  exact (hlife.offers.split.2 _ _ _ rfl).1

theorem IsEarly.holds (hearly : h.IsEarly) (hsound : h.Sound) : ∀ c ∈ h.connections, c.Holds :=
  hearly.elim (fun hphase => (hsound.gathers hphase).holds) fun hphase =>
    (hsound.requests hphase).holds

/-- At work, the connections that were taken come before the others. -/
theorem Sound.order (hsound : h.Sound) (hwork : h.AtWork) :
    h.connections.Pairwise fun c later => c.isTransferred = false →
      later.isTransferred = false := by
  obtain hearly | hphase | hphase := early_or_delivering hwork
  · have hholds := hearly.holds hsound
    exact List.pairwise_of_forall_mem_list fun _ _ c hc _ => (hholds c hc).free
      (hsound.connections c hc)
  · exact (hsound.handsOver hphase).order.imp fun hleft hfree => (hleft hfree).1
  · refine List.pairwise_of_forall_mem_list fun c hc _ _ hfree => ?_
    rw [(hsound.streams hphase).connections c hc] at hfree
    cases hfree

theorem Sound.takenCount_eq_zero (hsound : h.Sound) (hholds : ∀ c ∈ h.connections, c.Holds) :
    h.takenCount = 0 :=
  List.countP_eq_zero.2 fun c hc => by simp [(hholds c hc).free (hsound.connections c hc)]

theorem Life.takenSockets_eq (hlife : Life table past h) (hwork : h.AtWork) :
    takenSockets past = (openedSockets past).take h.takenCount := by
  have hsound := hlife.sound
  rw [hlife.takenSockets_of_handed]
  obtain hearly | hdelivering := early_or_delivering hwork
  · rw [hlife.handed_early hearly, hsound.takenCount_eq_zero (hearly.holds hsound), List.take_zero]
    rfl
  have hitems := (hlife.delivers hdelivering).items
  split at hitems
  · obtain ⟨writer, -, hitems⟩ := hitems
    have hsockets : (Item.socket? ∘ Item.socket) = some := rfl
    rw [hitems, List.filterMap_cons_none rfl, List.filterMap_map, hsockets, List.filterMap_some]
  next hfree =>
    have hnone : h.takenCount = 0 := by
      obtain hphase | hphase := hdelivering
      · obtain htransferred | ⟨-, hall⟩ := (hsound.handsOver hphase).writer
        · exact absurd htransferred hfree
        · exact hsound.takenCount_eq_zero fun c hc => (hall c hc).2
      · exact absurd (hsound.streams hphase).writerTransferred hfree
    rw [hitems, hnone, List.take_zero]
    rfl

theorem roster_of_way (hway : Way Turn h hs h') (hsound : h.Sound) (hwork : h'.AtWork) :
    h'.roster = h.roster := by
  induction hway with
  | refl => rfl
  | tail hway hturn ih =>
    obtain ⟨hwork₁, hroster⟩ := (hturn.view (sound_of_way hsound hway)).roster hwork
    rw [hroster, ih hwork₁]

theorem map_socketId (h : Handler) : h.connections.map (·.socketId) = h.roster.map (·.2) := by
  rw [Handler.roster, List.map_map]
  rfl

/-! ### Before a failure -/

theorem filter_put {before after : List Connection} {c c' : Connection}
    (hconnections : h.connections = before ++ c :: after)
    (hsame : c'.isTransferred = c.isTransferred) (hfree : c.isTransferred = false) :
    (h.put before c' after).connections.filter (·.isTransferred) = h.connections.filter
      (·.isTransferred) := by
  simp [hconnections, hsame, hfree]

/-- On the way to a fault the connections stay that were taken. -/
theorem Fault.filter (hfault : Fault h hs f h') (hsound : h.Sound) :
    h'.connections.filter (·.isTransferred) = h.connections.filter (·.isTransferred) := by
  cases hfault with
  | timeout | tableExists | openWriter | mismatch => rfl
  | connection hpolls hconnections hfault =>
    exact filter_put hconnections hfault.isTransferred (hpolls.free hsound hconnections)
  | divergence hphase hconnections hhear =>
    have hfree := Polls.free (.inl hphase) hsound hconnections
    exact filter_put hconnections hhear.isTransferred hfree
  | @request h₁ first first' rest _ _ _ _ hphase _ hconnections hresolves hrequest =>
    have hsplit : h.connections = [] ++ first :: rest := hconnections
    have hfree := Polls.free (.inl (.inr hphase)) hsound hsplit
    have hsame := hresolves.sockets.2
    rw [← hsame]
    exact filter_put (hsame.trans hsplit) hrequest.isTransferred hfree
  | @createTable first _ rest _ _ _ hphase hconnections hhear =>
    have hsplit : h.connections = [] ++ first :: rest := hconnections
    have hfree := Polls.free (.inr ⟨hphase, rfl⟩) hsound hsplit
    exact filter_put hsplit hhear.isTransferred hfree
  | handoff hhands hfault => exact filter_put hhands.2.2.1 hfault.isTransferred hhands.2.2.2.2

/-! ### Failing cleanly -/

/-- A handler fails over what happened last, and leaves nothing half-done: it is stopping, it keeps
the failure and shows its text.  All that happens is that it says so and releases things.  The
connections that are left are the first ones, in their order and by their sockets as many as the
multiplexer took; every other socket that was opened is closed, and every writer that was received
is released, unless the multiplexer took it. -/
structure FailsCleanly (past hs : List Happening) (f : Failure) (h h' : Handler) : Prop where
  phase : h'.phase = .stopping
  failure : h'.failure = some (.failed f)
  text : h'.status.failure = some f.message
  releases : ∃ released, hs = .reported (.failure f.kind) :: turnsToStopping :: released ∧
    ∀ x ∈ released, x.IsRelease
  order : h'.roster = h.roster.take (takenSockets past).length
  taken : h'.connections.map (·.socketId) = (takenSockets past).map some
  transferred : ∀ c ∈ h'.connections, c.isTransferred
  writer : h'.writer = none
  sockets : (openedSockets past).Perm (takenSockets past ++ closedSockets (past ++ hs))
  writers : (receivedWriters past).Perm (takenWriters past ++ releasedWriters (past ++ hs))

theorem stopFor_receives (h : Handler) (kind : String) :
    receivedWriters (h.stopForHappenings kind) = [] := by
  refine List.filterMap_eq_nil_iff.2 (List.forall_mem_cons.2 ⟨rfl, fun x hx => ?_⟩)
  obtain rfl | hx := mem_stopHappenings hx
  · rfl
  · cases hx <;> rfl

/-- A handler that stops over a failure fails cleanly, if all is accounted for, and the connections
that were taken are the first ones. -/
theorem failsCleanly_stopFor {past : List Happening} (hfailure : h₁.failure = none)
    (hfree : ∀ c ∈ h₁.connections, c.isTransferred → c.ownedSockets = [])
    (hwriter : h₁.writerTransferred = true → h₁.writer = none)
    (horder : (h₁.stoppedFor (.failed f)).roster = h.roster.take (takenSockets past).length)
    (htaken : (h₁.stoppedFor (.failed f)).connections.map (·.socketId) =
      (takenSockets past).map some)
    (hsockets : (openedSockets past).Perm
      (h₁.ownedSockets ++ takenSockets past ++ closedSockets past))
    (hwriters : (receivedWriters past).Perm
      (h₁.ownedWriters ++ takenWriters past ++ releasedWriters past)) :
    FailsCleanly past (h₁.stopForHappenings f.kind) f h (h₁.stoppedFor (.failed f)) := by
  have hkept : (h₁.stoppedFor (.failed f)).failure = some (.failed f) :=
    congrArg (Option.or · _) hfailure
  have hnone : (h₁.stoppedFor (.failed f)).writer = none := by
    show (if h₁.writerTransferred then h₁.writer else none) = none
    split
    next htransferred => exact hwriter htransferred
    · rfl
  refine ⟨rfl, hkept, congrArg (Option.map StopReason.message) hkept, ?_, horder, htaken, ?_,
    hnone, ?_, ?_⟩
  · obtain ⟨back, hback, heq⟩ := h₁.stopHappenings_releases
    exact ⟨back, congrArg (_ :: ·) heq, hback⟩
  · exact fun c hc => (List.mem_filter.1 hc).2
  · rw [closedSockets_append, (closes_stopFor hfree f.kind).closed]
    simp only [List.perm_iff_count, List.count_append] at hsockets ⊢
    intro socket
    have hsockets := hsockets socket
    omega
  · have hbalances := h₁.balances_stopFor f.kind (.failed f)
    rw [Balances, h₁.stopFor_receives, (h₁.unoffered_stopFor f.kind).taken.2, List.nil_append,
      List.append_nil, ownedWriters, ownedWriters, hnone] at hbalances
    rw [releasedWriters_append]
    simp only [ownedWriters, List.perm_iff_count, List.count_append, Option.toList_none,
      List.count_nil]
      at hwriters hbalances ⊢
    intro writer
    have hwriters := hwriters writer
    have hbalances := hbalances writer
    omega

/-- Whatever the fault is, the handler fails cleanly over it. -/
theorem Fault.failsCleanly (hfault : Fault h₁ hs f h') (hlife : Life table past h₁)
    (hroster : h₁.roster = h.roster) :
    FailsCleanly (past ++ hs) (h'.stopForHappenings f.kind) f h (h'.stoppedFor (.failed f)) := by
  have hsound := hlife.sound
  have hwork := hfault.atWork
  have hwhole := hfault.whole hsound
  obtain ⟨htalks, howned⟩ := hfault.talks hsound
  have hstill : ∀ x ∈ hs, x.Still := fun x hx => (htalks x hx).1
  have htaken : takenSockets (past ++ hs) = (openedSockets past).take h₁.takenCount := by
    rw [takenSockets_append, takenSockets_of_still hstill, List.append_nil,
      hlife.takenSockets_eq hwork]
  have hlength : (takenSockets (past ++ hs)).length = h₁.takenCount := by
    obtain ⟨hconnections, hopened⟩ := hlife.length_connections hwork
    rw [htaken, List.length_take, hopened, ← hconnections]
    exact Nat.min_eq_left List.countP_le_length
  have horder : (h'.stoppedFor (.failed f)).roster = h₁.roster.take h₁.takenCount := by
    show (h'.connections.filter (·.isTransferred)).map _ = _
    rw [hfault.filter hsound, filter_eq_take (hsound.order hwork), List.map_take]
    rfl
  have hnone : h₁.failure = none := (hlife.fails.resolve_right fun hover => hover.1 hwork).1
  refine failsCleanly_stopFor ((congrArg Prod.fst (Befalls.fault hfault).marks).trans hnone)
    hwhole.free hwhole.writer
    ?_ ?_ ?_ ?_
  · rw [horder, hroster, hlength]
  · rw [map_socketId, horder, (hlife.roster hwork).1, htaken, rosterOf, openedSockets,
      List.map_take, List.map_take, List.map_map, List.map_map]
    rfl
  · rw [howned, openedSockets_append, takenSockets_append, closedSockets_append,
      takenSockets_of_still hstill, closedSockets_of_still hstill, openedSockets, openedSockets,
      openings_of_still hstill, List.map_nil,
      List.append_nil, List.append_nil, List.append_nil]
    exact hlife.sockets
  · rw [receivedWriters_append, takenWriters_append, releasedWriters_append,
      perm_account_iff hlife.writers]
    exact hfault.balances hsound

/-! ### Starting -/

theorem Opens.refusal {cs cs' : List Connection} {failed : Option Failure}
    (hopens : Opens cs hs failed cs') {endpoint : Endpoint} {e : SystemError}
    (hrefused : .answered (.openSocket endpoint) (.error e) ∈ hs) :
    failed = some (.connect endpoint.label e) := by
  induction hopens with
  | done => cases hrefused
  | opened _ _ ih =>
    obtain heq | hrefused := List.mem_cons.1 hrefused
    · cases heq
    · exact ih hrefused
  | refused =>
    cases List.mem_singleton.1 hrefused
    rfl

/-- If a socket cannot be opened when a handler is started, then the handler fails cleanly. -/
theorem Begins.failsCleanly {instanceId : InstanceId} {peer : PeerId} {frameBuffer : Nat}
    {timeout : Duration} {now : Instant}
    (hbegins : Begins (new instanceId peer table frameBuffer timeout now) hs h')
    {endpoint : Endpoint} {e : SystemError}
    (hrefused : .answered (.openSocket endpoint) (.error e) ∈ hs) :
    ∃ front back, hs = front ++ back ∧ .answered (.openSocket endpoint) (.error e) ∈ front ∧
      FailsCleanly front back (.connect endpoint.label e)
        (new instanceId peer table frameBuffer timeout now) h' := by
  have hgreetings : .answered (.openSocket endpoint) (.error e) ∉
      (new instanceId peer table frameBuffer timeout now).greetings := by simp [greetings]
  cases hbegins with
  | opens hopens => cases hopens.refusal ((List.mem_append.1 hrefused).resolve_left hgreetings)
  | @fails hs cs f hopens =>
    have hfront : .answered (.openSocket endpoint) (.error e) ∈
        (new instanceId peer table frameBuffer timeout now).greetings ++ hs := by
      refine (List.mem_append.1 hrefused).resolve_right fun hmem => ?_
      obtain heq | hmem := List.mem_cons.1 hmem
      · cases heq
      · obtain heq | hrelease := mem_stopHappenings hmem
        · cases heq
        · cases hrelease
    obtain rfl : f = .connect endpoint.label e :=
      Option.some.inj (hopens.refusal ((List.mem_append.1 hfront).resolve_left hgreetings))
    obtain ⟨howned, hfree⟩ := hopens.owned fun c hc => (new_connections _ _ _ _ _ _ c hc).1
    have hoverture : ∀ x ∈ (new instanceId peer table frameBuffer timeout now).greetings ++ hs,
        Overture x :=
      List.forall_mem_append.2 ⟨overture_greetings _ _ _ _ _ _, hopens.overture⟩
    obtain ⟨hclosed, htaken⟩ := closedSockets_of_overture hoverture
    have hnone : cs.filter (·.isTransferred) = [] :=
      List.filter_eq_nil_iff.2 fun c hc => by simp [hfree c hc]
    refine ⟨_, _, rfl, hfront, failsCleanly_stopFor rfl ?_ (fun _ => rfl) ?_ ?_ ?_ ?_⟩
    · exact fun c hc htransferred => absurd htransferred (by simp [hfree c hc])
    · rw [htaken]
      exact congrArg (List.map _) hnone
    · rw [htaken]
      exact congrArg (List.map _) hnone
    · rw [hclosed, htaken, List.append_nil, List.append_nil, openedSockets_append]
      exact .of_eq howned.symm
    · have hbalances := balances_of_none
        (h := { new instanceId peer table frameBuffer timeout now with connections := cs })
        (fun x hx => (hoverture x hx).writer) rfl
      simpa [Balances, ownedWriters, new] using hbalances

/-! ### Polling -/

/-- A step of the handshake that does not fail has no setback; one that fails ceases at its first
setback, and then the handler fails cleanly. -/
theorem Life.pollHandshake_failsCleanly {now : Instant} (hlife : Life table past h)
    (hphase : h.phase.isHandshaking) :
    Task.Always (pollHandshake now) h (fun hs _ _ => Smooth hs) (fun hs f h₁ => Ceases hs ∧
      Work.Always (fail f) h₁ fun hs' _ h' => hs' = h₁.stopForHappenings f.kind ∧
        FailsCleanly (past ++ hs) hs' f h h') := by
  have hunstopped := (isLive_of_isHandshaking hphase).2
  refine (pollHandshake_always hlife.sound hphase).mono ?_ ?_
  · intro hs busy h' hadvances
    exact smooth_of_way hadvances.way fun _ => hadvances.unstopped hunstopped
  · rintro _ f h₂ ⟨h₁, hs₁, hs₂, rfl, hway, hfault⟩
    have hfaulty := isLive_of_isHandshaking hfault.isHandshaking
    have hturns : Way Turn h hs₁ h₁ := hway.mono fun _ _ _ => .move
    refine ⟨hfault.ceases.prepend (smooth_of_way hway fun _ => hfaulty.2), ?_⟩
    rw [← hfault.phase_eq] at hfaulty
    refine (fail_always hfaulty.1 hfaulty.2).mono ?_
    rintro _ _ _ ⟨rfl, rfl⟩
    rw [← List.append_assoc]
    exact ⟨rfl, hfault.failsCleanly (hlife.of_way hturns)
      (roster_of_way hturns hlife.sound hfault.atWork)⟩

/-- Every poll ceases at its first setback, and if there is one, then the handler fails cleanly. -/
theorem Life.poll_failsCleanly {now : Instant} (hlife : Life table past h) :
    Work.Always (poll now) h fun hs _ h' => Ceases hs ∧ ((∃ x ∈ hs, x.isSetback) →
      ∃ front back f, hs = front ++ back ∧ FailsCleanly (past ++ front) back f h h') := by
  have hsmooth : ∀ {hs : List Happening} {h' : Handler}, Smooth hs →
      Ceases hs ∧ ((∃ x ∈ hs, x.isSetback) →
      ∃ front back f, hs = front ++ back ∧ FailsCleanly (past ++ front) back f h h') := by
    rintro hs h' hsmooth
    refine ⟨hsmooth.ceases, fun ⟨x, hx, hset⟩ => ?_⟩
    rw [hsmooth x hx] at hset
    cases hset
  by_cases hphase : h.phase.isHandshaking
  · simp only [poll, Work.always_bind, Work.always_get, hphase, if_true, Task.always_perform,
      List.nil_append]
    refine (hlife.pollHandshake_failsCleanly hphase).mono ?_ ?_
    · intro hs busy h' hgood
      rw [Work.always_pure, List.append_nil]
      exact hsmooth hgood
    · rintro hs f h₁ ⟨hceases, hfails⟩
      refine hfails.mono ?_
      rintro _ _ h' ⟨rfl, hclean⟩
      rw [Work.always_pure, List.append_nil]
      refine ⟨hceases.append fun x hx => (h₁.stopForHappenings_isAside f.kind x hx).2, fun _ => ?_⟩
      exact ⟨hs, _, f, rfl, hclean⟩
  · refine (poll_moves hlife.sound).mono ?_
    rintro hs _ h' ⟨hway, -⟩
    exact hsmooth (smooth_of_way hway fun h => absurd h hphase)

/-! ### After a failure -/

variable {before after : List Happening} {kind : String}

theorem Life.turns_of_failure (hlife : Life table past h) : ∀ before kind after,
    past = before ++ .reported (.failure kind) :: after →
      ∃ rest, after = turnsToStopping :: rest := by
  have hnone : ∀ {hs : List Happening}, failures hs = [] → ∀ before kind after,
      hs ≠ before ++ .reported (.failure kind) :: after := by
    rintro hs hnone before kind after rfl
    rw [failures_append] at hnone
    exact absurd (List.append_eq_nil_iff.1 hnone).2 (List.cons_ne_nil _ _)
  refine hlife.along ?_ ?_
  · intro instanceId peer frameBuffer timeout now before kind after hsplit
    exact absurd hsplit (hnone rfl before kind after)
  · intro past h hs h' ih hcourse before kind after heq
    obtain ⟨front, rfl, hsplit⟩ | ⟨rest, hsplit, rfl⟩ := split_of_append heq
    · obtain ⟨hquiet, -⟩ | ⟨front', kind', reason, h₁, hbefalls, rfl, -⟩ := hcourse.failures
      · exact absurd hsplit (hnone hquiet front kind after)
      obtain ⟨middle, rfl, hstop⟩ | ⟨rest, hfront, -⟩ := split_of_append hsplit
      · obtain ⟨-, hback⟩ | ⟨middle, rfl, hback⟩ := List.cons_eq_append_iff.1 hstop
        · obtain rfl := (List.cons.inj hback).2
          exact ⟨_, rfl⟩
        · exact absurd hback (hnone h₁.failures_stop middle kind after)
      · exact absurd hfront (hnone hbefalls.uneventful.failures front kind rest)
    · obtain ⟨rest', rfl⟩ := ih _ _ _ hsplit
      exact ⟨rest' ++ hs, rfl⟩

/-- After a failure no socket is read or written. -/
theorem Life.mute_of_failure (hlife : Life table past h)
    (hsplit : past = before ++ .reported (.failure kind) :: after) : Mute after := by
  obtain ⟨rest, rfl⟩ := hlife.turns_of_failure _ _ _ hsplit
  rw [List.append_cons] at hsplit
  obtain ⟨released, lingered, rfl, hreleased, hlingered⟩ := hlife.only_lingers hsplit
  refine List.forall_mem_cons.2 ⟨rfl, List.forall_mem_append.2 ⟨fun x hx => ?_, fun x hx => ?_⟩⟩
  · cases hreleased x hx <;> rfl
  · cases hlingered x hx <;> rfl

/-- Whoever fails before the handoff never comes to it. -/
theorem Life.never_of_failure (hlife : Life table past h)
    (hsplit : past = before ++ .reported (.failure kind) :: after)
    (hearly : Phase.handingOff.name ∉ phases before) :
    Phase.handingOff.name ∉ phases past := by
  obtain ⟨rest, rfl⟩ := hlife.turns_of_failure _ _ _ hsplit
  have hturned := hsplit
  rw [List.append_cons] at hturned
  obtain ⟨released, lingered, rfl, hreleased, hlingered⟩ := hlife.only_lingers hturned
  have hother : ∀ {phase : Phase}, phase.isTerminal → phase.name ≠ Phase.handingOff.name := by
    intro phase hterminal
    cases phase <;> first | decide | cases hterminal
  rw [hsplit, phases_append, List.mem_append, not_or]
  refine ⟨hearly, fun hmem => ?_⟩
  obtain ⟨x, hx, hentered⟩ := List.mem_filterMap.1 hmem
  obtain rfl | rfl | hx := (List.mem_cons.1 hx).imp_right List.mem_cons.1
  · cases hentered
  · exact absurd (Option.some.inj hentered) (by decide)
  · obtain hx | hx := List.mem_append.1 hx
    · cases hreleased x hx <;> cases hentered
    · cases hlingered x hx with
      | ends hterminal => exact hother hterminal (Option.some.inj hentered)
      | urges | retries | concludes => cases hentered

/-- Whoever has not come to the handoff has offered nothing to the multiplexer. -/
theorem Life.unoffered_of_never (hlife : Life table past h) :
    Phase.handingOff.name ∉ phases past → Unoffered past := by
  refine hlife.invariant ?_ ?_ ?_
  · exact fun hs h hopened _ => unoffered_of_overture hopened.overture
  · intro hs h hrefused _
    obtain ⟨front, back, rfl, hfront, -, hback, -⟩ := hrefused.happenings
    exact (unoffered_of_overture hfront).append (unoffered_of_isWord fun x hx => (hback x hx).2)
  · intro past h hs h' hlife ih hturn hnever
    rw [phases_append, List.mem_append, not_or] at hnever
    refine (ih hnever.1).append (hturn.unoffered hlife.sound fun hphase => hnever.1 ?_)
    have hlast := hlife.phase
    rw [hphase] at hlast
    exact List.mem_of_getLast? hlast

/-- Whoever has not come to the handoff has nothing to do with the multiplexer. -/
theorem Life.unurged_of_never (hlife : Life table past h)
    (hnever : Phase.handingOff.name ∉ phases past) :
    ∀ x ∈ past, x.urged? = none := by
  intro x hx
  obtain ⟨before, after, rfl⟩ := List.append_of_mem hx
  rw [Option.eq_none_iff_forall_ne_some]
  intro peer hurged
  obtain ⟨-, htime⟩ := hlife.urges.split peer hurged
  have hnone := (hlife.unoffered_of_never hnever).taken.2
  rw [takenWriters_append] at hnone
  exact htime.took (List.append_eq_nil_iff.1 hnone).1

end Handler

end ReplicaHandshake
