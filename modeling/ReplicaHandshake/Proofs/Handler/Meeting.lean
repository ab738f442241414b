import Mathlib.Data.List.Infix
import Mathlib.Data.List.Nodup
import ReplicaHandshake.Proofs.Connection.Answered
import ReplicaHandshake.Proofs.Handler.Buffers
import ReplicaHandshake.Proofs.Handler.Failing
import ReplicaHandshake.Proofs.Handler.Premature

/-!
# What becomes of a meeting

As long as a handler waits for its masters, each of its connections expects the answer of its master
(`Life.expects`), and what it has heard are answers of the meeting (`Life.mem_answers`).  So a
handler that asks for the data stream asks for what the meeting grants (`Life.grants`).  If the
meeting grants a request, then nothing makes the handler fail before it asks (`Life.spares`); and a
handler that was told everything does not wait any longer (`Life.not_waiting`).
-/

namespace ReplicaHandshake

variable {m : Meeting} {r : RequestReplicationStream} {n : Nat}

theorem Meeting.Grants.answer_le (hgrants : m.Grants r) (hroom : m.HasRoom n) {a : TableInfo}
    (ha : a ∈ m.answers) : (Frame.tableInfo a).encodedLength ≤ n := by
  have hlong := hroom ⟨0, ⟨0⟩, 0, m.tableName⟩ r rfl
  simp only [Frame.encodedLength, hgrants.named a ha] at hlong ⊢
  omega

namespace Handler

variable {h h' h₁ : Handler} {past hs : List Happening} {table : TableSettings}

/-- A meeting is about the table of the handler, and all its masters take part in it. -/
theorem Life.meets (hlife : Life table past h) (hheld : m.IsHeld past) :
    h.tableName = m.tableName ∧ table.masters.length = m.answers.length := by
  have hannounces := hheld.started.symm.trans hlife.announces.2
  obtain ⟨hname, hlength⟩ : m.tableName = table.tableName ∧
      m.answers.length = table.masters.length := by
    simpa using hannounces
  exact ⟨hlife.tableName.trans hname.symm, hlength.symm⟩

/-! ### While the handler waits for its masters -/

section Gathering

variable (hlife : Life table past h) (hnodup : (openedSockets past).Nodup) (hheld : m.IsHeld past)
  (hphase : h.IsGathering)

include hlife hnodup hheld hphase

/-- Each connection expects the answer of its master. -/
theorem Life.expects {before after : List Connection} {c : Connection}
    (hconnections : h.connections = before ++ c :: after) :
    ∃ a, m.answers[before.length]? = some a ∧ c.Expects a := by
  have hc := mem_of_split hconnections
  have hwork := hphase.atWork
  have hgathers := hlife.sound.gathers hphase
  have hearly : c.IsEarly := hgathers.states c hc
  have hwaits := hlife.waits hphase
  obtain ⟨socket, hid⟩ := Option.isSome_iff_exists.1 (hgathers.holds c hc).1
  have hinside : before.length < m.answers.length := by
    rw [← (hlife.meets hheld).2, ← (hlife.length_connections hwork).1, hconnections]
    simp
  have hanswer := List.getElem?_eq_getElem hinside
  refine ⟨_, hanswer, ?_⟩
  have hsocket := hlife.socket_at hwork hconnections
  rw [hid] at hsocket
  have hfront := hheld.delivered _ (Meeting.mem_turns hsocket hanswer)
  rw [beforeRequest_eq_self hwaits.requests] at hfront
  refine Connection.expects_of_accounts (hlife.accounts hnodup hwork c hc hearly.free socket hid)
    (hlife.sound.connections c hc) (hgathers.holds c hc) hearly ?_
      (m.sendable _ (List.getElem_mem hinside)) hfront
  intro info hinfo
  have htold := hwaits.told c hc info hinfo
  rw [hid] at htold
  exact List.mem_filterMap.2 ⟨_, List.mem_filter.2 ⟨htold, by simp [Happening.socket?]⟩, rfl⟩

/-- Whatever description was heard is an answer of the meeting, and the handler has taken over
what it says. -/
theorem Life.mem_answers {c : Connection} (hc : c ∈ h.connections) {info : TableInfo}
    (hinfo : c.tableInfo = some info) :
    info ∈ m.answers ∧ info.masterTableId = h.masterTableId ∧
      info.structureVersion = h.structureVersion := by
  obtain ⟨before, after, hconnections⟩ := List.append_of_mem hc
  obtain ⟨a, ha, hexpects⟩ := hlife.expects hnodup hheld hphase hconnections
  cases hexpects with
  | awaits hnone =>
    rw [hnone] at hinfo
    cases hinfo
  | knows hknown =>
    rw [hknown] at hinfo
    cases hinfo
    exact ⟨List.mem_of_getElem? ha, (hlife.sound.gathers hphase).agreed c hc info hknown⟩

/-- Where all masters have answered, every answer is about the table, with a table id, and as the
handler has it. -/
theorem Life.answered (hready : h.allReady) {a : TableInfo} (ha : a ∈ m.answers) :
    a.tableName = m.tableName ∧ a.masterTableId ≠ 0 ∧ a.masterTableId = h.masterTableId ∧
      a.structureVersion = h.structureVersion := by
  obtain ⟨hname, hlength⟩ := hlife.meets hheld
  obtain ⟨i, hi, rfl⟩ := List.getElem_of_mem ha
  have hinside : i < h.connections.length := by
    rw [(hlife.length_connections hphase.atWork).1, hlength]
    exact hi
  obtain ⟨before, after, hconnections, rfl, -⟩ := split_at (List.getElem?_eq_getElem hinside)
  obtain ⟨a, ha', hexpects⟩ := hlife.expects hnodup hheld hphase hconnections
  obtain rfl := Option.some.inj ((List.getElem?_eq_getElem hi).symm.trans ha')
  generalize h.connections[before.length] = c at hconnections hexpects
  have hc := mem_of_split hconnections
  have hgathers := hlife.sound.gathers hphase
  have hsound := hlife.sound.connections c hc
  simp only [Connection.Sound, hgathers.ready_of_allReady hlife.sound hready c hc] at hsound
  obtain ⟨-, info, hinfo, htable, hknown⟩ := hsound
  rw [(hlife.sound.same c hc).2, hname] at htable
  cases hexpects with
  | awaits hnone =>
    rw [hnone] at hinfo
    cases hinfo
  | knows hsame =>
    rw [hsame] at hinfo
    cases hinfo
    exact ⟨htable, hknown, hgathers.agreed c hc _ hsame⟩

theorem Life.identity_of_ready (hgrants : m.Grants r) (hsome : h.ready ≠ 0) :
    h.masterTableId = r.masterTableId ∧ h.structureVersion = r.structureVersion := by
  rw [(hlife.sound.gathers hphase).ready, ← Nat.pos_iff_ne_zero, List.countP_pos_iff] at hsome
  obtain ⟨c, hc, hknown⟩ := hsome
  obtain ⟨info, hinfo⟩ := Option.isSome_iff_exists.1 hknown
  obtain ⟨hmem, hid, hversion⟩ := hlife.mem_answers hnodup hheld hphase hc hinfo
  obtain ⟨hid', hversion'⟩ := hgrants.agreed info hmem
  exact ⟨hid.symm.trans hid', hversion.symm.trans hversion'⟩

/-- A handler at rest that waits for its masters has not been told everything. -/
theorem Life.not_waiting (hsettled : h.Settled) : ¬m.IsDelivered past := by
  intro hdelivered
  have hgathers := hlife.sound.gathers hphase
  have hwork := hphase.atWork
  have hsilent : ∃ c ∈ h.connections, c.tableInfo = none := by
    have hunready := hsettled.gathering hphase
    simp only [allReady, decide_eq_false_iff_not] at hunready
    rw [hgathers.ready, List.countP_eq_length] at hunready
    simpa using hunready
  obtain ⟨c, hc, hnone⟩ := hsilent
  obtain ⟨before, after, hconnections⟩ := List.append_of_mem hc
  obtain ⟨a, ha, hexpects⟩ := hlife.expects hnodup hheld hphase hconnections
  have hholds := hgathers.holds c hc
  have hearly : c.IsEarly := hgathers.states c hc
  obtain ⟨socket, hid⟩ := Option.isSome_iff_exists.1 hholds.1
  have hsocket := hlife.socket_at hwork hconnections
  rw [hid] at hsocket
  have hall := hdelivered _ (Meeting.mem_turns hsocket ha)
  have haccounts := hlife.accounts hnodup hwork c hc hearly.free socket hid
  have hbuffered : c.inbound.buffered = (Frame.tableInfo a).bytes :=
    hexpects.buffered_eq hnone haccounts (hlife.sound.connections c hc) hholds hearly hall
  have hunread := hlife.isUnread c hc
  obtain hstate | hstate := hearly.state_of_none (hlife.sound.connections c hc) hnone
  · rw [hunread hstate] at hbuffered
    cases hbuffered
  exact InboundBuffer.nextFrame_ne_none (m.sendable a (List.mem_of_getElem? ha)) hbuffered
    (hsettled.heard hphase c hc (hholds.2.1 ▸ hholds.1) hstate)

end Gathering

/-! ### The request -/

/-- What was looked up bears out the rows behind which a handler goes on. -/
theorem Resolves.rows {rows : UInt64} (hresolves : h.Resolves hs rows h₁)
    (hname : h.tableName = m.tableName) (hadmits : m.Admits hs) :
    m.rows? h.structureVersion = some rows := by
  have hexists := hadmits.tableExists
  have hwriter := hadmits.openWriter
  rw [← hname] at hexists hwriter
  rw [Meeting.rows?_eq_some_iff]
  cases hresolves with
  | absent => exact .inl ⟨(hexists _ (by simp)).symm, rfl⟩
  | @present writer hversion =>
    refine .inr ⟨(hexists _ (by simp)).symm, ?_⟩
    rw [← hwriter (.ok writer) (by simp), ← hversion]
    rfl

/-- Whoever asks for the data stream asks for what the meeting grants. -/
theorem Asks.grants (hasks : h.Asks hs) (hlife : Life table past h)
    (hnodup : (openedSockets past).Nodup) (hheld : m.IsHeld (past ++ hs)) :
    ∀ r ∈ requests hs, m.Grants r := by
  obtain ⟨first, rest, front, rows, h₁, back, hphase, hready, hconnections, hresolves, rfl,
    hback⟩ := hasks
  have hgathering : h.IsGathering := .inr hphase
  have hpast := hheld.front hlife.ne_nil
  have hanswered := fun a ha => hlife.answered hnodup hpast hgathering hready (a := a) ha
  have hsome : m.answers ≠ [] := by
    rw [← List.length_pos_iff, ← (hlife.meets hpast).2]
    exact hlife.announces.1
  obtain ⟨first', hfirst⟩ := List.exists_mem_of_ne_nil _ hsome
  have hrequests : requests (front ++
      .noted (.queued first.socketId (.requestReplicationStream (h.agreedRequest rows))) :: back) =
      [h.agreedRequest rows] := by
    rw [requests_append, hresolves.unasked.requests, List.nil_append]
    exact congrArg _ hback.requests
  intro r hr
  rw [hrequests, List.mem_singleton] at hr
  subst hr
  have hadmits := hheld.admits (hlife.waits hgathering).requests
  rw [beforeRequest_append hresolves.unasked.requests] at hadmits
  have hrows := hresolves.rows (hlife.meets hpast).1 (hadmits.mono (List.subset_append_left _ _))
  have hknown : h.masterTableId ≠ 0 := by
    obtain ⟨-, hknown, hid, -⟩ := hanswered first' hfirst
    exact hid ▸ hknown
  exact ⟨hsome, fun a ha => (hanswered a ha).1, fun a ha => (hanswered a ha).2.2, hknown, hrows⟩

theorem Life.turn_of_request (hlife : Life table past h) :
    ∀ r ∈ requests past, ∃ before hs after h₀,
    past = before ++ hs ++ after ∧ Life table before h₀ ∧ h₀.Asks hs ∧ r ∈ requests hs ∧
      openedSockets past = openedSockets before := by
  refine hlife.invariant (P := fun past _ => ∀ r ∈ requests past, ∃ before hs after h₀,
    past = before ++ hs ++ after ∧ Life table before h₀ ∧ h₀.Asks hs ∧ r ∈ requests hs ∧
      openedSockets past = openedSockets before) ?_ ?_ ?_
  · intro hs h hopened r hr
    rw [(wordless_of_overture hopened.overture).requests] at hr
    cases hr
  · intro hs h hrefused r hr
    obtain ⟨front, back, rfl, hfront, -, hback, -⟩ := hrefused.happenings
    rw [requests_append, (wordless_of_overture hfront).requests,
      (wordless_of_forall fun x hx => (hback x hx).2).requests] at hr
    cases hr
  · intro past h hs h' hlife ih hturn r hr
    rw [hturn.openedSockets_eq hlife.sound]
    rw [requests_append, List.mem_append] at hr
    obtain hr | hr := hr
    · obtain ⟨before, hs', after, h₀, rfl, hrest⟩ := ih r hr
      exact ⟨before, hs', after ++ hs, h₀, List.append_assoc .., hrest⟩
    · obtain hunasked | hasks := hturn.asks
      · rw [hunasked.requests] at hr
        cases hr
      · exact ⟨past, hs, [], h, (List.append_nil _).symm, hlife, hasks, hr, rfl⟩

/-- All its life a handler asks only for what the meeting grants. -/
theorem Life.grants (hlife : Life table past h) (hnodup : (openedSockets past).Nodup)
    (hheld : m.IsHeld past) :
    ∀ r ∈ requests past, m.Grants r := by
  intro r hr
  obtain ⟨before, hs, after, h₀, rfl, hlife₀, hasks, hr, hopened⟩ := hlife.turn_of_request r hr
  rw [hopened] at hnodup
  exact hasks.grants hlife₀ hnodup
    (hheld.front (List.append_ne_nil_of_left_ne_nil hlife₀.ne_nil _)) r hr

/-! ### Where a request is granted -/

theorem Opens.isIoFailure {cs cs' : List Connection} {f : Failure}
    (hopens : Opens cs hs (some f) cs') :
    ∃ x ∈ hs, x.isIoFailure := by
  generalize hsome : some f = failed at hopens
  induction hopens with
  | done => cases hsome
  | opened _ _ ih =>
    obtain ⟨x, hx, hfails⟩ := ih hsome
    exact ⟨x, List.mem_cons_of_mem _ hx, hfails⟩
  | refused => exact ⟨_, List.mem_singleton_self _, rfl⟩

theorem room_of_granted (hphase : h.IsGathering) (hbuffers : h.HasBuffers n) (hroom : m.HasRoom n)
    (hgrants : m.Grants r) {c : Connection} (hc : c ∈ h.connections) {a : TableInfo}
    (ha : a ∈ m.answers) :
    (Frame.tableInfo a).encodedLength ≤ c.inbound.capacity := by
  have hcapacity : c.inbound.capacity = n := congrArg Prod.fst (hbuffers hphase.atWork c hc)
  rw [hcapacity]
  exact hgrants.answer_le hroom ha

section Granted

variable (hlife : Life table past h) (hnodup : (openedSockets past).Nodup) (hheld : m.IsHeld past)
  (hphase : h.IsGathering) (hbuffers : h.HasBuffers n) (hroom : m.HasRoom n)

include hlife hnodup hheld hphase hbuffers hroom

theorem Life.connection_fault (hgrants : m.Grants r) (hword : n ≤ greatestWord32)
    {before after : List Connection} {c c' : Connection} {f : Failure}
    (hconnections : h.connections = before ++ c :: after) (hfault : Connection.Fault c hs f c') :
    ∃ x ∈ hs, x.isIoFailure := by
  have hc := mem_of_split hconnections
  obtain ⟨a, ha, hexpects⟩ := hlife.expects hnodup hheld hphase hconnections
  have hmem := List.mem_of_getElem? ha
  have htable : c.tableName = m.tableName :=
    (hlife.sound.same c hc).2.trans (hlife.meets hheld).1
  have hknown : a.masterTableId ≠ 0 := by
    rw [(hgrants.agreed a hmem).1]
    exact hgrants.known
  refine Connection.Fault.not_expected hexpects (m.sendable a hmem)
    (room_of_granted hphase hbuffers hroom hgrants hc hmem) hfault (hlife.sound.connections c hc)
    ((hlife.sound.gathers hphase).states c hc) ((hgrants.named a hmem).trans htable.symm) hknown ?_
  intro hconnecting e
  have hlong := hroom c.request r htable
  have hcapacity : c.outbound.capacity = n := congrArg Prod.snd (hbuffers hphase.atWork c hc)
  refine OutboundBuffer.queue_ne_error ?_ (hcapacity ▸ hword)
  rw [(hlife.pending_le hnodup hphase hc).2 hconnecting, hcapacity, List.length_nil]
  omega

theorem Life.agrees_of_hear (hgrants : m.Grants r) {before after : List Connection}
    {c c' : Connection} {info : TableInfo} (hconnections : h.connections = before ++ c :: after)
    (hhear : Connection.Hear c hs (.tableInfo info) c') : h.Agrees info := by
  have hc := mem_of_split hconnections
  obtain ⟨a, ha, hexpects⟩ := hlife.expects hnodup hheld hphase hconnections
  have hmem := List.mem_of_getElem? ha
  obtain rfl := hexpects.eq_of_hear (m.sendable a hmem)
      (room_of_granted hphase hbuffers hroom hgrants hc hmem) hhear
  by_cases hfirst : h.ready = 0
  · exact .inl hfirst
  · obtain ⟨hid, hversion⟩ := hlife.identity_of_ready hnodup hheld hphase hgrants hfirst
    obtain ⟨hid', hversion'⟩ := hgrants.agreed _ hmem
    exact .inr ⟨hid'.trans hid.symm, hversion'.trans hversion.symm⟩

theorem Life.request_queues (hword : n ≤ greatestWord32) {first : Connection}
    (hfirst : first ∈ h.connections) (request : RequestReplicationStream) (e : FrameError) :
    first.outbound.queue (.requestReplicationStream request) ≠ .error e := by
  have htable : first.request.tableName = m.tableName :=
    (hlife.sound.same first hfirst).2.trans (hlife.meets hheld).1
  have hlong := hroom first.request request htable
  have hcapacity : first.outbound.capacity = n :=
    congrArg Prod.snd (hbuffers hphase.atWork first hfirst)
  have hpending := (hlife.pending_le hnodup hphase hfirst).1
  refine OutboundBuffer.queue_ne_error ?_ (hcapacity ▸ hword)
  rw [hcapacity]
  omega

theorem Life.timeout_of_fault (hgrants : m.Grants r) (hword : n ≤ greatestWord32) {f : Failure}
    (hfault : Fault h hs f h₁) (hadmits : m.Admits hs) (hnone : requests hs = []) :
    f.kind = "handshake_timeout" := by
  have hname := (hlife.meets hheld).1
  have hexists := hadmits.tableExists
  have hwriter := hadmits.openWriter
  rw [← hname] at hexists hwriter
  have hrows := Meeting.rows?_eq_some_iff.1 hgrants.rows
  cases hfault with
  | timeout => rfl
  | connection _ hconnections hfault =>
    obtain ⟨x, hx, hfails⟩ :=
      hlife.connection_fault hnodup hheld hphase hbuffers hroom hgrants hword hconnections hfault
    rw [hadmits.smooth x hx] at hfails
    cases hfails
  | divergence _ hconnections hhear hother =>
    exact absurd
      (hlife.agrees_of_hear hnodup hheld hphase hbuffers hroom hgrants hconnections hhear) hother
  | @tableExists e =>
    rw [← hexists (.error e) (by simp)] at hrows
    obtain ⟨hanswer, -⟩ | ⟨hanswer, -⟩ := hrows <;> cases hanswer
  | @openWriter e =>
    rw [← hexists (.ok true) (by simp), ← hwriter (.error e) (by simp)] at hrows
    obtain ⟨hanswer, -⟩ | ⟨-, hanswer⟩ := hrows <;> cases hanswer
  | @mismatch writer _ hready hother =>
    rw [← hexists (.ok true) (by simp), ← hwriter (.ok writer) (by simp)] at hrows
    have hsome : h.ready ≠ 0 := by
      rw [allReady, decide_eq_true_eq] at hready
      rw [hready, (hlife.length_connections hphase.atWork).1]
      exact Nat.pos_iff_ne_zero.1 hlife.announces.1
    have hversion := (hlife.identity_of_ready hnodup hheld hphase hgrants hsome).2
    obtain ⟨hanswer, -⟩ | ⟨-, hopened⟩ := hrows
    · cases hanswer
    · have hsame : writer.structureVersion = r.structureVersion :=
        congrArg Prod.fst (Except.ok.inj hopened)
      exact absurd (hsame.trans hversion.symm) hother
  | @request _ first _ _ _ hs' rows _ _ _ hconnections hresolves hrequest =>
    have hfirst : first ∈ h.connections := hconnections ▸ List.mem_cons_self
    cases hrequest with
    | queue hqueue =>
      exact absurd hqueue (hlife.request_queues hnodup hheld hphase hbuffers hroom hword hfirst _ _)
    | write =>
      rw [requests_append, hresolves.unasked.requests] at hnone
      cases hnone
  | createTable hrequesting => simp [IsGathering, hrequesting] at hphase
  | handoff hhands => simp [IsGathering, hhands.1] at hphase

end Granted

/-- If the meeting grants a request, and the buffers have room for it, then no handler fails
before it asks. -/
theorem Life.spares (hlife : Life table past h) (hturn : Turn h hs h')
    (hnodup : (openedSockets past).Nodup) (hheld : m.IsHeld (past ++ hs))
    (hnone : requests (past ++ hs) = []) (hgrants : m.Grants r) (hbuffers : h.HasBuffers n)
    (hroom : m.HasRoom n) (hword : n ≤ greatestWord32) :
    failures hs = [] := by
  obtain ⟨hspared, -⟩ | ⟨front, kind, reason, h₁, hbefalls, rfl, rfl⟩ := hturn.course.failures
  · exact hspared
  exfalso
  rw [requests_append, requests_append, List.append_eq_nil_iff, List.append_eq_nil_iff] at hnone
  obtain ⟨hpast, hfront, hback⟩ := hnone
  have hphase : h.IsGathering := by
    refine (gathering_or_asked hbefalls.atWork).resolve_right fun hasked => ?_
    obtain ⟨request, hrequest, -⟩ := hlife.asked hasked
    rw [hpast] at hrequest
    cases hrequest
  have hadmits := hheld.admits hpast
  rw [beforeRequest_append hfront, beforeRequest_eq_self hback] at hadmits
  have hadmits' := hadmits.mono (List.subset_append_left _ _)
  cases hbefalls with
  | refused _ hopens =>
    obtain ⟨x, hx, hfails⟩ := hopens.isIoFailure
    rw [hadmits'.smooth x hx] at hfails
    cases hfails
  | fault hfault =>
    have hkind :=
      hlife.timeout_of_fault hnodup (hheld.front hlife.ne_nil) hphase hbuffers hroom hgrants
        hword hfault
      hadmits' hfront
    refine hadmits.inTime (List.mem_filterMap.2 ⟨.reported (.failure _), ?_, congrArg some hkind⟩)
    exact List.mem_append_right _ List.mem_cons_self
  | dropped _ _ hfind =>
    have htaken := List.find?_some hfind
    have hearly : Connection.IsEarly _ :=
      (hlife.sound.gathers hphase).states _ (List.mem_of_find?_eq_some hfind)
    rw [isTakenAs, hearly.free] at htaken
    cases htaken

/-- A handler that could not open its connections had a call that failed. -/
theorem Begins.spares {h₀ : Handler} (hbegins : Begins h₀ hs h) (hheld : m.IsHeld hs)
    (hnone : requests hs = []) :
    failures hs = [] := by
  cases hbegins with
  | opens hopens =>
    rw [failures_append, hopens.uneventful.failures]
    rfl
  | fails hopens =>
    exfalso
    obtain ⟨x, hx, hfails⟩ := hopens.isIoFailure
    have hsmooth := hheld.smooth
    rw [beforeRequest_eq_self hnone] at hsmooth
    rw [hsmooth x (by simp [hx])] at hfails
    cases hfails

end Handler

/-! ### What goes out -/

/-- What is to go out by the socket at a position: the question for the table, and by the first one
the request that is due. -/
def Meeting.frames (m : Meeting) (instanceId : InstanceId) (peer : PeerId) (position : Nat) :
    List Frame :=
  .requestTableInfo
      { protocolVersion, instanceId, peerId := peer.number.toUInt64, tableName := m.tableName } ::
    if position = 0 then m.request?.toList.map .requestReplicationStream else []

namespace Handler

section Outgoing

variable (hlife : Life table past h) (hnodup : (openedSockets past).Nodup)

include hlife hnodup

/-- Where only what is due was asked for, what goes out by each socket is a front of what is to
go out by it. -/
theorem Life.outflow_prefix (hheld : m.IsHeld past) {id : InstanceId}
    (hid : ∀ x ∈ past, x.Presents id) (hrequests : requests past = m.request?.toList) {i : Nat}
    {socket : SocketId} (hsocket : (openedSockets past)[i]? = some socket) :
    queuedFrames (about socket past) <+: m.frames id h.peer i ∧
      writtenBytes (about socket past) <+: (m.frames id h.peer i).flatMap Frame.bytes := by
  have hsame : outgoing id table h.peer past socket = m.frames id h.peer i := by
    have hname : table.tableName = m.tableName := hlife.tableName.symm.trans (hlife.meets hheld).1
    have hfirst : (openedSockets past).head? = some socket ↔ i = 0 := by
      obtain ⟨hi, hat⟩ := List.getElem?_eq_some_iff.1 hsocket
      have hpos : 0 < (openedSockets past).length := Nat.lt_of_le_of_lt (Nat.zero_le i) hi
      rw [List.head?_eq_getElem?, List.getElem?_eq_getElem hpos, Option.some.injEq, ← hat,
        hnodup.getElem_inj_iff, eq_comm]
    unfold outgoing Meeting.frames question
    simp only [hname, hrequests, hfirst]
  have hqueued : queuedFrames (about socket past) <+: m.frames id h.peer i := by
    rw [← List.append_nil past] at hlife hnodup hid
    rw [← hsame]
    exact hlife.queued_prefix hnodup hid socket
  obtain ⟨pending, hflows⟩ := (hlife.sends hnodup socket).flows
  exact ⟨hqueued, hflows.written_prefix.trans (List.IsPrefix.flatMap hqueued Frame.bytes)⟩

end Outgoing

theorem Asks.questioned (hasks : h.Asks hs) (hlife : Life table past h)
    (hnodup : (openedSockets past).Nodup) {socket : SocketId}
    (hsocket : socket ∈ openedSockets past) : queuedFrames (about socket past) ≠ [] := by
  obtain ⟨_, _, _, _, _, _, hphase, hready, -⟩ := hasks
  have hgathering : h.IsGathering := .inr hphase
  have hgathers := hlife.sound.gathers hgathering
  obtain ⟨c, hc, hid⟩ := hlife.connection hgathering.atWork hsocket
  have hstate := hgathers.ready_of_allReady hlife.sound hready c hc
  have hearly : c.IsEarly := .inr (.inr hstate)
  have hqueued := (hlife.dispatches hnodup hgathering.atWork c hc hearly.free socket hid).queued
  simp only [Connection.HasQueued, hstate] at hqueued
  rw [hqueued]
  exact List.cons_ne_nil _ _

theorem Life.questioned (hlife : Life table past h) (hnodup : (openedSockets past).Nodup)
    (hasked : r ∈ requests past) {socket : SocketId} (hsocket : socket ∈ openedSockets past) :
    queuedFrames (about socket past) ≠ [] := by
  obtain ⟨before, hs, after, h₀, rfl, hlife₀, hasks, -, hopened⟩ := hlife.turn_of_request r hasked
  rw [hopened] at hnodup hsocket
  rw [List.append_assoc, about_append, queuedFrames_append]
  exact List.append_ne_nil_of_left_ne_nil (hasks.questioned hlife₀ hnodup hsocket) _

theorem Life.mem_queued_of_request (hlife : Life table past h) (hasked : r ∈ requests past)
    {socket : SocketId} (hsocket : (openedSockets past).head? = some socket) :
    .requestReplicationStream r ∈ queuedFrames (about socket past) := by
  obtain ⟨x, hx, hrequested⟩ := List.mem_filterMap.1 hasked
  obtain ⟨asker, rfl⟩ := eq_queued_of_requested? hrequested
  obtain ⟨before, after, hsplit⟩ := List.append_of_mem hx
  have hasks := hlife.asks
  rw [hsplit] at hasks
  obtain ⟨-, hsome, -⟩ := hasks.split asker r rfl
  obtain ⟨socket', rfl⟩ := Option.isSome_iff_exists.1 hsome
  rw [head_of_request hlife.asks hx] at hsocket
  cases hsocket
  exact List.mem_filterMap.2 ⟨_, List.mem_filter.2 ⟨hx, by simp [Happening.socket?]⟩, rfl⟩

/-- Once the data stream was asked for, all that is to go out has been put in. -/
theorem Life.queued_eq (hlife : Life table past h) (hnodup : (openedSockets past).Nodup)
    (hheld : m.IsHeld past) {id : InstanceId} (hid : ∀ x ∈ past, x.Presents id)
    (hrequests : requests past = m.request?.toList) (hsome : m.request?.isSome) {i : Nat}
    {socket : SocketId} (hsocket : (openedSockets past)[i]? = some socket) :
    queuedFrames (about socket past) = m.frames id h.peer i := by
  obtain ⟨r, hr⟩ := Option.isSome_iff_exists.1 hsome
  rw [hr] at hrequests
  have hasked : r ∈ requests past := by
    rw [hrequests]
    exact List.mem_singleton_self r
  have hfront := (hlife.outflow_prefix hnodup hheld hid (hr ▸ hrequests) hsocket).1
  have hquestion := hlife.questioned hnodup hasked (List.mem_of_getElem? hsocket)
  unfold Meeting.frames at hfront ⊢
  rw [hr] at hfront ⊢
  by_cases hzero : i = 0
  · subst hzero
    rw [if_pos rfl] at hfront ⊢
    have hlead : queuedFrames (about socket past) <+: [_] ++ [.requestReplicationStream r] := hfront
    refine (List.prefix_concat_iff.1 hlead).resolve_right fun hquestion => ?_
    have hmem :=
      hquestion.subset (hlife.mem_queued_of_request hasked (List.head?_eq_getElem?.trans hsocket))
    cases List.mem_singleton.1 hmem
  · rw [if_neg hzero] at hfront ⊢
    have hlead : queuedFrames (about socket past) <+: [] ++ [_] := hfront
    exact (List.prefix_concat_iff.1 hlead).resolve_right fun hnone => hquestion
      (List.prefix_nil.1 hnone)

end Handler

end ReplicaHandshake
