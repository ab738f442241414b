import ReplicaHandshake.Proofs.Connection.Outflow
import ReplicaHandshake.Proofs.Handler.Bytes

/-!
# What a handler does with its masters

By a turn one connection at most does something with its master, and only one that the multiplexer
has not taken (`Turn.does`); all else that happens is aside.  Nothing is read from a socket or
written to it before it has said that it is connected (`Life.exchanges`).
-/

namespace ReplicaHandshake

/-- By a happening nothing goes out of an outbound buffer or into it, and no socket is
read or written. -/
def Happening.IsAside (x : Happening) : Prop :=
  x.IsDry ∧ x.exchanged? = none

theorem Happening.isAside_reported (m : Metric) : (Happening.reported m).IsAside :=
  ⟨⟨rfl, rfl⟩, rfl⟩

theorem Overture.isAside {x : Happening} (h : Overture x) : x.IsAside := by
  cases h <;> exact ⟨⟨rfl, rfl⟩, rfl⟩

/-- What a connection of a handler does with its master: it acts, or comes upon a fault. -/
inductive Connection.Does (c : Connection) : List Happening → Prop where
  | acts {hs : List Happening} {c' : Connection} : Act c hs c' → Does c hs
  | fails {hs : List Happening} {f : Failure} {c' : Connection} : Fault c hs f c' → Does c hs
  | failsToAsk {hs : List Happening} {r : RequestReplicationStream} {f : Failure}
      {c' : Connection} :
      c.Holds → RequestFault r c hs f c' → Does c hs

theorem Connection.Does.exchanges {c : Connection} {hs : List Happening} (h : c.Does hs) :
    c.Exchanges hs := by
  cases h with
  | acts h => exact h.exchanges
  | fails h => exact h.exchanges
  | failsToAsk _ h => exact h.exchanges

theorem Connection.Does.pours {c : Connection} {hs : List Happening} (h : c.Does hs)
    (hsound : c.Sound) : ∃ c', Pours c hs c' := by
  cases h with
  | acts h => exact ⟨_, h.pours hsound⟩
  | fails h => exact ⟨_, pours_of_dry h.dry.1 (by rw [h.dry.2])⟩
  | failsToAsk hholds h => exact ⟨_, h.pours hholds hsound⟩

namespace Handler

variable {h h' : Handler} {past hs : List Happening} {table : TableSettings}

/-! ### Who does something -/

/-- What happens is aside, or one connection does it that was not taken. -/
def DoesOne (h : Handler) (hs : List Happening) : Prop :=
  (∀ x ∈ hs, x.IsAside) ∨ ∃ c ∈ h.connections, c.isTransferred = false ∧ ∃ front done back,
    hs = front ++ done ++ back ∧ c.Does done ∧ ∀ x ∈ front ++ back, x.IsAside

theorem DoesOne.single {c : Connection} (hc : c ∈ h.connections) (hfree : c.isTransferred = false)
    (hdoes : c.Does hs) : h.DoesOne hs :=
  .inr ⟨c, hc, hfree, [], hs, [], by simp, hdoes, by simp⟩

theorem DoesOne.append {back : List Happening} (hdoes : h.DoesOne hs)
    (hback : ∀ x ∈ back, x.IsAside) : h.DoesOne (hs ++ back) := by
  obtain haside | ⟨c, hc, hfree, front, done, back', rfl, hdone, haside⟩ := hdoes
  · exact .inl fun x hx => (List.mem_append.1 hx).elim (haside x) (hback x)
  · refine .inr ⟨c, hc, hfree, front, done, back' ++ back, by simp, hdone, fun x hx => ?_⟩
    rw [← List.append_assoc, List.mem_append] at hx
    exact hx.elim (haside x) (hback x)

theorem DoesOne.prepend {front : List Happening} (hfront : ∀ x ∈ front, x.IsAside)
    (hdoes : h.DoesOne hs) : h.DoesOne (front ++ hs) := by
  obtain haside | ⟨c, hc, hfree, front', done, back, rfl, hdone, haside⟩ := hdoes
  · exact .inl fun x hx => (List.mem_append.1 hx).elim (hfront x) (haside x)
  · refine .inr ⟨c, hc, hfree, front ++ front', done, back, by simp, hdone, fun x hx => ?_⟩
    rw [List.append_assoc, List.mem_append] at hx
    exact hx.elim (hfront x) (haside x)

theorem stopHappenings_isAside (h : Handler) : ∀ x ∈ h.stopHappenings, x.IsAside := by
  intro x hx
  obtain rfl | hx := mem_stopHappenings hx
  · exact Happening.isAside_reported _
  · cases hx <;> exact ⟨⟨rfl, rfl⟩, rfl⟩

theorem stopForHappenings_isAside (h : Handler) (kind : String) :
    ∀ x ∈ h.stopForHappenings kind, x.IsAside :=
  List.forall_mem_cons.2 ⟨Happening.isAside_reported _, h.stopHappenings_isAside⟩

theorem Resolves.isAside {rows : UInt64} (hresolves : h.Resolves hs rows h') :
    ∀ x ∈ hs, x.IsAside := by
  cases hresolves <;>
    simp [Happening.IsAside, Happening.IsDry, Happening.written, Happening.queued?,
    Happening.exchanged?]

theorem Supplies.isAside {tableName : String} {owned : Option TableWriter}
    {start : StartOfReplicationStream} {writer : TableWriter}
    (hsupplies : Supplies tableName owned start hs writer) : ∀ x ∈ hs, x.IsAside := by
  cases hsupplies <;>
    simp [Happening.IsAside, Happening.IsDry, Happening.written, Happening.queued?,
    Happening.exchanged?]

/-- A connection that takes part in the handshake was not taken. -/
theorem Polls.free {before after : List Connection} {c : Connection} (hpolls : h.Polls before)
    (hsound : h.Sound) (hconnections : h.connections = before ++ c :: after) :
    c.isTransferred = false := by
  obtain hphase | ⟨hphase, rfl⟩ := hpolls
  · have hstate := (hsound.gathers hphase).states c (mem_of_split hconnections)
    unfold Connection.isTransferred
    obtain hstate | hstate | hstate := hstate <;> rw [hstate] <;> rfl
  · obtain ⟨first, rest, hsplit, hstate, -⟩ := (hsound.requests hphase).states
    rw [hconnections, List.nil_append] at hsplit
    obtain ⟨rfl, -⟩ := List.cons.inj hsplit
    unfold Connection.isTransferred
    rw [hstate]
    rfl

theorem Fault.does {f : Failure} (hfault : Fault h hs f h') (hsound : h.Sound) : h.DoesOne hs := by
  cases hfault with
  | timeout => exact .inl (by simp)
  | tableExists | openWriter | mismatch =>
    exact .inl (by simp [Happening.IsAside, Happening.IsDry, Happening.written, Happening.queued?,
      Happening.exchanged?])
  | connection hpolls hconnections hfault =>
    exact .single (mem_of_split hconnections) (hpolls.free hsound hconnections) (.fails hfault)
  | handoff hhands hfault =>
    exact .single (mem_of_split hhands.2.2.1) hhands.2.2.2.2 (.fails hfault)
  | @divergence before _ _ _ _ _ hphase hconnections hhear =>
    have hpolls : h.Polls before := .inl hphase
    have hholds := (hsound.gathers hphase).holds _ (mem_of_split hconnections)
    exact .single (mem_of_split hconnections) (hpolls.free hsound hconnections)
      (.acts (.hear hholds hhear))
  | @request _ first _ rest _ _ _ _ hphase _ hconnections hresolves hrequest =>
    have hsplit : h.connections = [] ++ first :: rest := hconnections
    have hpolls : h.Polls [] := .inl (.inr hphase)
    have hholds := (hsound.gathers (.inr hphase)).holds _ (mem_of_split hsplit)
    apply DoesOne.prepend hresolves.isAside
    exact .single (mem_of_split hsplit) (hpolls.free hsound hsplit) (.failsToAsk hholds hrequest)
  | @createTable first _ rest _ _ _ hphase hconnections hhear =>
    have hsplit : h.connections = [] ++ first :: rest := hconnections
    have hpolls : h.Polls [] := .inr ⟨hphase, rfl⟩
    have hholds := (hsound.requests hphase).holds _ (mem_of_split hsplit)
    apply DoesOne.append
    · exact .single (mem_of_split hsplit) (hpolls.free hsound hsplit) (.acts (.hear hholds hhear))
    · simp [Happening.IsAside, Happening.IsDry, Happening.written, Happening.queued?,
        Happening.exchanged?]

/-- By a move one connection at most does something with its master. -/
theorem Move.does (hmove : Move h hs h') (hsound : h.Sound) : h.DoesOne hs := by
  cases hmove with
  | exchange hpolls hconnections hstep =>
    exact .single (mem_of_split hconnections) (hpolls.free hsound hconnections)
      (.acts (.step hstep))
  | @tableInfo before _ _ _ _ _ hphase hconnections hhear =>
    have hpolls : h.Polls before := .inl hphase
    have hholds := (hsound.gathers hphase).holds _ (mem_of_split hconnections)
    exact .single (mem_of_split hconnections) (hpolls.free hsound hconnections)
      (.acts (.hear hholds hhear))
  | @rendezvous _ first _ rest _ _ _ hphase _ hconnections hresolves hrequest =>
    have hsplit : h.connections = [] ++ first :: rest := hconnections
    have hpolls : h.Polls [] := .inl (.inr hphase)
    have hholds := (hsound.gathers (.inr hphase)).holds _ (mem_of_split hsplit)
    refine (DoesOne.prepend hresolves.isAside ?_).append
      (by simpa using Happening.isAside_reported _)
    exact .single (mem_of_split hsplit) (hpolls.free hsound hsplit)
      (.acts (.request hholds hrequest))
  | @streamStart first _ rest _ _ _ _ hphase hconnections hhear hsupplies =>
    have hsplit : h.connections = [] ++ first :: rest := hconnections
    have hpolls : h.Polls [] := .inr ⟨hphase, rfl⟩
    have hholds := (hsound.requests hphase).holds _ (mem_of_split hsplit)
    refine (DoesOne.append ?_ hsupplies.isAside).append
      (by simpa using Happening.isAside_reported _)
    exact .single (mem_of_split hsplit) (hpolls.free hsound hsplit) (.acts (.hear hholds hhear))
  | write hhands hwrite =>
    exact .single (mem_of_split hhands.2.2.1) hhands.2.2.2.2 (.acts (.step (.write hwrite)))
  | socketTaken hhands hoffer =>
    have hkept := hsound.kept_of_hands hhands
    exact .single (mem_of_split hhands.2.2.1) hhands.2.2.2.2 (.acts (.offer hkept hoffer))
  | socketRefused hhands hoffer =>
    have hkept := hsound.kept_of_hands hhands
    refine DoesOne.append ?_ (by simpa using Happening.isAside_reported _)
    exact .single (mem_of_split hhands.2.2.1) hhands.2.2.2.2 (.acts (.offer hkept hoffer))
  | fails hfault => exact (hfault.does hsound).append (stopForHappenings_isAside _ _)
  | allConnected | writerTaken | writerRefused | waits | streams | stopAccepted | stopRefused =>
    exact .inl (by simp [Happening.IsAside, Happening.IsDry, Happening.written, Happening.queued?,
      Happening.exchanged?])

theorem Turn.does (hturn : Turn h hs h') (hsound : h.Sound) : h.DoesOne hs := by
  cases hturn with
  | move hmove => exact hmove.does hsound
  | stops => exact .inl h.stopHappenings_isAside
  | loses => exact .inl (stopForHappenings_isAside _ _)
  | letsGo => exact .inl (by simp)
  | finishes | concludes => exact .inl (by simpa using Happening.isAside_reported _)

/-- Where not all that happens is dry, it is what a connection pours out. -/
theorem DoesOne.pours (hdoes : h.DoesOne hs) (hsound : h.Sound) :
    (∀ x ∈ hs, x.IsDry) ∨
      ∃ c ∈ h.connections, c.isTransferred = false ∧ ∃ c', Connection.Pours c hs c' := by
  obtain haside | ⟨c, hc, hfree, front, done, back, rfl, hdone, haside⟩ := hdoes
  · exact .inl fun x hx => (haside x hx).1
  obtain ⟨c', hpours⟩ := hdone.pours (hsound.connections c hc)
  have hfront : ∀ x ∈ front, x.IsDry := fun x hx => (haside x (List.mem_append_left back hx)).1
  have hback : ∀ x ∈ back, x.IsDry := fun x hx => (haside x (List.mem_append_right front hx)).1
  have hframes : queuedFrames (front ++ done ++ back) = queuedFrames done := by
    rw [queuedFrames_append, queuedFrames_append, queuedFrames_of_dry hfront,
      queuedFrames_of_dry hback, List.nil_append, List.append_nil]
  refine .inr ⟨c, hc, hfree, c', ?_, ?_, ?_, ?_⟩
  · exact ((Flows.of_dry hfront _).append hpours.flows).append (.of_dry hback _)
  · rw [hframes]
    exact hpours.fits
  · rw [hframes]
    exact hpours.frames
  · intro x hx
    rw [List.mem_append, List.mem_append] at hx
    obtain (hx | hx) | hx := hx
    · exact .inr (hfront x hx)
    · exact hpours.own x hx
    · exact .inr (hback x hx)

theorem Begins.isAside {instanceId : InstanceId} {peer : PeerId} {frameBuffer : Nat}
    {timeout : Duration} {now : Instant}
    (hbegins : Begins (new instanceId peer table frameBuffer timeout now) hs h) :
    ∀ x ∈ hs, x.IsAside := by
  have hgreetings : ∀ x ∈ (new instanceId peer table frameBuffer timeout now).greetings,
      x.IsAside := by
    simp [greetings, Happening.IsAside, Happening.IsDry, Happening.written, Happening.queued?,
      Happening.exchanged?]
  cases hbegins with
  | opens hopens =>
    exact fun x hx => (List.mem_append.1 hx).elim (hgreetings x) fun hx =>
      (hopens.overture x hx).isAside
  | fails hopens =>
    intro x hx
    rw [List.mem_append, List.mem_append] at hx
    obtain (hx | hx) | hx := hx
    · exact hgreetings x hx
    · exact (hopens.overture x hx).isAside
    · exact stopForHappenings_isAside _ _ x hx

/-! ### Before a socket is read or written -/

/-- Whatever is read or written has said before that it is connected. -/
def ExchangesConnected (past : List Happening) (x : Happening) : Prop :=
  ∀ socket, x.exchanged? = some socket → Connection.HasConnected socket past

theorem Life.isReached (hlife : Life table past h) : ∀ c ∈ h.connections, c.IsReached past := by
  refine hlife.forall_connections ?_ ?_ ?_ fun hact hpast => hact.isReached hpast
  · intro past c hopened socket _ hopen
    simp [Connection.hasRequestedTableInfo, hopened.state] at hopen
  · intro past c hsound htransferred socket hsocket _
    have hnone := hsound.ownedSockets_eq_nil htransferred
    simp [Connection.ownedSockets, hsocket] at hnone
  · intro past past' c hpast hsub socket hsocket hopen
    exact (hpast socket hsocket hopen).mono hsub

/-- All its life a handler reads and writes only what has said before that it is connected. -/
theorem Life.exchanges (hlife : Life table past h) : Along ExchangesConnected [] past := by
  have hnone : ∀ {past hs : List Happening}, (∀ x ∈ hs, x.IsAside) →
      Along ExchangesConnected past hs := by
    intro past hs haside
    apply along_of_forall
    intro x hx past socket hsocket
    rw [(haside x hx).2] at hsocket
    cases hsocket
  induction hlife with
  | begins _ hbegins => exact hnone hbegins.isAside
  | @turns past hs h h' hlife hturn ih =>
    refine along_append.2 ⟨ih, ?_⟩
    rw [List.nil_append]
    obtain haside | ⟨c, hc, -, front, done, back, rfl, hdone, haside⟩ := hturn.does hlife.sound
    · exact hnone haside
    have hreached := hlife.isReached c hc
    apply along_of_split
    intro before x after hsplit socket hsocket
    have hx : x ∈ front ++ done ++ back := by simp [hsplit]
    rw [List.mem_append, List.mem_append] at hx
    obtain (hx | hx) | hx := hx
    · rw [(haside x (List.mem_append_left back hx)).2] at hsocket
      cases hsocket
    · obtain ⟨hown, hopen⟩ := hdone.exchanges x hx socket hsocket
      exact (hreached socket hown hopen).mono fun y hy => List.mem_append_left before hy
    · rw [(haside x (List.mem_append_right front hx)).2] at hsocket
      cases hsocket

end Handler

end ReplicaHandshake
