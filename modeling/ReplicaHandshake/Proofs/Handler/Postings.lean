import ReplicaHandshake.Proofs.Handler.Outflow

/-!
# Postings

What a handler reports is booked together with what it reports on, and nothing comes between
them: that the multiplexer refuses, with the retry; that a socket is closed or a master has
ended its stream, with the end of the connection; that the table streams, with the time that it
took.  A `Posting` is what is booked at a time, and all the life of a handler is made of
postings (`Life.booked`).

So two kinds of happenings of which every posting has equally many are equally many in the whole
life (`Booked.countP_eq`).
-/

namespace ReplicaHandshake

namespace Happening

/-- Whether a happening is booked by itself: it is neither a refusal, an end of a connection nor a
report on these, and no phase is entered. -/
def isPlain : Happening → Bool
  | answered (.read _ _) (.ok bs) => !bs.1.isEmpty
  | answered (.closeSocket _) _ => false
  | answered (.offerWriter _ _ _) taken => taken
  | answered (.offerSocket _ _) taken => taken
  | answered (.stopPeer _) accepted => accepted
  | reported (.connectionEvent _ event) => event ≠ "closed"
  | reported (.phaseEntered _) => false
  | reported (.handshakeDuration _ _) => false
  | reported (.handoffRetry _) => false
  | reported (.handlerOutcome _ _) => false
  | _ => true

end Happening

/-- What is booked at a time on behalf of a handler of this table; only one that is over comes
to an outcome. -/
inductive Posting (tableName : String) (isOver : Bool) : List Happening → Prop where
  | plain {x : Happening} : x.isPlain = true → Posting tableName isOver [x]
  | enters {phase : Phase} : phase ≠ .streaming →
    Posting tableName isOver [.reported (.phaseEntered phase.name)]
  | streams (duration : Duration) : Posting tableName isOver
      [.reported (.phaseEntered Phase.streaming.name),
        .reported (.handshakeDuration tableName duration)]
  | writerRefused (peer : PeerId) (masterTableId : UInt32) (writer : TableWriter) :
      Posting tableName isOver
      [.answered (.offerWriter peer masterTableId writer) false, .reported (.handoffRetry "writer")]
  | socketRefused (peer : PeerId) (handoff : Handoff) : Posting tableName isOver
      [.answered (.offerSocket peer handoff) false, .reported (.handoffRetry "connection")]
  | stopRefused (peer : PeerId) : Posting tableName isOver
      [.answered (.stopPeer peer) false, .reported (.handoffRetry "stop")]
  | waits : Posting tableName isOver [.reported (.handoffRetry "connection")]
  | ended (socket : SocketId) (most : Nat) (h : [].length ≤ most) : Posting tableName isOver
      [.answered (.read socket most) (.ok ⟨[], h⟩), .reported (.connectionEvent tableName "closed")]
  | closes (socket : SocketId) : Posting tableName isOver
      [.answered (.closeSocket socket) (), .reported (.connectionEvent tableName "closed")]
  | concludes (outcome : String) : isOver = true →
      Posting tableName isOver [.reported (.handlerOutcome tableName outcome)]

/-- These happenings are postings, one after the other. -/
inductive Booked (tableName : String) (isOver : Bool) : List Happening → Prop where
  | nil : Booked tableName isOver []
  | post {hs rest : List Happening} : Posting tableName isOver hs → Booked tableName isOver rest →
      Booked tableName isOver (hs ++ rest)

variable {tableName : String} {isOver : Bool} {hs hs' : List Happening}

/-- What is booked before a handler is over is booked when it is. -/
theorem Posting.mono {later : Bool} (h : Posting tableName isOver hs)
    (hlater : isOver = true → later = true) :
    Posting tableName later hs := by
  cases h with
  | plain h => exact .plain h
  | enters h => exact .enters h
  | streams => exact .streams _
  | writerRefused => exact .writerRefused ..
  | socketRefused => exact .socketRefused ..
  | stopRefused => exact .stopRefused _
  | waits => exact .waits
  | ended => exact .ended ..
  | closes => exact .closes _
  | concludes _ h => exact .concludes _ (hlater h)

namespace Booked

theorem single (h : Posting tableName isOver hs) : Booked tableName isOver hs := by
  have hbooked := post h nil
  rwa [List.append_nil] at hbooked

theorem mono {later : Bool} (h : Booked tableName isOver hs)
    (hlater : isOver = true → later = true) :
    Booked tableName later hs := by
  induction h with
  | nil => exact nil
  | post hpost _ ih => exact post (hpost.mono hlater) ih

theorem append (h : Booked tableName isOver hs) (h' : Booked tableName isOver hs') :
    Booked tableName isOver (hs ++ hs') := by
  induction h with
  | nil => exact h'
  | post hpost _ ih =>
    rw [List.append_assoc]
    exact post hpost ih

theorem of_plain (h : ∀ x ∈ hs, x.isPlain = true) : Booked tableName isOver hs := by
  induction hs with
  | nil => exact nil
  | cons x rest ih =>
    obtain ⟨hx, hrest⟩ := List.forall_mem_cons.1 h
    exact post (.plain hx) (ih hrest)

theorem flatMap {ε : Type} {f : ε → List Happening} {l : List ε}
    (h : ∀ x ∈ l, Booked tableName isOver (f x)) :
    Booked tableName isOver (l.flatMap f) := by
  induction l with
  | nil => exact nil
  | cons x l ih =>
    obtain ⟨hx, hrest⟩ := List.forall_mem_cons.1 h
    rw [List.flatMap_cons]
    exact hx.append (ih hrest)

/-- Of what every posting has equally many there is equally much. -/
theorem countP_eq {p q : Happening → Bool} (h : Booked tableName isOver hs)
    (hpost : ∀ hs, Posting tableName isOver hs → hs.countP p = hs.countP q) :
    hs.countP p = hs.countP q := by
  induction h with
  | nil => rfl
  | post hone _ ih => rw [List.countP_append, List.countP_append, hpost _ hone, ih]

end Booked

/-! ### Connections -/

namespace Connection

variable {c c' : Connection}

theorem Write.plain (h : Write c hs c') : ∀ x ∈ hs, x.isPlain = true := by
  cases h <;> exact List.forall_mem_singleton.2 rfl

theorem plain_of_writes (h : Way Write c hs c') : ∀ x ∈ hs, x.isPlain = true := by
  induction h with
  | refl => exact List.forall_mem_nil _
  | tail _ hwrite ih => exact List.forall_mem_append.2 ⟨ih, hwrite.plain⟩

theorem Step.plain (h : Step c hs c') : ∀ x ∈ hs, x.isPlain = true := by
  cases h with
  | write hwrite => exact hwrite.plain
  | wait | block => exact List.forall_mem_singleton.2 rfl
  | ask => simp [Happening.isPlain]
  | read _ _ hsome => simpa [Happening.isPlain] using hsome

theorem Hear.plain {event : ConnectionEvent} (h : Hear c hs event c') :
    ∀ x ∈ hs, x.isPlain = true := by
  cases h with
  | accept => simp [Happening.isPlain]

theorem Request.plain {r : RequestReplicationStream} (h : Request r c hs c') :
    ∀ x ∈ hs, x.isPlain = true := by
  cases h with
  | ask _ _ hwrites =>
    exact List.forall_mem_cons.2 ⟨rfl, List.forall_mem_cons.2 ⟨rfl, plain_of_writes hwrites⟩⟩

theorem Offer.booked {taken : Bool} (h : Offer c hs taken c') :
    Booked tableName isOver
      (hs ++ if taken then [] else [.reported (.handoffRetry "connection")]) := by
  cases h with
  | taken => exact .single (.plain rfl)
  | refused => exact .single (.socketRefused ..)

theorem Fault.booked {f : Failure} (h : Fault c hs f c') : Booked c.tableName isOver hs := by
  cases h with
  | ended => exact .single (.ended ..)
  | connect | ask | writeNothing | write | read | frame | refuse =>
    exact .of_plain (by simp [Happening.isPlain])

theorem RequestFault.booked {r : RequestReplicationStream} {f : Failure}
    (h : RequestFault r c hs f c') :
    Booked c.tableName isOver hs := by
  cases h with
  | queue => exact .nil
  | write _ _ hends =>
    obtain ⟨c₁, hs₁, hs₂, rfl, hwrites, hfault, -⟩ := hends
    have hname : c₁.tableName = c.tableName := (same_of_writes hwrites).2.2.2.1
    have hasked := (hname ▸ hfault.booked : Booked c.tableName isOver hs₂)
    exact .post (.plain rfl)
      (.post (.plain rfl) (.append (.of_plain (plain_of_writes hwrites)) hasked))

theorem closings_booked (h : c.ownedSockets.length ≤ 1) : Booked c.tableName isOver c.closings := by
  unfold closings
  split
  · exact .nil
  next hsome =>
    obtain ⟨socket, howned⟩ := List.length_eq_one_iff.1
      (Nat.le_antisymm h (List.length_pos_iff.2 fun hnone => hsome (.inr hnone)))
    rw [howned]
    exact .single (.closes socket)

theorem Sound.owned_le (h : c.Sound) : c.ownedSockets.length ≤ 1 := by
  have hheld : ∀ {c : Connection}, c.Holds → c.ownedSockets.length ≤ 1 := by
    rintro c ⟨hid, hsocket, hnone⟩
    obtain ⟨socket, hid⟩ := Option.isSome_iff_exists.1 hid
    simp [ownedSockets, hsocket, hid, hnone]
  unfold Sound at h
  split at h
  · exact hheld h.1
  · exact hheld h.1
  · exact hheld h.1
  · obtain hholds | ⟨handoff, -, hsocket, hsome⟩ := h.1
    · exact hheld hholds
    · simp [ownedSockets, hsocket, hsome]
  · obtain hholds | ⟨handoff, -, hsocket, hsome⟩ := h.1
    · exact hheld hholds
    · simp [ownedSockets, hsocket, hsome]
  · simp [ownedSockets, h.1.2.1, h.1.2.2]
  · exact h.elim
  · exact h.elim

end Connection

/-! ### Handlers -/

namespace Handler

variable {h h' : Handler} {past : List Happening} {table : TableSettings}

theorem Resolves.plain {rows : UInt64} (h : h.Resolves hs rows h') :
    ∀ x ∈ hs, x.isPlain = true := by
  cases h <;> simp [Happening.isPlain]

theorem Supplies.plain {owned : Option TableWriter} {start : StartOfReplicationStream}
    {writer : TableWriter} (h : Supplies tableName owned start hs writer) :
    ∀ x ∈ hs, x.isPlain = true := by
  cases h <;> simp [Happening.isPlain]

theorem stop_booked (h : Handler)
    (howned : ∀ c ∈ h.connections, c.ownedSockets.length ≤ 1 ∧ c.tableName = h.tableName) :
    Booked h.tableName isOver h.stopHappenings := by
  have hstopping : Posting h.tableName isOver [.reported (.phaseEntered Phase.stopping.name)] :=
    .enters (by decide)
  refine .post hstopping (.append (.flatMap fun c hc => ?_) (.of_plain ?_))
  · obtain ⟨hone, hname⟩ := howned c hc
    exact hname ▸ Connection.closings_booked hone
  · unfold releases
    split
    · exact List.forall_mem_nil _
    · exact List.forall_mem_map.2 fun _ _ => rfl

theorem stopFor_booked (h : Handler) (kind : String)
    (howned : ∀ c ∈ h.connections, c.ownedSockets.length ≤ 1 ∧ c.tableName = h.tableName) :
    Booked h.tableName isOver (h.stopForHappenings kind) :=
  .post (.plain rfl) (h.stop_booked howned)

theorem Whole.owned_le (hwhole : h.Whole) :
    ∀ c ∈ h.connections, c.ownedSockets.length ≤ 1 ∧ c.tableName = h.tableName :=
  fun c hc => ⟨(hwhole.connections c hc).owned_le, (hwhole.same c hc).2⟩

theorem Fault.booked {f : Failure} (hfault : Fault h hs f h') (hwhole : h.Whole) :
    Booked h.tableName isOver hs := by
  cases hfault with
  | timeout => exact .nil
  | connection _ hconnections hfault =>
    exact (hwhole.same _ (mem_of_split hconnections)).2 ▸ hfault.booked
  | handoff hhands hfault => exact (hwhole.same _ (mem_of_split hhands.2.2.1)).2 ▸ hfault.booked
  | divergence _ _ hhear => exact .of_plain hhear.plain
  | tableExists | openWriter | mismatch => exact .of_plain (by simp [Happening.isPlain])
  | createTable _ _ hhear => exact Booked.append (.of_plain hhear.plain) (.single (.plain rfl))
  | @request _ first _ rest _ _ _ _ _ _ hconnections hresolves hrequest =>
    have hfirst : first ∈ h.connections := hconnections ▸ List.mem_cons_self
    exact Booked.append (.of_plain hresolves.plain) ((hwhole.same first hfirst).2 ▸ hrequest.booked)

theorem Move.booked (hmove : Move h hs h') (hsound : h.Sound) : Booked h.tableName isOver hs := by
  cases hmove with
  | exchange _ _ hstep => exact .of_plain hstep.plain
  | tableInfo _ _ hhear => exact .of_plain hhear.plain
  | allConnected => exact .single (.enters (by decide))
  | rendezvous _ _ _ hresolves hrequest =>
    exact Booked.append (.append (.of_plain hresolves.plain) (.of_plain hrequest.plain))
      (.single (.enters (by decide)))
  | streamStart _ _ hhear hsupplies =>
    exact Booked.append (.append (.of_plain hhear.plain) (.of_plain hsupplies.plain))
      (.single (.enters (by decide)))
  | writerTaken | stopAccepted => exact .single (.plain rfl)
  | writerRefused => exact .single (.writerRefused ..)
  | write _ hwrite => exact .of_plain hwrite.plain
  | socketTaken _ hoffer | socketRefused _ hoffer => simpa using hoffer.booked
  | waits => exact .single .waits
  | streams => exact .single (.streams _)
  | fails hfault =>
    have hname := hfault.name.2
    exact (hfault.booked hsound.toWhole).append
      (hname ▸ stopFor_booked _ _ (hfault.whole hsound).owned_le)
  | stopRefused => exact .single (.stopRefused _)

theorem Turn.stays_over (hturn : Turn h hs h') (hover : h.phase.isTerminal = true) :
    h'.phase.isTerminal = true := by
  obtain ⟨-, hsame⟩ | ⟨-, hnext⟩ := hturn.course.phases
  · rwa [hsame]
  · rw [Phase.next_eq_nil_iff.2 hover] at hnext
    cases hnext

theorem Turn.booked (hturn : Turn h hs h') (hsound : h.Sound) :
    Booked h.tableName h.phase.isTerminal hs := by
  cases hturn with
  | move hmove => exact hmove.booked hsound
  | stops => exact h.stop_booked hsound.toWhole.owned_le
  | @loses h₁ _ socket _ _ _ heq =>
    subst heq
    exact stopFor_booked _ _ (hsound.toWhole.erase (isTakenAs socket)).owned_le
  | letsGo => exact .nil
  | finishes _ _ hlast =>
    refine .single (.enters ?_)
    rintro rfl
    cases hlast
  | concludes _ hover => exact .single (.concludes _ hover)

theorem Opens.plain {cs cs' : List Connection} {f : Option Failure} (hopens : Opens cs hs f cs') :
    ∀ x ∈ hs, x.isPlain = true := by
  induction hopens with
  | done => exact List.forall_mem_nil _
  | opened _ _ ih => exact List.forall_mem_cons.2 ⟨rfl, ih⟩
  | refused => exact List.forall_mem_singleton.2 rfl

theorem Begins.booked {instanceId : InstanceId} {peer : PeerId} {frameBuffer : Nat}
    {timeout : Duration} {now : Instant}
    (hbegins : Begins (new instanceId peer table frameBuffer timeout now) hs h) :
    Booked table.tableName isOver hs := by
  have henters : Posting table.tableName isOver
      [.reported (.phaseEntered Phase.initializing.name)] :=
    .enters (by decide)
  have hgreetings : Booked table.tableName isOver
      (new instanceId peer table frameBuffer timeout now).greetings :=
    .post (.plain rfl) (.single henters)
  have hnew : ∀ c ∈ (new instanceId peer table frameBuffer timeout now).connections,
      (c.pendingHandoff, c.tableName) = (none, table.tableName) := by
    intro c hc
    obtain ⟨_, -, rfl⟩ := List.mem_map.1 hc
    rfl
  cases hbegins with
  | opens hopens => exact hgreetings.append (.of_plain hopens.plain)
  | @fails _ cs f hopens =>
    refine (hgreetings.append (.of_plain hopens.plain)).append (stopFor_booked
      { new instanceId peer table frameBuffer timeout now with connections := cs } f.kind
        fun c hc => ?_)
    obtain ⟨hnone, hname⟩ := Prod.mk.inj (hopens.all_look (fun _ _ => rfl) hnew c hc)
    refine ⟨?_, hname⟩
    cases hsocket : c.socket <;> simp [Connection.ownedSockets, hnone, hsocket]

/-- All that a handler does in its life is booked. -/
theorem Life.booked (hlife : Life table past h) :
    Booked table.tableName h.phase.isTerminal past := by
  induction hlife with
  | begins _ hbegins => exact hbegins.booked
  | turns hlife hturn ih =>
    have hmore := hturn.booked hlife.sound
    rw [hlife.tableName] at hmore
    exact (ih.append hmore).mono hturn.stays_over

end Handler

end ReplicaHandshake
