import ReplicaHandshake.Proofs.Handler.Postings

/-!
# Farewells

A handler reports that a connection is closed when it closes the socket, and also when it reads that
its master has ended the stream; there are no other such reports (`Booked.farewells`).  Where a
stream has ended the handler fails and closes all its sockets, so that socket is among the closed
ones, and has been reported twice.  That befalls a handler once at most (`Life.leaves`).
-/

namespace ReplicaHandshake

namespace Happening

/-- The socket of which a master has ended the stream: there was nothing left to read. -/
def ended? : Happening → Option SocketId
  | answered (.read socket _) (.ok bs) => if bs.1 = [] then some socket else none
  | _ => none

/-- The table of which it was reported that a connection is closed. -/
def farewell? : Happening → Option String
  | reported (.connectionEvent tableName event) => if event = "closed" then some tableName else none
  | _ => none

theorem ended?_eq_none_of_used {x : Happening} (h : x.used? = none) : x.ended? = none := by
  unfold ended?
  split
  · cases h
  · rfl

theorem of_isPlain {x : Happening} (h : x.isPlain = true) :
    x.closed? = none ∧ x.ended? = none ∧ x.farewell? = none := by
  refine ⟨?_, ?_, ?_⟩
  · unfold closed?
    split
    · cases h
    · rfl
  · unfold ended?
    split
    · exact if_neg (by simpa [isPlain] using h)
    · rfl
  · unfold farewell?
    split
    · exact if_neg (by simpa [isPlain] using h)
    · rfl

end Happening

/-- The sockets of which masters have ended the stream. -/
def endedSockets (hs : List Happening) : List SocketId :=
  hs.filterMap (·.ended?)

/-- The tables of which it was reported that a connection is closed, as often as it was. -/
def farewells (hs : List Happening) : List String :=
  hs.filterMap (·.farewell?)

@[simp] theorem endedSockets_append (past hs : List Happening) :
    endedSockets (past ++ hs) = endedSockets past ++ endedSockets hs :=
  List.filterMap_append

@[simp] theorem farewells_append (past hs : List Happening) :
    farewells (past ++ hs) = farewells past ++ farewells hs :=
  List.filterMap_append

variable {hs : List Happening}

theorem Posting.farewells {tableName : String} {isOver : Bool}
    (hpost : Posting tableName isOver hs) :
    farewells hs =
      List.replicate ((closedSockets hs).length + (endedSockets hs).length) tableName := by
  cases hpost with
  | plain hplain =>
    obtain ⟨hclosed, hended, hfarewell⟩ := Happening.of_isPlain hplain
    simp [ReplicaHandshake.farewells, closedSockets, endedSockets, hclosed, hended, hfarewell]
  | _ => rfl

/-- A handler reports that a connection is closed for every socket that it closes, and for every
stream that ends. -/
theorem Booked.farewells {tableName : String} {isOver : Bool}
    (hbooked : Booked tableName isOver hs) :
    farewells hs =
      List.replicate ((closedSockets hs).length + (endedSockets hs).length) tableName := by
  induction hbooked with
  | nil => rfl
  | post hpost _ ih =>
    rw [farewells_append, hpost.farewells, ih, List.replicate_append_replicate,
      closedSockets_append, endedSockets_append, List.length_append, List.length_append]
    congr 1
    omega

/-! ### Streams that end -/

theorem endedSockets_of_plain (h : ∀ x ∈ hs, x.isPlain = true) : endedSockets hs = [] :=
  List.filterMap_eq_nil_iff.2 fun x hx => (Happening.of_isPlain (h x hx)).2.1

theorem endedSockets_of_unused (h : ∀ x ∈ hs, x.used? = none) : endedSockets hs = [] :=
  List.filterMap_eq_nil_iff.2 fun x hx => Happening.ended?_eq_none_of_used (h x hx)

namespace Connection

variable {c c' : Connection}

theorem Fault.ended_le {f : Failure} (hfault : Fault c hs f c') : (endedSockets hs).length ≤ 1 := by
  cases hfault <;> simp [endedSockets, Happening.ended?]

theorem RequestFault.ended_le {r : RequestReplicationStream} {f : Failure}
    (hfault : RequestFault r c hs f c') : (endedSockets hs).length ≤ 1 := by
  cases hfault with
  | queue => exact Nat.zero_le _
  | write _ _ hends =>
    obtain ⟨c₁, hs₁, hs₂, rfl, hwrites, hfault, -⟩ := hends
    rw [← List.singleton_append, ← List.singleton_append (l := hs₁ ++ hs₂)]
    simp only [endedSockets_append, endedSockets_of_plain (plain_of_writes hwrites)]
    exact hfault.ended_le

end Connection

namespace Handler

variable {h h' : Handler} {past : List Happening} {table : TableSettings}

theorem Fault.ended_le {f : Failure} (hfault : Fault h hs f h') : (endedSockets hs).length ≤ 1 := by
  have hplain : ∀ {hs : List Happening}, (∀ x ∈ hs, x.isPlain = true) →
      (endedSockets hs).length ≤ 1 := by
    intro hs hplain
    rw [endedSockets_of_plain hplain]
    exact Nat.zero_le _
  cases hfault with
  | timeout => exact Nat.zero_le _
  | connection _ _ hfault | handoff _ hfault => exact hfault.ended_le
  | divergence _ _ hhear => exact hplain hhear.plain
  | tableExists | openWriter | mismatch => exact hplain (by simp [Happening.isPlain])
  | createTable _ _ hhear =>
    exact hplain (List.forall_mem_append.2 ⟨hhear.plain, List.forall_mem_singleton.2 rfl⟩)
  | request _ _ _ hresolves hrequest =>
    rw [endedSockets_append, endedSockets_of_plain hresolves.plain]
    exact hrequest.ended_le

theorem endedSockets_stop (h : Handler) : endedSockets h.stopHappenings = [] := by
  refine endedSockets_of_unused fun x hx => ?_
  obtain rfl | hrelease := mem_stopHappenings hx
  · rfl
  · cases hrelease <;> rfl

/-- Unless the handler fails, no stream ends in a move. -/
theorem Move.ended (hmove : Move h hs h') : endedSockets hs = [] ∨ ∃ f h₁ did, Fault h did f h₁ ∧
    hs = did ++ h₁.stopForHappenings f.kind ∧ h' = h₁.stoppedFor (.failed f) := by
  cases hmove with
  | fails hfault => exact .inr ⟨_, _, _, hfault, rfl, rfl⟩
  | exchange _ _ hstep => exact .inl (endedSockets_of_plain hstep.plain)
  | tableInfo _ _ hhear => exact .inl (endedSockets_of_plain hhear.plain)
  | rendezvous _ _ _ hresolves hrequest =>
    rw [endedSockets_append, endedSockets_append, endedSockets_of_plain hresolves.plain,
      endedSockets_of_plain hrequest.plain]
    exact .inl rfl
  | streamStart _ _ hhear hsupplies =>
    rw [endedSockets_append, endedSockets_append, endedSockets_of_plain hhear.plain,
      endedSockets_of_plain hsupplies.plain]
    exact .inl rfl
  | write _ hwrite => exact .inl (endedSockets_of_plain hwrite.plain)
  | socketTaken _ hoffer | socketRefused _ hoffer =>
    cases hoffer
    exact .inl rfl
  | allConnected | writerTaken | writerRefused | waits | streams | stopAccepted | stopRefused =>
    exact .inl rfl

theorem Turn.ended (hturn : Turn h hs h') : endedSockets hs = [] ∨ ∃ f h₁ did, Fault h did f h₁ ∧
    hs = did ++ h₁.stopForHappenings f.kind ∧ h' = h₁.stoppedFor (.failed f) := by
  cases hturn with
  | move hmove => exact hmove.ended
  | stops => exact .inl h.endedSockets_stop
  | @loses h₁ => exact .inl h₁.endedSockets_stop
  | letsGo | finishes | concludes => exact .inl rfl

/-- If the stream of a socket ends on the way to a fault, then the handler closes the socket
when it fails. -/
theorem Fault.ended_closed {f : Failure} (hfault : Fault h hs f h') (hsound : h.Sound)
    {socket : SocketId} (hended : socket ∈ endedSockets hs) :
    socket ∈ closedSockets (h'.stopForHappenings f.kind) := by
  obtain ⟨htalks, howned⟩ := hfault.talks hsound
  obtain ⟨x, hx, hended⟩ := List.mem_filterMap.1 hended
  have hused : x.socket? = some socket := by
    unfold Happening.ended? at hended
    split at hended
    · split at hended <;> cases hended
      rfl
    · cases hended
  obtain ⟨c, hc, hsocket⟩ := (htalks x hx).2 socket hused
  rw [(closes_stopFor (hfault.whole hsound).free _).closed, howned]
  exact List.mem_flatMap.2 ⟨c, hc, by simp [Connection.ownedSockets, hsocket]⟩

/-- While a handler is at work no stream has ended; later on one has at most, and its
socket was closed. -/
structure Leaves (past : List Happening) (h : Handler) : Prop where
  atWork : h.AtWork → endedSockets past = []
  once : (endedSockets past).length ≤ 1
  closed : ∀ socket ∈ endedSockets past, socket ∈ closedSockets past

theorem Leaves.turn (hleaves : Leaves past h) (hturn : Turn h hs h') (hsound : h.Sound) :
    Leaves (past ++ hs) h' := by
  obtain hnone | ⟨f, h₁, did, hfault, rfl, rfl⟩ := hturn.ended
  · have hsame : endedSockets (past ++ hs) = endedSockets past := by
      rw [endedSockets_append, hnone, List.append_nil]
    refine ⟨fun hwork => ?_, ?_, fun socket hended => ?_⟩
    · rw [hsame]
      exact hleaves.atWork ((hturn.view hsound).roster hwork).1
    · rw [hsame]
      exact hleaves.once
    · rw [hsame] at hended
      rw [closedSockets_append]
      exact List.mem_append_left _ (hleaves.closed socket hended)
  · have hfirst := hleaves.atWork hfault.atWork
    have hstop : endedSockets (h₁.stopForHappenings f.kind) = [] := h₁.endedSockets_stop
    have hall : endedSockets (past ++ (did ++ h₁.stopForHappenings f.kind)) = endedSockets did := by
      rw [endedSockets_append, endedSockets_append, hfirst, hstop, List.nil_append, List.append_nil]
    refine ⟨fun hwork => absurd hwork (not_atWork_stopping rfl), ?_, fun socket hended => ?_⟩
    · rw [hall]
      exact hfault.ended_le
    · rw [hall] at hended
      rw [closedSockets_append, closedSockets_append]
      exact List.mem_append_right _ (List.mem_append_right _ (hfault.ended_closed hsound hended))

theorem leaves_of_none (hnone : endedSockets past = []) : Leaves past h := by
  refine ⟨fun _ => hnone, ?_, ?_⟩
  · rw [hnone]
    exact Nat.zero_le _
  · rw [hnone]
    exact List.forall_mem_nil _

theorem Life.leaves (hlife : Life table past h) : Leaves past h := by
  have hovertures : ∀ {hs : List Happening}, (∀ x ∈ hs, Overture x) → endedSockets hs = [] :=
      fun hall =>
    endedSockets_of_unused fun x hx => by cases hall x hx <;> rfl
  refine hlife.invariant ?_ ?_ ?_
  · intro hs h hopened
    exact leaves_of_none (hovertures hopened.overture)
  · intro hs h hrefused
    obtain ⟨front, back, rfl, hfront, hcloses, -, -⟩ := hrefused.happenings
    have hback : endedSockets back = [] :=
      endedSockets_of_unused fun x hx => (hcloses.none_else x hx).2.2.2
    refine leaves_of_none ?_
    rw [endedSockets_append, hovertures hfront, hback]
    rfl
  · intro past h hs h' hlife hleaves hturn
    exact hleaves.turn hturn hlife.sound

end Handler

end ReplicaHandshake
