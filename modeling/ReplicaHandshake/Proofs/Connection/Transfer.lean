import ReplicaHandshake.Connection.Transfer
import ReplicaHandshake.Proofs.Connection.Poll

/-!
# How a connection gives its socket away

`Connection.Offer` is one offer of the socket to the multiplexer, taken or refused, and
`Connection.Transfer` is all that an attempt to hand the connection over can do
(`tryTransfer_always`).  Closing leaves no choice: `closings` says what happens then, and `closed`
what is left of the connection (`close_always`).
-/

namespace ReplicaHandshake.Connection

/-! ### Offers -/

/-- The socket is offered to the multiplexer; the answer says whether it was taken. -/
inductive Offer : Connection → List Happening → Bool → Connection → Prop where
  | taken {c rest : Connection} {handoff : Handoff} :
      c.outbound.pending = [] → c.takeHandoff = (some handoff, rest) →
      Offer c [.answered (.offerSocket c.peer handoff) true] true
        { rest with state := .transferred }
  | refused {c rest : Connection} {handoff : Handoff} :
      c.outbound.pending = [] → c.takeHandoff = (some handoff, rest) →
      Offer c [.answered (.offerSocket c.peer handoff) false] false
        { rest with pendingHandoff := some handoff }

theorem takeHandoff_keeps (c : Connection) : c.takeHandoff.2.instanceId = c.instanceId ∧
    c.takeHandoff.2.peer = c.peer ∧ c.takeHandoff.2.outbound = c.outbound := by
  unfold takeHandoff
  split <;> exact ⟨rfl, rfl, rfl⟩

theorem Offer.outbound_eq {c c' : Connection} {hs : List Happening} {taken : Bool}
    (h : Offer c hs taken c') :
    c'.outbound = c.outbound := by
  have hkeeps := c.takeHandoff_keeps.2.2
  cases h with
  | taken _ htake | refused _ htake =>
    rw [htake] at hkeeps
    exact hkeeps

/-- An attempt to hand a connection over: some bytes are written, and if all are, the socket is
offered.  A connection that has nothing to offer stays as it is. -/
inductive Transfer : Connection → List Happening → Bool → Connection → Prop where
  | offer {c c₁ c' : Connection} {hs hs' : List Happening} {taken : Bool} :
      Way Write c hs c₁ → Offer c₁ hs' taken c' → Transfer c (hs ++ hs') taken c'
  | blocked {c c' : Connection} {hs : List Happening} :
      Way Write c hs c' → c'.outbound.pending ≠ [] → Transfer c hs false c'
  | bare {c c' : Connection} {hs : List Happening} :
      Way Write c hs c' → c'.takeHandoff.1 = none →
      Transfer c (hs ++ [.noted (.unready c'.socketId)]) false c'

theorem tryTransfer_always {c : Connection} (hstate : c.state = .ready ∨ c.state = .streamStarted) :
    Task.Always tryTransfer c (Transfer c) (WriteEnds c) := by
  rcases hstate with h | h
  all_goals
    have hopen : c.hasRequestedTableInfo := by simp [hasRequestedTableInfo, h]
    simp only [tryTransfer, h, Task.always_bind, Task.always_get, List.nil_append]
    refine (flush_always hopen).mono ?_ fun _ _ _ h => h
    intro hs _ c₁ hwrites
    by_cases hpending : c₁.outbound.pending = []
    case neg => simpa [hpending] using Transfer.blocked hwrites hpending
    rcases hoffered : c₁.takeHandoff with ⟨_ | handoff, rest⟩
    · simpa [hpending, note] using Transfer.bare hwrites (by rw [hoffered])
    · have htaken := Transfer.offer hwrites (.taken hpending hoffered)
      have hrefused := Transfer.offer hwrites (.refused hpending hoffered)
      simpa [hpending, Dialogue.offerSocket, Dialogue.call] using ⟨hrefused, htaken⟩

/-! ### Closing -/

/-- What happens when a connection is closed. -/
def closings (c : Connection) : List Happening :=
  if c.isTransferred ∨ c.ownedSockets = [] then []
  else c.ownedSockets.map (fun socket => .answered (.closeSocket socket) ()) ++
    [.reported (.connectionEvent c.tableName "closed")]

/-- A connection after it was closed. -/
def closed (c : Connection) : Connection :=
  if c.isTransferred then c
  else { c with socket := none, pendingHandoff := none, state := .closed }

theorem closeSockets_always (sockets : List SocketId) :
    (closeSockets sockets).Always fun hs _ =>
      hs = sockets.map fun socket => .answered (.closeSocket socket) () := by
  induction sockets with
  | nil => simp [closeSockets]
  | cons socket rest ih =>
    simp only [closeSockets, Dialogue.closeSocket, Dialogue.call, Dialogue.ask_bind,
      Dialogue.done_bind, Dialogue.always_ask]
    intro _
    exact ih.mono fun hs _ hrest => by rw [hrest]; rfl

theorem close_always (c : Connection) :
    Work.Always close c fun hs _ c' => hs = c.closings ∧ c' = c.closed := by
  by_cases htransferred : c.isTransferred
  · simp [close, closings, closed, htransferred]
  simp only [close, Work.always_bind, Work.always_get, Work.always_set, htransferred, if_false,
    Bool.false_eq_true, List.nil_append, Work.always_lift]
  refine (closeSockets_always c.ownedSockets).mono ?_
  rintro _ _ rfl
  by_cases howned : c.ownedSockets = []
  · simp [closings, closed, htransferred, howned]
  · simp [closings, closed, htransferred, howned, report]

theorem closed_eq_self {c : Connection} (h : c.isTransferred) : c.closed = c :=
  if_pos h

theorem isTransferred_closed {c : Connection} (h : ¬c.isTransferred) :
    c.closed.isTransferred = false := by
  rw [closed, if_neg h]
  rfl

end ReplicaHandshake.Connection
