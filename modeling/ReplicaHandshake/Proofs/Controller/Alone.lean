import ReplicaHandshake.Controller.Basic
import ReplicaHandshake.Proofs.Handler.Renaming

/-!
# One table alone

How a table stands with a controller is one of three things: it has no handler, or a live one, or
one that came to a bad end (`Standing`).  `Standing.tick` is what a tick would be if there were no
other table.  It is the same under other names (`Standing.tick_alike`).

Which handler a table would get is a parameter, since the other tables have a say in the
number of its peer.
-/

namespace ReplicaHandshake

open Handler

/-- How a table stands with a controller. -/
inductive Standing where
  | absent
  | live (handler : Handler) (isStreaming isVoluntary : Bool)
  | parked (handler : Handler)
deriving DecidableEq, Repr

namespace Standing

/-- The peer of the live handler. -/
def peer? : Standing → Option PeerId
  | live h _ _ => some h.peer
  | absent | parked _ => none

/-- Let the live handler do a piece of work, if there is one. -/
def onLive {α : Type} (work : Work Handler α) : Work Standing Unit := do
  match ← get with
  | live h isStreaming isVoluntary =>
    let (_, h) ← (work.run h : Dialogue _)
    set (live h isStreaming isVoluntary)
  | absent | parked _ => return

/-- Carry out an instruction; to add the table is to start a fresh handler. -/
def carryOut (fresh : TableSettings → Handler) : Instruction → Work Standing Unit
  | .add table => do
    match table.validate with
    | .error _ => return
    | .ok _ =>
      match ← get with
      | live .. => return
      | absent | parked _ =>
        let (_, h) ← (Handler.start.run (fresh table) : Dialogue _)
        set (live h false false)
  | .remove _ => do
    match ← get with
    | live h isStreaming _ =>
      let (_, h) ← (Controller.stopOnRequest.run h : Dialogue _)
      set (live h isStreaming true)
    | absent | parked _ => set absent

/-- Carry out instructions in order. -/
def carryOutAll (fresh : TableSettings → Handler) : List Instruction → Work Standing Unit
  | [] => return
  | i :: rest => do
    carryOut fresh i
    carryOutAll fresh rest

/-- Hear in order that the multiplexer has closed sockets. -/
def hearAll : List SocketId → Work Standing Unit
  | [] => return
  | socket :: rest => do
    onLive (onDisconnect socket)
    hearAll rest

/-- The standing of a table whose handler has been through the handoff. -/
def promoted : Standing → Standing
  | live h isStreaming isVoluntary => live h (isStreaming || h.phase = .streaming) isVoluntary
  | absent => absent
  | parked h => parked h

/-- Bring the live handler to its end, if it is drained. -/
def reap : Work Standing Unit := do
  match ← get with
  | live h _ isVoluntary =>
    if h.isDrained then
      let (last, h) ← ((Handler.finish isVoluntary).run h : Dialogue _)
      if last = .distressed then
        report (.handlerOutcome h.tableName "distressed")
        set (parked h)
      else
        report (.handlerOutcome h.tableName "stopped")
        set absent
  | absent | parked _ => return

/-- Do what a tick does for the table: carry out its instructions, hear of its sockets, and let its
handler make one step. -/
def tick (fresh : TableSettings → Handler) (now : Instant) (is : List Instruction)
    (sockets : List SocketId) :
    Work Standing Unit := do
  carryOutAll fresh is
  hearAll sockets
  onLive (Handler.poll now)
  modify promoted
  reap

end Standing

/-! ### Under other names -/

/-- Two controllers that are compared: the identities that they present, and which socket
corresponds to which. -/
structure Pairing where
  socket : SocketId → SocketId
  injective : Function.Injective socket
  own : InstanceId
  other : InstanceId

/-- Two peers that are compared. -/
def Pairing.renaming (π : Pairing) (own other : PeerId) : Renaming :=
  ⟨π.socket, π.injective, ⟨π.own, own⟩, ⟨π.other, other⟩⟩

namespace Standing

variable {π : Pairing} {own other : PeerId}

/-- The same standing under other names, with these peers if there is a live handler. -/
inductive Same (π : Pairing) (own other : PeerId) : Standing → Standing → Prop where
  | absent : Same π own other absent absent
  | live {h h' : Handler} (isStreaming isVoluntary : Bool) : h.Alike (π.renaming own other) h' →
      Same π own other (live h isStreaming isVoluntary) (live h' isStreaming isVoluntary)
  | parked {h h' : Handler} : h.Alike (π.renaming h.peer h'.peer) h' →
    Same π own other (parked h) (parked h')

/-- The same standing under other names. -/
inductive Alike (π : Pairing) : Standing → Standing → Prop where
  | absent : Alike π absent absent
  | live {h h' : Handler} (isStreaming isVoluntary : Bool) :
      h.Alike (π.renaming h.peer h'.peer) h' →
      Alike π (live h isStreaming isVoluntary) (live h' isStreaming isVoluntary)
  | parked {h h' : Handler} : h.Alike (π.renaming h.peer h'.peer) h' →
    Alike π (parked h) (parked h')

theorem peers_of_alike {h h' : Handler} (halike : h.Alike (π.renaming own other) h') :
    h.peer = own ∧ h'.peer = other := by
  obtain ⟨hpeer, -, -⟩ := halike
  exact ⟨hpeer, rfl⟩

theorem Alike.same {s s' : Standing} (h : s.Alike π s') (hown : ∀ p ∈ s.peer?, p = own)
    (hother : ∀ p ∈ s'.peer?, p = other) : Same π own other s s' := by
  cases h with
  | absent => exact .absent
  | live isStreaming isVoluntary halike =>
    rw [hown _ rfl, hother _ rfl] at halike
    exact .live isStreaming isVoluntary halike
  | parked halike => exact .parked halike

theorem Same.alike {s s' : Standing} (h : Same π own other s s') : s.Alike π s' := by
  cases h with
  | absent => exact .absent
  | live isStreaming isVoluntary halike =>
    obtain ⟨rfl, rfl⟩ := peers_of_alike halike
    exact .live isStreaming isVoluntary halike
  | parked halike => exact .parked halike

theorem onLive_alike {α : Type} {work work' : Work Handler α}
    (hwork : Work.Alike (π.renaming own other) (Handler.Alike (π.renaming own other)) Eq
      work work') :
    Work.Alike (π.renaming own other) (Same π own other) Eq (onLive work) (onLive work') := by
  unfold onLive
  refine Work.alike_get.bind ?_
  rintro _ _ (_ | ⟨isStreaming, isVoluntary, halike⟩ | _)
  · exact Work.alike_pure rfl
  · refine (Work.alike_lift (hwork _ _ halike)).bind ?_
    rintro ⟨_, h⟩ ⟨_, h'⟩ ⟨-, halike⟩
    exact Work.alike_set (.live isStreaming isVoluntary halike)
  · exact Work.alike_pure rfl

theorem stopOnRequest_alike {ρ : Renaming} :
    Work.Alike ρ (Handler.Alike ρ)
      (fun _ _ => True) Controller.stopOnRequest Controller.stopOnRequest := by
  unfold Controller.stopOnRequest
  refine stop_alike.bind ?_
  rintro _ _ rfl
  exact Work.alike_get.bind fun _ _ _ => Work.alike_pure trivial

theorem carryOut_alike {fresh fresh' : TableSettings → Handler}
    (hfresh : ∀ table, (fresh table).Alike (π.renaming own other) (fresh' table))
    (i : Instruction) :
    Work.Alike (π.renaming own other) (Same π own other) Eq (carryOut fresh i)
      (carryOut fresh' i) := by
  cases i with
  | add table =>
    unfold carryOut
    dsimp only
    cases table.validate with
    | error => exact Work.alike_pure rfl
    | ok =>
      have hstarts : Work.Alike (π.renaming own other) (Same π own other) Eq
          (do
            let (_, h) ← (Handler.start.run (fresh table) : Dialogue _)
            set (live h false false))
          (do
            let (_, h) ← (Handler.start.run (fresh' table) : Dialogue _)
            set (live h false false)) := by
        refine (Work.alike_lift (start_alike _ _ (hfresh table))).bind ?_
        rintro ⟨_, h⟩ ⟨_, h'⟩ ⟨-, halike⟩
        exact Work.alike_set (.live false false halike)
      refine Work.alike_get.bind ?_
      rintro _ _ (_ | _ | _)
      · exact hstarts
      · exact Work.alike_pure rfl
      · exact hstarts
  | remove =>
    unfold carryOut
    refine Work.alike_get.bind ?_
    rintro _ _ (_ | ⟨isStreaming, _, halike⟩ | _)
    · exact Work.alike_set .absent
    · refine (Work.alike_lift (stopOnRequest_alike _ _ halike)).bind ?_
      rintro ⟨_, h⟩ ⟨_, h'⟩ ⟨-, halike⟩
      exact Work.alike_set (.live isStreaming true halike)
    · exact Work.alike_set .absent

theorem carryOutAll_alike {fresh fresh' : TableSettings → Handler}
    (hfresh : ∀ table, (fresh table).Alike (π.renaming own other) (fresh' table))
    (is : List Instruction) :
    Work.Alike (π.renaming own other) (Same π own other) Eq (carryOutAll fresh is)
      (carryOutAll fresh' is) := by
  induction is with
  | nil => exact Work.alike_pure rfl
  | cons i rest ih =>
    refine (carryOut_alike hfresh i).bind ?_
    rintro _ _ rfl
    exact ih

theorem hearAll_alike (sockets : List SocketId) :
    Work.Alike (π.renaming own other) (Same π own other) Eq (hearAll sockets)
      (hearAll (sockets.map π.socket)) := by
  induction sockets with
  | nil => exact Work.alike_pure rfl
  | cons socket rest ih =>
    refine (onLive_alike (onDisconnect_alike socket)).bind ?_
    rintro _ _ rfl
    exact ih

theorem Same.promoted {s s' : Standing} (h : Same π own other s s') :
    Same π own other s.promoted s'.promoted := by
  cases h with
  | absent => exact .absent
  | live isStreaming isVoluntary halike =>
    dsimp only [Standing.promoted]
    rw [halike.phase]
    exact .live _ _ halike
  | parked halike => exact .parked halike

theorem reap_alike : Work.Alike (π.renaming own other) (Same π own other) Eq reap reap := by
  unfold reap
  refine Work.alike_get.bind ?_
  rintro _ _ (_ | ⟨isStreaming, isVoluntary, halike⟩ | _)
  · exact Work.alike_pure rfl
  · refine Work.alike_ite (by rw [halike.isDrained]) (fun _ => ?_) fun _ => Work.alike_pure rfl
    refine (Work.alike_lift (finish_alike isVoluntary _ _ halike)).bind ?_
    rintro ⟨last, h⟩ ⟨_, h'⟩ ⟨rfl, halike⟩
    dsimp only
    rw [halike.tableName]
    refine Work.alike_ite .rfl (fun _ => ?_) fun _ => ?_
    · refine (Work.alike_lift (Dialogue.alike_report _)).bind ?_
      rintro _ _ rfl
      obtain ⟨rfl, rfl⟩ := peers_of_alike halike
      exact Work.alike_set (.parked halike)
    · refine (Work.alike_lift (Dialogue.alike_report _)).bind ?_
      rintro _ _ rfl
      exact Work.alike_set .absent
  · exact Work.alike_pure rfl

/-- A tick is the same under other names. -/
theorem tick_alike {fresh fresh' : TableSettings → Handler}
    (hfresh : ∀ table, (fresh table).Alike (π.renaming own other) (fresh' table)) (now : Instant)
    (is : List Instruction) (sockets : List SocketId) :
    Work.Alike (π.renaming own other) (Same π own other) Eq (tick fresh now is sockets)
      (tick fresh' now is (sockets.map π.socket)) := by
  refine (carryOutAll_alike hfresh is).bind ?_
  rintro _ _ rfl
  refine (hearAll_alike sockets).bind ?_
  rintro _ _ rfl
  refine (onLive_alike (poll_alike now)).bind ?_
  rintro _ _ rfl
  refine (Work.alike_modify fun _ _ h => h.promoted).bind ?_
  rintro _ _ rfl
  exact reap_alike

end Standing

end ReplicaHandshake
