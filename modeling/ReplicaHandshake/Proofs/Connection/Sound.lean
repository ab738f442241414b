import ReplicaHandshake.Proofs.Connection.Transfer

/-!
# Sound connections

A connection of a handler that has been started is *sound*: its state says where its socket is and
whether its master has described the table.  Every step of a connection keeps it sound, and changes
neither its identity (`Connection.Same`) nor, unless a table is described, what its master said.
-/

namespace ReplicaHandshake.Connection

/-! ### Identity -/

/-- The identity of a connection: what no step changes. -/
def Same (c c' : Connection) : Prop :=
  c'.endpoint = c.endpoint ∧ c'.instanceId = c.instanceId ∧ c'.peer = c.peer ∧
    c'.tableName = c.tableName ∧ c'.socketId = c.socketId

theorem Same.refl (c : Connection) : Same c c :=
  ⟨rfl, rfl, rfl, rfl, rfl⟩

theorem Same.trans {c c' c'' : Connection} (h : Same c c') (h' : Same c' c'') : Same c c'' := by
  obtain ⟨he, hi, hp, ht, hs⟩ := h
  obtain ⟨he', hi', hp', ht', hs'⟩ := h'
  exact ⟨he'.trans he, hi'.trans hi, hp'.trans hp, ht'.trans ht, hs'.trans hs⟩

theorem Write.same {c c' : Connection} {hs : List Happening} (h : Write c hs c') : Same c c' := by
  cases h <;> exact .refl _

theorem Step.same {c c' : Connection} {hs : List Happening} (h : Step c hs c') : Same c c' := by
  cases h with
  | write h => exact h.same
  | wait | ask | read | block => exact .refl _

theorem Fault.same {c c' : Connection} {hs : List Happening} {f : Failure} (h : Fault c hs f c') :
    Same c c' := by
  cases h <;> exact .refl _

theorem same_of_writes {c c' : Connection} {hs : List Happening} (h : Way Write c hs c') :
    Same c c' := by
  induction h with
  | refl => exact .refl _
  | tail _ h ih => exact ih.trans h.same

theorem same_of_steps {c c' : Connection} {hs : List Happening} (h : Way Step c hs c') :
    Same c c' := by
  induction h with
  | refl => exact .refl _
  | tail _ h ih => exact ih.trans h.same

theorem Same.label_eq {c c' : Connection} (h : Same c c') : c'.label = c.label := by
  rw [label, label, h.1]

theorem Request.same {r : RequestReplicationStream} {c c' : Connection} {hs : List Happening}
    (h : Request r c hs c') : Same c c' := by
  cases h with
  | ask _ _ hwrites => exact (same_of_writes hwrites :)

theorem RequestFault.same {r : RequestReplicationStream} {c c' : Connection} {hs : List Happening}
    {f : Failure} (h : RequestFault r c hs f c') : Same c c' := by
  cases h with
  | queue => exact .refl _
  | write _ _ hends =>
    obtain ⟨c₁, hs₁, hs₂, rfl, hwrites, hfault, -⟩ := hends
    exact (same_of_writes hwrites).trans hfault.same

theorem Hear.same {c c' : Connection} {hs : List Happening} {event : ConnectionEvent}
    (h : Hear c hs event c') : Same c c' := by
  cases h with
  | accept _ _ haccept => cases haccept <;> exact .refl _

/-! ### Where the socket is -/

/-- The connection has its socket. -/
def Holds (c : Connection) : Prop :=
  c.socketId.isSome ∧ c.socket = c.socketId ∧ c.pendingHandoff = none

/-- The socket of the connection was offered, and refused so far. -/
def Refused (c : Connection) : Prop :=
  ∃ handoff, c.socketId = some handoff.socket ∧ c.socket = none ∧ c.pendingHandoff = some handoff

/-- The connection has given its socket away. -/
def Given (c : Connection) : Prop :=
  c.socketId.isSome ∧ c.socket = none ∧ c.pendingHandoff = none

/-- The master has described the table, and has it. -/
def Described (c : Connection) : Prop :=
  ∃ info, c.tableInfo = some info ∧ info.tableName = c.tableName ∧ info.masterTableId ≠ 0

/-- The state says where the socket is and whether the table has been described. -/
def Sound (c : Connection) : Prop :=
  match c.state with
  | .connecting | .awaitingTableInfo => c.Holds ∧ c.tableInfo = none
  | .awaitingStreamStart => c.Holds ∧ c.Described
  | .ready | .streamStarted => (c.Holds ∨ c.Refused) ∧ c.Described
  | .transferred => c.Given ∧ c.Described
  | .disconnected | .closed => False

theorem Sound.holds_of_socket {c : Connection} {socket : SocketId} (h : c.Sound)
    (hsocket : c.socket = some socket) : c.Holds := by
  unfold Sound at h
  split at h
  · exact h.1
  · exact h.1
  · exact h.1
  · rcases h.1 with h | ⟨_, _, hnone, _⟩
    · exact h
    · simp [hnone] at hsocket
  · rcases h.1 with h | ⟨_, _, hnone, _⟩
    · exact h
    · simp [hnone] at hsocket
  · simp [h.1.2.1] at hsocket
  · exact h.elim
  · exact h.elim

theorem Write.sound {c c' : Connection} {hs : List Happening} (h : Write c hs c')
    (hsound : c.Sound) : c'.Sound := by
  cases h <;> exact hsound

theorem Step.sound {c c' : Connection} {hs : List Happening} (h : Step c hs c')
    (hsound : c.Sound) : c'.Sound := by
  cases h with
  | write h => exact h.sound hsound
  | wait => exact hsound
  | ask _ hstate =>
    simp only [Sound, hstate] at hsound ⊢
    exact hsound
  | read => exact hsound
  | block => exact hsound

theorem Hear.sound {c c' : Connection} {hs : List Happening} {event : ConnectionEvent}
    (h : Hear c hs event c') (hsound : c.Sound) : c'.Sound := by
  cases h with
  | accept hopen hframe haccept =>
    cases haccept with
    | tableInfo htable hstate hname hid =>
      simp only at hstate hname
      simp only [Sound, hstate] at hsound ⊢
      exact ⟨.inl hsound.1, _, rfl, hname, hid⟩
    | streamStart hstate htable hsame =>
      simp only at hstate
      simp only [Sound, hstate] at hsound ⊢
      exact ⟨.inl hsound.1, hsound.2⟩

/-- By a step a connection comes to be connected at most, and what its master said stays. -/
theorem Step.keeps {c c' : Connection} {hs : List Happening} (h : Step c hs c') :
    (c'.state = c.state ∨ c.state = .connecting ∧ c'.state = .awaitingTableInfo) ∧
      c'.tableInfo = c.tableInfo ∧ (c.Holds → c'.Holds) := by
  cases h with
  | write h => cases h <;> exact ⟨.inl rfl, rfl, id⟩
  | ask _ hstate => exact ⟨.inr ⟨hstate, rfl⟩, rfl, id⟩
  | wait | read | block => exact ⟨.inl rfl, rfl, id⟩

theorem Hear.tableInfo_spec {c c' : Connection} {hs : List Happening} {info : TableInfo}
    (h : Hear c hs (.tableInfo info) c') :
    c.state = .awaitingTableInfo ∧ c.tableInfo = none ∧ c'.state = .ready ∧
      c'.tableInfo = some info ∧ (c.Holds → c'.Holds) ∧ info.tableName = c.tableName ∧
      info.masterTableId ≠ 0 := by
  cases h with
  | accept hopen hframe haccept =>
    cases haccept with
    | tableInfo htable hstate hname hid => exact ⟨hstate, htable, rfl, rfl, id, hname, hid⟩

theorem Hear.streamStart_spec {c c' : Connection} {hs : List Happening}
    {start : StartOfReplicationStream} (h : Hear c hs (.streamStart start) c') :
    c.state = .awaitingStreamStart ∧ c'.state = .streamStarted ∧ c'.tableInfo = c.tableInfo ∧
      (c.Holds → c'.Holds) := by
  cases h with
  | accept hopen hframe haccept =>
    cases haccept with
    | streamStart hstate htable hsame => exact ⟨hstate, rfl, rfl, id⟩

theorem sound_of_writes {c c' : Connection} {hs : List Happening} (h : Way Write c hs c')
    (hsound : c.Sound) : c'.Sound := by
  induction h with
  | refl => exact hsound
  | tail _ h ih => exact h.sound ih

theorem Fault.sound {c c' : Connection} {hs : List Happening} {f : Failure} (h : Fault c hs f c')
    (hsound : c.Sound) : c'.Sound := by
  cases h <;> exact hsound

theorem sound_asked {c : Connection} {outbound : OutboundBuffer} (hstate : c.state = .ready)
    (hholds : c.Holds) (hsound : c.Sound) :
    Sound { c with outbound, state := .awaitingStreamStart } := by
  simp only [Sound, hstate] at hsound ⊢
  exact ⟨hholds, hsound.2⟩

theorem keeps_of_writes {c c' : Connection} {hs : List Happening} (h : Way Write c hs c') :
    c'.state = c.state ∧ c'.tableInfo = c.tableInfo ∧ (c.Holds → c'.Holds) := by
  induction h with
  | refl => exact ⟨rfl, rfl, id⟩
  | tail _ h ih => cases h <;> exact ih

theorem Request.keeps {r : RequestReplicationStream} {c c' : Connection} {hs : List Happening}
    (h : Request r c hs c') :
    c'.state = .awaitingStreamStart ∧ c'.tableInfo = c.tableInfo ∧ (c.Holds → c'.Holds) := by
  cases h with
  | ask _ _ hwrites => exact (keeps_of_writes hwrites :)

theorem Request.sound {r : RequestReplicationStream} {c c' : Connection} {hs : List Happening}
    (h : Request r c hs c') (hholds : c.Holds) (hsound : c.Sound) : c'.Sound := by
  cases h with
  | ask hstate _ hwrites => exact sound_of_writes hwrites (sound_asked hstate hholds hsound)

theorem RequestFault.sound {r : RequestReplicationStream} {c c' : Connection}
    {hs : List Happening} {f : Failure} (h : RequestFault r c hs f c') (hholds : c.Holds)
    (hsound : c.Sound) : c'.Sound := by
  cases h with
  | queue => exact hsound
  | write hstate _ hends =>
    obtain ⟨c₁, hs₁, hs₂, rfl, hwrites, hfault, -⟩ := hends
    exact hfault.sound (sound_of_writes hwrites (sound_asked hstate hholds hsound))

/-! ### Offers -/

/-- The bytes that were read and belong to no frame that was taken. -/
def held (c : Connection) : Bytes :=
  match c.pendingHandoff with
  | some handoff => handoff.buffered
  | none => c.inbound.buffered

/-- Whatever way the socket is kept, the handoff is the socket with all bytes that are held. -/
theorem takeHandoff_eq {c : Connection} (h : c.Holds ∨ c.Refused) :
    ∃ socket rest, c.socketId = some socket ∧ c.takeHandoff = (some ⟨socket, c.held⟩, rest) ∧
      rest.Given ∧ rest.state = c.state ∧ rest.tableInfo = c.tableInfo ∧ Same c rest := by
  rcases h with ⟨hid, hsocket, hnone⟩ | ⟨handoff, hid, hsocket, hsome⟩
  · obtain ⟨socket, hid⟩ := Option.isSome_iff_exists.1 hid
    rw [hid] at hsocket
    refine ⟨socket, { c with socket := none, inbound := c.inbound.takeBuffered.2 }, hid, ?_, ?_⟩
    · simp [takeHandoff, held, hnone, hsocket, InboundBuffer.takeBuffered]
    · exact ⟨⟨by simp [hid], rfl, hnone⟩, rfl, rfl, .refl _⟩
  · refine ⟨handoff.socket, { c with pendingHandoff := none }, hid, ?_, ?_⟩
    · simp [takeHandoff, held, hsome]
    · exact ⟨⟨by simp [hid], hsocket, rfl⟩, rfl, rfl, .refl _⟩

theorem Offer.spec {c c' : Connection} {hs : List Happening} {taken : Bool}
    (h : Offer c hs taken c') (hkept : c.Holds ∨ c.Refused) :
    ∃ socket, c.socketId = some socket ∧
      hs = [.answered (.offerSocket c.peer ⟨socket, c.held⟩) taken] ∧
      c.outbound.pending = [] ∧ c'.tableInfo = c.tableInfo ∧ Same c c' ∧
      match taken with
      | true => c'.state = .transferred ∧ c'.Given
      | false => c'.state = c.state ∧ c'.Refused ∧ c'.held = c.held := by
  obtain ⟨socket, rest, hid, htake, hgiven, hstate, htable, hsame⟩ := takeHandoff_eq hkept
  have hrest : rest.socketId = some socket := hsame.2.2.2.2.trans hid
  cases h with
  | taken hpending htake' =>
    rw [htake] at htake'
    cases htake'
    exact ⟨socket, hid, rfl, hpending, htable, hsame, rfl, hgiven⟩
  | refused hpending htake' =>
    rw [htake] at htake'
    cases htake'
    exact ⟨socket, hid, rfl, hpending, htable, hsame, hstate, ⟨_, hrest, hgiven.2.1, rfl⟩, rfl⟩

theorem Sound.kept {c : Connection} (hsound : c.Sound)
    (hstate : c.state = .ready ∨ c.state = .streamStarted) :
    (c.Holds ∨ c.Refused) ∧ c.Described := by
  rcases hstate with hstate | hstate <;> simpa only [Sound, hstate] using hsound

theorem Offer.sound {c c' : Connection} {hs : List Happening} {taken : Bool}
    (h : Offer c hs taken c') (hstate : c.state = .ready ∨ c.state = .streamStarted)
    (hsound : c.Sound) :
    c'.Sound ∧ (c'.state = c.state ∨ c'.state = .transferred) ∧ c'.tableInfo = c.tableInfo ∧
      Same c c' := by
  obtain ⟨hkept, info, hinfo, hname, hid⟩ := hsound.kept hstate
  obtain ⟨socket, -, -, -, htable, hsame, houtcome⟩ := h.spec hkept
  have hdescribed : c'.Described := ⟨info, htable.trans hinfo, hname.trans hsame.2.2.2.1.symm, hid⟩
  cases taken with
  | true =>
    refine ⟨?_, .inr houtcome.1, htable, hsame⟩
    simp only [Sound, houtcome.1]
    exact ⟨houtcome.2, hdescribed⟩
  | false =>
    refine ⟨?_, .inl houtcome.1, htable, hsame⟩
    rw [← houtcome.1] at hstate
    rcases hstate with hstate | hstate <;> simp only [Sound, hstate] <;>
      exact ⟨.inr houtcome.2.1, hdescribed⟩

end ReplicaHandshake.Connection
