import ReplicaHandshake.Proofs.Connection.Custody
import ReplicaHandshake.Proofs.Reading

/-!
# What becomes of the bytes that are read

All bytes that a connection has read are those of the frames that it has accepted, in this order,
and then the bytes that it holds (`Accounts`).  Every act keeps the account straight
(`Act.accounts`), and what is offered to the multiplexer is the socket with the bytes that are held.
-/

namespace ReplicaHandshake.Connection

variable {c c' : Connection} {hs : List Happening}

/-- Of the bytes that were read, those of accepted frames come first, and then those
that are held. -/
structure Moved (c : Connection) (hs : List Happening) (c' : Connection) : Prop where
  bytes : c.held ++ deliveredBytes hs = (acceptedFrames hs).flatMap Frame.bytes ++ c'.held
  fits : ∀ f ∈ acceptedFrames hs, f.encodedLength ≤ greatestWord32

theorem moved_of_still
    (h : deliveredBytes hs = [] ∧ acceptedFrames hs = [] ∧ c'.held = c.held) : Moved c hs c' := by
  obtain ⟨hbytes, hframes, hheld⟩ := h
  constructor
  · simp [hbytes, hframes, hheld]
  · simp [hframes]

theorem Write.still (h : Write c hs c') : deliveredBytes hs = [] ∧ acceptedFrames hs = [] ∧
    c'.held = c.held := by
  cases h <;> exact ⟨rfl, rfl, rfl⟩

theorem writes_still (h : Way Write c hs c') : deliveredBytes hs = [] ∧ acceptedFrames hs = [] ∧
    c'.held = c.held := by
  induction h with
  | refl => exact ⟨rfl, rfl, rfl⟩
  | tail _ h ih =>
    obtain ⟨hbytes, hframes, hheld⟩ := h.still
    simp [ih, hbytes, hframes, hheld]

theorem held_of_holds (h : c.Holds) : c.held = c.inbound.buffered := by
  rw [held, h.2.2]

theorem Step.moved (h : Step c hs c') (hsound : c.Sound) : Moved c hs c' := by
  cases h with
  | write h => exact moved_of_still h.still
  | read hsocket =>
    have hholds := hsound.holds_of_socket hsocket
    constructor
    · simp [held, hholds.2.2, deliveredBytes, acceptedFrames, Happening.delivered,
        Happening.accepted?]
    · simp [acceptedFrames, Happening.accepted?]
  | wait | ask | block => exact moved_of_still ⟨rfl, rfl, rfl⟩

theorem Hear.moved {event : ConnectionEvent} (h : Hear c hs event c') (hholds : c.Holds) :
    Moved c hs c' := by
  obtain ⟨f, inbound, rfl, hframe, hkind, hholds', hinbound⟩ :
      ∃ f inbound, hs = [.reported (.frameReceived f.kind.name), .noted (.accepted c.socketId f)] ∧
        c.inbound.nextFrame = (.ok (some f), inbound) ∧ f.kind ≠ .requestReplicationStream ∧
        c'.Holds ∧ c'.inbound = inbound := by
    cases h with
    | accept _ hframe haccept =>
      cases haccept <;> exact ⟨_, _, rfl, hframe, by simp [Frame.kind], hholds, rfl⟩
  obtain ⟨hbytes, hfits⟩ := InboundBuffer.nextFrame_some hframe hkind
  constructor
  · rw [held_of_holds hholds, held_of_holds hholds', hinbound, hbytes]
    simp [deliveredBytes, acceptedFrames, Happening.delivered, Happening.accepted?]
  · simpa [acceptedFrames, Happening.accepted?] using hfits

theorem Request.still {r : RequestReplicationStream} (h : Request r c hs c') :
    deliveredBytes hs = [] ∧ acceptedFrames hs = [] ∧ c'.held = c.held := by
  cases h with
  | ask _ _ hwrites =>
    obtain ⟨hbytes, hframes, hheld⟩ := writes_still hwrites
    exact ⟨by simpa [deliveredBytes, Happening.delivered] using hbytes,
      by simpa [acceptedFrames, Happening.accepted?] using hframes, hheld⟩

/-! ### Accounts -/

/-- What a connection has accepted to come to its state. -/
def HasHeard (c : Connection) (frames : List Frame) : Prop :=
  match c.state with
  | .connecting | .awaitingTableInfo => frames = []
  | .ready | .awaitingStreamStart => ∃ info, frames = [.tableInfo info]
  | .streamStarted => ∃ info start, frames = [.tableInfo info, .startOfReplicationStream start]
  | .disconnected | .transferred | .closed => True

theorem HasHeard.congr {frames : List Frame} (h : c.HasHeard frames) (hstate : c'.state = c.state) :
    c'.HasHeard frames := by
  unfold HasHeard
  rw [hstate]
  exact h

theorem Step.hasHeard {frames : List Frame} (h : Step c hs c') (hheard : c.HasHeard frames) :
    c'.HasHeard (frames ++ acceptedFrames hs) := by
  rw [(wordless_of_traffic h.traffic.2).accepted, List.append_nil]
  obtain hstate | ⟨hstate, hstate'⟩ := h.keeps.1
  · exact hheard.congr hstate
  · simpa only [HasHeard, hstate, hstate'] using hheard

theorem Hear.hasHeard {event : ConnectionEvent} {frames : List Frame} (h : Hear c hs event c')
    (hheard : c.HasHeard frames) : c'.HasHeard (frames ++ acceptedFrames hs) := by
  cases h with
  | accept _ _ haccept =>
    cases haccept with
    | tableInfo _ hstate =>
      simp only at hstate
      simp only [HasHeard, hstate] at hheard
      subst hheard
      exact ⟨_, rfl⟩
    | streamStart hstate =>
      simp only at hstate
      simp only [HasHeard, hstate] at hheard
      obtain ⟨info, rfl⟩ := hheard
      exact ⟨info, _, rfl⟩

theorem Request.hasHeard {r : RequestReplicationStream} {frames : List Frame}
    (h : Request r c hs c') (hheard : c.HasHeard frames) :
    c'.HasHeard (frames ++ acceptedFrames hs) := by
  rw [h.still.2.1, List.append_nil]
  have hstate : c.state = .ready := by
    cases h with
    | ask hstate => exact hstate
  simpa only [HasHeard, hstate, h.keeps.1] using hheard

/-- The history of a connection and what it holds account for all bytes that were read. -/
structure Accounts (c : Connection) (hs : List Happening) : Prop where
  bytes : deliveredBytes hs = (acceptedFrames hs).flatMap Frame.bytes ++ c.held
  fits : ∀ f ∈ acceptedFrames hs, f.encodedLength ≤ greatestWord32
  heard : c.HasHeard (acceptedFrames hs)

theorem Accounts.congr {past past' : List Happening} (h : c.Accounts past)
    (hbytes : deliveredBytes past' = deliveredBytes past)
    (hframes : acceptedFrames past' = acceptedFrames past) : c.Accounts past' := by
  constructor
  · rw [hbytes, hframes, h.bytes]
  · rw [hframes]
    exact h.fits
  · rw [hframes]
    exact h.heard

theorem Accounts.moved {past : List Happening} (h : c.Accounts past) (hmoved : Moved c hs c')
    (hheard : c'.HasHeard (acceptedFrames past ++ acceptedFrames hs)) :
    c'.Accounts (past ++ hs) where
  bytes := by
    rw [deliveredBytes_append, acceptedFrames_append, h.bytes, List.append_assoc, hmoved.bytes,
      List.flatMap_append, List.append_assoc]
  fits := by
    rw [acceptedFrames_append]
    exact fun f hf => (List.mem_append.1 hf).elim (h.fits f) (hmoved.fits f)
  heard := by rwa [acceptedFrames_append]

theorem Act.free (hact : Act c hs c') (hfree : c'.isTransferred = false) :
    c.isTransferred = false := by
  cases hact with
  | step hstep =>
    obtain hstate | ⟨hstate, -⟩ := hstep.keeps.1
    · rwa [isTransferred, ← hstate]
    · simp [isTransferred, hstate]
  | hear _ hhear =>
    cases hhear with
    | accept _ _ haccept =>
      cases haccept with
      | tableInfo _ hstate | streamStart hstate =>
        simp only at hstate
        simp [isTransferred, hstate]
  | request _ hrequest =>
    cases hrequest with
    | ask hstate => simp [isTransferred, hstate]
  | @offer _ _ taken hkept hoffer =>
    obtain ⟨_, -, -, -, -, -, hafter⟩ := hoffer.spec hkept
    cases taken with
    | true => simp [isTransferred, hafter.1] at hfree
    | false => rwa [isTransferred, ← hafter.1]

/-- As long as the multiplexer has not taken the socket, every act keeps the account. -/
theorem Act.accounts {past : List Happening} (hact : Act c hs c') (hsound : c.Sound)
    (hfree : c'.isTransferred = false) (h : c.Accounts past) : c'.Accounts (past ++ hs) := by
  cases hact with
  | step hstep => exact h.moved (hstep.moved hsound) (hstep.hasHeard h.heard)
  | hear hholds hhear => exact h.moved (hhear.moved hholds) (hhear.hasHeard h.heard)
  | request _ hrequest => exact h.moved (moved_of_still hrequest.still) (hrequest.hasHeard h.heard)
  | @offer _ _ taken hkept hoffer =>
    obtain ⟨socket, -, rfl, -, -, -, hafter⟩ := hoffer.spec hkept
    cases taken with
    | true =>
      rw [isTransferred, hafter.1] at hfree
      cases hfree
    | false =>
      refine h.moved (moved_of_still ⟨rfl, rfl, hafter.2.2⟩) ?_
      · simpa [acceptedFrames, Happening.accepted?] using h.heard.congr hafter.1

/-! ### One socket among others -/

/-- Where everything that moves bytes or frames concerns one socket, the rest may be left out. -/
theorem about_eq {socket : SocketId}
    (h : ∀ x ∈ hs, x.socket? = some socket ∨ x.delivered = [] ∧ x.accepted? = none) :
    deliveredBytes (about socket hs) = deliveredBytes hs ∧
      acceptedFrames (about socket hs) = acceptedFrames hs := by
  induction hs with
  | nil => exact ⟨rfl, rfl⟩
  | cons x hs ih =>
    obtain ⟨hx, hrest⟩ := List.forall_mem_cons.1 h
    obtain ⟨ihbytes, ihframes⟩ := ih hrest
    simp only [deliveredBytes, acceptedFrames, about] at ihbytes ihframes ⊢
    by_cases hsocket : x.socket? = some socket
    · simp [hsocket, List.filterMap_cons, ihbytes, ihframes]
    · obtain ⟨hbytes, hframe⟩ := hx.resolve_left hsocket
      simp [hsocket, hbytes, hframe, ihbytes, ihframes]

theorem Traffic.about {x : Happening} (h : Traffic c x) (hsound : c.Sound) :
    x.socket? = c.socketId ∨ x.delivered = [] ∧ x.accepted? = none := by
  cases h with
  | read hsocket => exact .inl (hsocket.symm.trans (hsound.holds_of_socket hsocket).2.1)
  | _ => exact .inr ⟨rfl, rfl⟩

/-- All bytes and frames that an act moves it moves by the socket of the connection. -/
theorem Act.about_eq (hact : Act c hs c') (hsound : c.Sound) {socket : SocketId}
    (hid : c.socketId = some socket) :
    deliveredBytes (about socket hs) = deliveredBytes hs ∧
      acceptedFrames (about socket hs) = acceptedFrames hs := by
  apply Connection.about_eq
  intro x hx
  rw [← hid]
  obtain ⟨-, htalk⟩ | ⟨_, _, -, rfl, -⟩ := hact.view
  · cases htalk x hx with
    | traffic h => exact h.about hsound
    | queued => exact .inr ⟨rfl, rfl⟩
    | accepted => exact .inl rfl
  · rw [List.mem_singleton] at hx
    subst hx
    exact .inr ⟨rfl, rfl⟩

end ReplicaHandshake.Connection
