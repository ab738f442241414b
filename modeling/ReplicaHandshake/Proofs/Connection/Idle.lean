import ReplicaHandshake.Proofs.Connection.Outflow

/-!
# When nothing comes of a step

A poll of a connection says whether anything happened.  Where it says that nothing did, the
connection is as it was before, and no byte was read or written (`poll_idle`).

An attempt to hand the connection over tells less: it says only whether the socket was taken.  Where
it was not, bytes may have been written all the same, and the socket may have been offered and
refused (`tryTransfer_halts`).
-/

namespace ReplicaHandshake

/-- Nothing comes of it: no byte is read, no disconnection is fetched, and the multiplexer takes
nothing and lets go of nothing. -/
structure Happening.IsInert (x : Happening) : Prop where
  delivered : x.delivered = []
  fetched : x.fetched = []
  writer : x.takenWriter? = none
  socket : x.taken? = none
  freed : x.freed? = none

theorem Happening.isInert_said (remark : Remark) : (Happening.said remark).IsInert := by
  cases remark <;> exact ⟨rfl, rfl, rfl, rfl, rfl⟩

/-- Nothing comes of any of these happenings, and no byte is written. -/
def Idle (hs : List Happening) : Prop :=
  (∀ x ∈ hs, x.IsInert) ∧ writtenBytes hs = []

theorem idle_nil : Idle [] :=
  ⟨by simp, rfl⟩

theorem Idle.append {hs hs' : List Happening} (h : Idle hs) (h' : Idle hs') : Idle (hs ++ hs') := by
  refine ⟨List.forall_mem_append.2 ⟨h.1, h'.1⟩, ?_⟩
  rw [writtenBytes_append, h.2, h'.2]
  rfl

theorem idle_single {x : Happening} (hinert : x.IsInert) (hwritten : x.written = []) : Idle [x] :=
  ⟨by simpa using hinert, by simpa [writtenBytes] using hwritten⟩

namespace Connection

variable {c c' : Connection} {hs : List Happening}

/-! ### Writing -/

theorem Write.isInert (h : Write c hs c') : ∀ x ∈ hs, x.IsInert := by
  cases h <;> simpa using ⟨rfl, rfl, rfl, rfl, rfl⟩

theorem isInert_of_writes (h : Way Write c hs c') : ∀ x ∈ hs, x.IsInert := by
  induction h with
  | refl => simp
  | tail _ hwrite ih => exact List.forall_mem_append.2 ⟨ih, hwrite.isInert⟩

/-- Writing changes nothing but what is still to be written. -/
theorem eq_of_writes (h : Way Write c hs c') : c' = c.withPending c'.outbound.pending := by
  induction h with
  | refl => rfl
  | tail _ hwrite ih =>
    cases hwrite with
    | some => rw [ih]; rfl
    | none => exact ih

theorem pending_of_writes (h : Way Write c hs c') :
    c.outbound.pending = writtenBytes hs ++ c'.outbound.pending := by
  have hbytes := (flows_of_writes h).bytes
  rwa [unqueued_of_writes h, List.flatMap_nil, List.append_nil] at hbytes

theorem idle_of_writes (h : Way Write c hs c')
    (hlength : c.outbound.pending.length ≤ c'.outbound.pending.length) :
    Idle hs ∧ c' = c := by
  have hpending := pending_of_writes h
  have hnone : writtenBytes hs = [] := by
    rw [← List.length_eq_zero_iff]
    have hsum := congrArg List.length hpending
    rw [List.length_append] at hsum
    omega
  rw [hnone, List.nil_append] at hpending
  refine ⟨⟨isInert_of_writes h, hnone⟩, ?_⟩
  rw [eq_of_writes h, ← hpending]
  rfl

theorem flush_tells : Task.Always flush c
    (fun _ wrote c' => wrote = decide (c'.outbound.pending.length < c.outbound.pending.length))
    (fun _ _ _ => True) := by
  simp only [flush, Task.always_bind, Task.always_get]
  split
  · simp
  split
  · simp
  simp only [Task.always_bind, Task.always_lift]
  rintro entries ⟨result, outbound⟩ -
  cases result with
  | error e => simp
  | ok => simp

theorem flush_idle (hopen : c.hasRequestedTableInfo) :
    Task.Always flush c (fun hs wrote c' => wrote = false → Idle hs ∧ c' = c)
      (fun _ _ _ => True) := by
  refine ((flush_always hopen).and flush_tells).mono ?_ fun _ _ _ _ => trivial
  rintro hs wrote c' ⟨hwrites, rfl⟩ hnone
  rw [decide_eq_false_iff_not, Nat.not_lt] at hnone
  exact idle_of_writes hwrites hnone

/-! ### Polling -/

theorem takeFrame_idle {busy : Bool} : Task.Always (takeFrame busy) c
    (fun hs polled c' => polled.busy = false → busy = false ∧ hs = [] ∧ c' = c ∧
      polled.event = none)
    (fun _ _ _ => True) := by
  simp only [takeFrame, Task.always_bind, Task.always_get, Task.always_set]
  rcases hn : c.inbound.nextFrame with ⟨frame, inbound⟩
  rcases frame with e | _ | f
  · exact Task.always_throw.2 trivial
  · rw [InboundBuffer.nextFrame_none hn]
    simp
  · simp only [Task.always_bind, Task.always_lift, report, Dialogue.always_metric]
    refine Task.always_of_forall (fun _ event _ => ?_) fun _ _ _ => trivial
    simp

theorem pollIo_of_none (hsocket : c.socket = none) : Task.Always pollIo c
    (fun hs polled c' => hs = [] ∧ polled = {} ∧ c' = c) (fun _ _ _ => False) := by
  by_cases hpending : c.outbound.pending = [] <;> simp [pollIo, flush, hpending, hsocket]

theorem pollIo_idle (hopen : c.hasRequestedTableInfo) : Task.Always pollIo c
    (fun hs polled c' => polled.busy = false → Idle hs ∧ c' = c ∧ polled.event = none)
    (fun _ _ _ => True) := by
  cases hsocket : c.socket with
  | none =>
    refine (pollIo_of_none hsocket).mono ?_ fun _ _ _ _ => trivial
    rintro hs polled c' ⟨rfl, rfl, rfl⟩ _
    exact ⟨idle_nil, rfl, rfl⟩
  | some socket =>
    simp only [pollIo, Task.always_bind, Task.always_get]
    refine ((flush_idle hopen).and (flush_always hopen)).mono ?_ fun _ _ _ _ => trivial
    rintro hs wrote c₁ ⟨hidle, hwrites⟩
    have htake : ∀ (hs' : List Happening) (c₂ : Connection) (busy : Bool),
        (busy = false → Idle (hs ++ hs') ∧ c₂ = c) → Task.Always (takeFrame busy) c₂
          (fun hs'' polled c' => polled.busy = false → Idle (hs ++ (hs' ++ hs'')) ∧ c' = c ∧
            polled.event = none)
          (fun _ _ _ => True) := by
      intro hs' c₂ busy hquiet
      refine takeFrame_idle.mono ?_ fun _ _ _ _ => trivial
      rintro hs'' polled c' htaken hpolled
      obtain ⟨hbusy, rfl, rfl, hevent⟩ := htaken hpolled
      obtain ⟨hnothing, rfl⟩ := hquiet hbusy
      rw [List.append_nil]
      exact ⟨hnothing, rfl, hevent⟩
    split
    next hnone =>
      rw [eq_of_writes hwrites] at hnone
      cases hsocket.symm.trans hnone
    next _ socket₁ _ =>
      simp only [Task.always_bind, Task.always_lift, Dialogue.fill, InboundBuffer.fill,
        List.nil_append]
      split
      · simpa using htake [] c₁ wrote (by simpa using hidle)
      simp only [Dialogue.read, Dialogue.call, Dialogue.ask_bind, Dialogue.done_bind,
        Dialogue.pure_eq, Dialogue.always_ask, Dialogue.always_done]
      intro answer
      cases answer with
      | error e =>
        by_cases he : e.isTransient
        · have hread : Idle [.answered (.read socket₁ c₁.inbound.room) (.error e)] :=
            idle_single ⟨rfl, rfl, rfl, rfl, rfl⟩ rfl
          have hblocked := fun hwrote => (hidle hwrote).imp_left (Idle.append · hread)
          simpa [InboundBuffer.receive, he, Except.map] using htake _ c₁ wrote hblocked
        · simp [InboundBuffer.receive, he, Except.map]
      | ok bs =>
        by_cases hbs : bs.1 = []
        · simp [InboundBuffer.receive, Except.map, Reading.ofBytes, hbs, report]
        · simpa [InboundBuffer.receive, Except.map, Reading.ofBytes, hbs] using
            htake [.answered (.read socket₁ c₁.inbound.room) (.ok bs)] _ true (by simp)

theorem pollConnecting_idle : Task.Always pollConnecting c
    (fun hs polled c' => polled.busy = false → Idle hs ∧ c' = c ∧ polled.event = none)
    (fun _ _ _ => True) := by
  simp only [pollConnecting, Task.always_bind, Task.always_get, List.nil_append]
  split
  · exact Task.always_pure.2 fun _ => ⟨idle_nil, rfl, rfl⟩
  next socket hsocket =>
    simp only [Dialogue.pollConnect, Dialogue.call, Task.always_bind, Task.always_lift,
      Dialogue.always_ask, Dialogue.always_done]
    intro answer
    rcases isConnected answer with e | _ | _
    · simp [report]
    · refine Task.always_pure.2 fun _ => ⟨?_, rfl, rfl⟩
      exact idle_single ⟨rfl, rfl, rfl, rfl, rfl⟩ rfl
    · simp only [Dialogue.setNoDelay, Dialogue.call, report, bind_pure_comp, Task.always_bind,
      Task.always_map, Task.always_modify, Task.always_lift, Dialogue.always_metric,
        Dialogue.always_ask, Dialogue.always_done]
      intro _
      refine Task.always_of_forall (fun _ _ _ => ?_) fun _ _ _ => trivial
      exact Task.always_of_forall (fun _ _ _ => Bool.noConfusion) fun _ _ _ => trivial

/-- Where a poll says that nothing happened, the connection is as it was, and no byte was
read or written. -/
theorem poll_idle (c : Connection) : Task.Always poll c
    (fun hs polled c' => polled.busy = false → Idle hs ∧ c' = c ∧ polled.event = none)
    (fun _ _ _ => True) := by
  simp only [poll, Task.always_bind, Task.always_get, List.nil_append]
  cases hstate : c.state with
  | connecting => exact pollConnecting_idle
  | awaitingTableInfo | ready | awaitingStreamStart =>
    exact pollIo_idle (by simp [hasRequestedTableInfo, hstate])
  | disconnected | streamStarted | transferred | closed =>
    exact Task.always_pure.2 fun _ => ⟨idle_nil, rfl, rfl⟩

/-! ### Handing over -/

/-- What the connection had to write is what it has written now and what it still has to write.  Its
socket may have been offered and refused; all else is as it was. -/
structure Halts (c : Connection) (hs : List Happening) (c' : Connection) : Prop where
  isInert : ∀ x ∈ hs, x.IsInert
  pending : c.outbound.pending = writtenBytes hs ++ c'.outbound.pending
  kept : c'.Holds ∨ c'.Refused
  held : c'.held = c.held
  state : c'.state = c.state
  tableInfo : c'.tableInfo = c.tableInfo
  same : Same c c'

theorem halts_of_writes (h : Way Write c hs c') (hkept : c.Holds ∨ c.Refused) : Halts c hs c' where
  isInert := isInert_of_writes h
  pending := pending_of_writes h
  kept := by
    rw [eq_of_writes h]
    exact hkept
  held := (writes_still h).2.2
  state := (keeps_of_writes h).1
  tableInfo := (keeps_of_writes h).2.1
  same := same_of_writes h

theorem Halts.tail {c₁ : Connection} {hs' : List Happening} (h : Halts c hs c₁) (hidle : Idle hs')
    (hpending : c'.outbound.pending = c₁.outbound.pending) (hkept : c'.Holds ∨ c'.Refused)
    (hheld : c'.held = c₁.held) (hstate : c'.state = c₁.state)
    (htable : c'.tableInfo = c₁.tableInfo) (hsame : Same c₁ c') :
    Halts c (hs ++ hs') c' where
  isInert := List.forall_mem_append.2 ⟨h.isInert, hidle.1⟩
  pending := by rw [writtenBytes_append, hidle.2, List.append_nil, hpending, h.pending]
  kept := hkept
  held := hheld.trans h.held
  state := hstate.trans h.state
  tableInfo := htable.trans h.tableInfo
  same := h.same.trans hsame

theorem Halts.said (h : Halts c hs c') (remark : Remark) : Halts c (hs ++ [.said remark]) c' :=
  h.tail (idle_single (Happening.isInert_said remark) rfl) rfl h.kept rfl rfl rfl (.refl c')

/-- An attempt to hand the connection over by which its socket is not taken. -/
theorem tryTransfer_halts (hstate : c.state = .ready ∨ c.state = .streamStarted)
    (hkept : c.Holds ∨ c.Refused) :
    Task.Always tryTransfer c (fun hs taken c' => taken = false → Halts c hs c')
      (fun _ _ _ => True) := by
  refine (tryTransfer_always hstate).mono ?_ fun _ _ _ _ => trivial
  rintro hs taken c' htransfer rfl
  cases htransfer with
  | offer hwrites hoffer =>
    have hhalts := halts_of_writes hwrites hkept
    have hleft := congrArg (·.pending) hoffer.outbound_eq
    obtain ⟨socket, -, rfl, -, htable, hsame, hstate', hrefused, hheld⟩ := hoffer.spec hhalts.kept
    exact hhalts.tail (idle_single ⟨rfl, rfl, rfl, rfl, rfl⟩ rfl) hleft
      (.inr hrefused) hheld hstate' htable hsame
  | blocked hwrites => exact halts_of_writes hwrites hkept
  | bare hwrites => exact (halts_of_writes hwrites hkept).said _

end Connection

end ReplicaHandshake
