import ReplicaHandshake.Proofs.Connection.Bytes
import ReplicaHandshake.Proofs.Meeting
import ReplicaHandshake.Proofs.Writing

/-!
# Connections that are answered

`Connection.Expects c a` says that the master behind a connection has sent some front of its answer
`a`, and nothing else.  So the next frame is this answer, or there is none yet
(`Expects.nextFrame`); and if the connection can accept the answer, then nothing makes it fail but a
call that fails (`Fault.not_expected`).
-/

namespace ReplicaHandshake.Connection

variable {c c' : Connection} {a : TableInfo} {hs : List Happening}

/-- What was read is a front of this answer: it is still in the buffer, or all of it
was accepted. -/
inductive Expects (c : Connection) (a : TableInfo) : Prop where
  | awaits : c.tableInfo = none → c.inbound.buffered <+: (Frame.tableInfo a).bytes → Expects c a
  | knows : c.tableInfo = some a → c.inbound.buffered = [] → Expects c a

/-- The connection takes part in the handshake, and has not asked for the data stream. -/
def IsEarly (c : Connection) : Prop :=
  c.state = .connecting ∨ c.state = .awaitingTableInfo ∨ c.state = .ready

theorem IsEarly.free (hearly : c.IsEarly) : c.isTransferred = false := by
  obtain h | h | h := hearly <;> simp [isTransferred, h]

/-- What a connection has read is what it expects, if all that was delivered is a front
of its answer. -/
theorem expects_of_accounts (haccounts : c.Accounts hs) (hsound : c.Sound) (hholds : c.Holds)
    (hearly : c.IsEarly)
    (htold : ∀ info, c.tableInfo = some info → .tableInfo info ∈ acceptedFrames hs)
    (hfits : (Frame.tableInfo a).encodedLength ≤ greatestWord32)
    (hfront : deliveredBytes hs <+: (Frame.tableInfo a).bytes) : c.Expects a := by
  have hheard := haccounts.heard
  rw [haccounts.bytes, held_of_holds hholds] at hfront
  obtain hstate | hstate | hstate := hearly
  all_goals simp only [HasHeard, hstate] at hheard
  all_goals simp only [Sound, hstate] at hsound
  · rw [hheard] at hfront
    exact .awaits hsound.2 hfront
  · rw [hheard] at hfront
    exact .awaits hsound.2 hfront
  · obtain ⟨info, hheard⟩ := hheard
    obtain ⟨-, info', hinfo, -⟩ := hsound
    have htold := htold info' hinfo
    rw [hheard, List.mem_singleton] at htold
    cases htold
    have hinfoFits := haccounts.fits (.tableInfo info) (hheard ▸ List.mem_singleton_self _)
    rw [hheard, List.flatMap_singleton] at hfront
    obtain ⟨heq, hrest⟩ := Frame.eq_of_bytes_prefix hinfoFits hfits hfront
    cases heq
    exact .knows hinfo hrest

/-- An early connection that knows nothing of the table has not asked, or awaits the answer. -/
theorem IsEarly.state_of_none (hearly : c.IsEarly) (hsound : c.Sound) (hnone : c.tableInfo = none) :
    c.state = .connecting ∨ c.state = .awaitingTableInfo := by
  obtain h | h | h := hearly
  · exact .inl h
  · exact .inr h
  · simp only [Sound, h] at hsound
    obtain ⟨-, info, hinfo, -⟩ := hsound
    simp [hnone] at hinfo

/-- If all of the answer was delivered and nothing was accepted, then the answer is
in the buffer. -/
theorem Expects.buffered_eq (hexpects : c.Expects a) (hnone : c.tableInfo = none)
    (haccounts : c.Accounts hs) (hsound : c.Sound) (hholds : c.Holds) (hearly : c.IsEarly)
    (hall : (Frame.tableInfo a).bytes <+: deliveredBytes hs) :
    c.inbound.buffered = (Frame.tableInfo a).bytes := by
  have hheard := haccounts.heard
  have hunheard : acceptedFrames hs = [] := by
    obtain hstate | hstate := hearly.state_of_none hsound hnone <;>
      simpa only [HasHeard, hstate] using hheard
  rw [haccounts.bytes, hunheard, held_of_holds hholds] at hall
  cases hexpects with
  | awaits _ hfront => exact hfront.eq_of_length_le hall.length_le
  | knows hknown =>
    rw [hnone] at hknown
    cases hknown

section Expects

variable (hexpects : c.Expects a) (hfits : (Frame.tableInfo a).encodedLength ≤ greatestWord32)
  (hroom : (Frame.tableInfo a).encodedLength ≤ c.inbound.capacity)

include hexpects hfits hroom

/-- The next frame is the answer, or there is none yet. -/
theorem Expects.nextFrame :
    c.inbound.nextFrame = (.ok none, c.inbound) ∨
      c.tableInfo = none ∧
        c.inbound.nextFrame = (.ok (some (.tableInfo a)), { c.inbound with buffered := [] }) := by
  cases hexpects with
  | awaits hnone hfront =>
    exact (InboundBuffer.nextFrame_of_prefix hfits hroom hfront).imp_right (⟨hnone, ·⟩)
  | knows _ hempty =>
    refine .inl ?_
    rw [InboundBuffer.nextFrame, hempty]
    rfl

theorem Expects.eq_of_hear {info : TableInfo} (hhear : Hear c hs (.tableInfo info) c') :
    info = a := by
  cases hhear with
  | accept _ hframe haccepts =>
    cases haccepts
    obtain hnext | ⟨-, hnext⟩ := hexpects.nextFrame hfits hroom <;> rw [hnext] at hframe <;>
      cases hframe
    rfl

/-- A connection that expects an answer that it can accept comes upon no fault as long as
no call fails. -/
theorem Fault.not_expected {f : Failure} (hfault : Fault c hs f c') (hsound : c.Sound)
    (hearly : c.IsEarly) (hname : a.tableName = c.tableName) (hknown : a.masterTableId ≠ 0)
    (hquestion : c.state = .connecting →
      ∀ e, c.outbound.queue (.requestTableInfo c.request) ≠ .error e) :
    ∃ x ∈ hs, x.isIoFailure := by
  cases hfault with
  | @connect _ answer _ _ _ hfailed =>
    refine ⟨_, List.mem_cons_self, ?_⟩
    simp only [Happening.isIoFailure, hfailed]
  | ask _ hconnecting _ _ hqueue => exact absurd hqueue (hquestion hconnecting _)
  | writeNothing _ _ hresult =>
    exact ⟨_, List.mem_singleton_self _, by simp [Happening.isIoFailure, hresult]⟩
  | write _ _ hresult hkind =>
    exact ⟨_, List.mem_singleton_self _, by simp [Happening.isIoFailure, hresult, hkind]⟩
  | read _ _ htransient =>
    exact ⟨_, List.mem_singleton_self _, by simp [Happening.isIoFailure, htransient]⟩
  | ended => exact ⟨_, List.mem_cons_self, rfl⟩
  | frame _ hframe =>
    obtain hnext | ⟨-, hnext⟩ := hexpects.nextFrame hfits hroom <;> rw [hnext] at hframe <;>
      cases hframe
  | refuse hopen hframe hrefuses =>
    obtain hnext | ⟨hnone, hnext⟩ := hexpects.nextFrame hfits hroom <;> rw [hnext] at hframe <;>
      cases hframe
    have hstate : c.state = .awaitingTableInfo := by
      refine (hearly.state_of_none hsound hnone).resolve_left fun h => ?_
      simp [hasRequestedTableInfo, h] at hopen
    cases hrefuses with
    | duplicate hsome => simp [hnone] at hsome
    | early _ hother => exact absurd hstate hother
    | otherTable _ hother => exact absurd hname hother
    | missing _ _ hzero => exact absurd hzero hknown
    | unasked hkind => simp [Frame.kind] at hkind

end Expects

end ReplicaHandshake.Connection
