import Mathlib.Control.Monad.Basic
import ReplicaHandshake.Connection.Exchange
import ReplicaHandshake.Proofs.History

/-!
# What the masters and the store have to say

A `Meeting` is all that a handler is told before it asks for the data stream: the answers
of its masters, one for each, and what the local store knows of the table.
`Meeting.request?` is the request that is due after that, if one is: all answers have to
agree, and the table must be ready for the stream.  It does not depend on how many rows the
masters have (`Meeting.request?_withoutRows`).

`Meeting.IsHeld` says of a history that up to the request everything came as the meeting says, and
nothing else: each socket delivered some front of the answer of its master, no call failed, and the
time was not over.  When, in which pieces and in which order the bytes come is left open.
-/

namespace ReplicaHandshake

/-- What the answer of a store that opens a writer comes to: the structure and the rows
of the table. -/
def TableWriter.contents (writer : TableWriter) : UInt64 × UInt64 :=
  (writer.structureVersion, writer.rowCount)

/-- All that is said to a handler before it asks for the data stream: the answers of the masters, in
their order, and what the local store knows of the table. -/
structure Meeting where
  tableName : String
  answers : List TableInfo
  /-- Every answer can be written as a frame. -/
  sendable : ∀ a ∈ answers, (Frame.tableInfo a).encodedLength ≤ greatestWord32
  tableExists : Except StoreError Bool
  openWriter : Except StoreError TableWriter

namespace Meeting

variable {m : Meeting} {request : RequestReplicationStream}

/-! ### The request that is due -/

/-- All answers are about this table, with a table id, and say the same of its identity and of
its structure. -/
def Agree (m : Meeting) : Prop :=
  (∀ a ∈ m.answers, a.tableName = m.tableName ∧ a.masterTableId ≠ 0) ∧
    ∀ a ∈ m.answers, ∀ b ∈ m.answers,
      a.masterTableId = b.masterTableId ∧ a.structureVersion = b.structureVersion

instance (m : Meeting) : Decidable m.Agree :=
  inferInstanceAs (Decidable (_ ∧ _))

/-- The rows behind which replication goes on, if the local table is ready for a stream of
this structure. -/
def rows? (m : Meeting) (structureVersion : UInt64) : Option UInt64 :=
  match m.tableExists, m.openWriter.map TableWriter.contents with
  | .ok false, _ => some 0
  | .ok true, .ok (version, rows) => if version = structureVersion then some rows else none
  | _, _ => none

theorem rows?_eq_some_iff {structureVersion rows : UInt64} : m.rows? structureVersion = some rows ↔
    m.tableExists = .ok false ∧ rows = 0 ∨
      m.tableExists = .ok true ∧
        m.openWriter.map TableWriter.contents = .ok (structureVersion, rows) := by
  unfold rows?
  rcases m.tableExists with e | _ | _ <;>
    rcases m.openWriter.map TableWriter.contents with e | ⟨version, found⟩ <;>
    simp [eq_comm]

/-- The local table is ready for the stream that the masters describe. -/
def Resolves (m : Meeting) : Prop :=
  ∀ a ∈ m.answers, (m.rows? a.structureVersion).isSome

instance (m : Meeting) : Decidable m.Resolves :=
  inferInstanceAs (Decidable (∀ _ ∈ _, _))

/-- The request for the data stream that is due, if one is. -/
def request? (m : Meeting) : Option RequestReplicationStream :=
  m.answers.head?.bind fun first =>
    if m.Agree then
      (m.rows? first.structureVersion).map fun rows =>
        { masterTableId := first.masterTableId
          structureVersion := first.structureVersion
          initialRowCount := rows }
    else none

/-- The answers and the store bear out this request. -/
structure Grants (m : Meeting) (request : RequestReplicationStream) : Prop where
  nonempty : m.answers ≠ []
  named : ∀ a ∈ m.answers, a.tableName = m.tableName
  agreed : ∀ a ∈ m.answers,
    a.masterTableId = request.masterTableId ∧ a.structureVersion = request.structureVersion
  known : request.masterTableId ≠ 0
  rows : m.rows? request.structureVersion = some request.initialRowCount

theorem request?_eq_some_iff : m.request? = some request ↔ m.Grants request := by
  rw [request?, Option.bind_eq_some_iff]
  constructor
  · rintro ⟨first, hfirst, hrequest⟩
    have hmem := List.mem_of_head? hfirst
    split at hrequest
    next hagree =>
      obtain ⟨rows, hrows, rfl⟩ := Option.map_eq_some_iff.1 hrequest
      exact ⟨List.ne_nil_of_mem hmem, fun a ha => (hagree.1 a ha).1, fun a ha =>
        hagree.2 a ha first hmem,
        (hagree.1 first hmem).2, hrows⟩
    next => cases hrequest
  · intro hgrants
    obtain ⟨first, hfirst⟩ := Option.isSome_iff_exists.1 (List.isSome_head?.2 hgrants.nonempty)
    obtain ⟨hid, hversion⟩ := hgrants.agreed first (List.mem_of_head? hfirst)
    have hagree : m.Agree := by
      refine ⟨fun a ha => ⟨hgrants.named a ha, ?_⟩, fun a ha b hb => ?_⟩
      · rw [(hgrants.agreed a ha).1]
        exact hgrants.known
      · obtain ⟨hida, hversiona⟩ := hgrants.agreed a ha
        obtain ⟨hidb, hversionb⟩ := hgrants.agreed b hb
        exact ⟨hida.trans hidb.symm, hversiona.trans hversionb.symm⟩
    refine ⟨first, hfirst, ?_⟩
    rw [if_pos hagree, hversion, hgrants.rows, hid]
    rfl

/-- A request is due exactly if all masters agree and the local table is ready for the stream. -/
theorem isSome_request?_iff (hsome : m.answers ≠ []) :
    m.request?.isSome ↔ m.Agree ∧ m.Resolves := by
  obtain ⟨first, hfirst⟩ := Option.isSome_iff_exists.1 (List.isSome_head?.2 hsome)
  have hmem := List.mem_of_head? hfirst
  rw [request?, hfirst, Option.bind_some]
  split
  next hagree =>
    rw [Option.isSome_map, and_iff_right hagree]
    refine ⟨fun h a ha => ?_, fun h => h first hmem⟩
    rwa [(hagree.2 a ha first hmem).2]
  next hnot => exact iff_of_false Bool.false_ne_true fun h => hnot h.1

/-- A frame buffer of this size has room for both outbound frames at once. -/
def HasRoom (m : Meeting) (frameBuffer : Nat) : Prop :=
  ∀ question request, question.tableName = m.tableName →
    (Frame.requestTableInfo question).encodedLength +
      (Frame.requestReplicationStream request).encodedLength ≤
      frameBuffer

/-- The meeting without the numbers of rows that the masters have. -/
def withoutRows (m : Meeting) : Meeting where
  tableName := m.tableName
  answers := m.answers.map ({ · with rowCount := 0 })
  sendable a ha := by
    obtain ⟨b, hb, rfl⟩ := List.mem_map.1 ha
    have hlength : (Frame.tableInfo { b with rowCount := 0 }).encodedLength =
      (Frame.tableInfo b).encodedLength := rfl
    rw [hlength]
    exact m.sendable b hb
  tableExists := m.tableExists
  openWriter := m.openWriter

/-- What request is due does not depend on how many rows the masters have. -/
theorem request?_withoutRows (m : Meeting) : m.withoutRows.request? = m.request? := by
  have hagree : m.withoutRows.Agree ↔ m.Agree := by
    simp only [Agree, withoutRows, List.forall_mem_map]
  simp only [request?, hagree]
  simp only [withoutRows, List.head?_map]
  cases m.answers.head? <;> rfl

end Meeting

/-! ### Before the request -/

/-- What happened before the data stream was asked for. -/
def beforeRequest (hs : List Happening) : List Happening :=
  hs.takeWhile (·.requested?.isNone)

section BeforeRequest

variable {past hs : List Happening}

theorem beforeRequest_append (hnone : requests past = []) :
    beforeRequest (past ++ hs) = past ++ beforeRequest hs := by
  refine List.takeWhile_append_of_pos fun x hx => ?_
  rw [List.filterMap_eq_nil_iff.1 hnone x hx]
  rfl

theorem beforeRequest_eq_self (hnone : requests past = []) : beforeRequest past = past := by
  rw [← List.append_nil past, beforeRequest_append hnone]
  rfl

theorem beforeRequest_prefix (past hs : List Happening) :
    beforeRequest past <+: beforeRequest (past ++ hs) := by
  rw [beforeRequest, beforeRequest, List.takeWhile_append]
  split
  next hall =>
    have hself := (List.takeWhile_prefix _).eq_of_length hall
    rw [hself]
    exact List.prefix_append _ _
  next => exact List.prefix_rfl

end BeforeRequest

/-- Whether a call shows that a connection cannot go on: a socket could not be opened or connected,
could not be read or written, or has come to its end. -/
def Happening.isIoFailure : Happening → Bool
  | answered (.openSocket _) (.error _) => true
  | answered (.pollConnect _) answer =>
    match Connection.isConnected answer with
    | .error _ => true
    | .ok _ => false
  | answered (.read _ _) (.ok bs) => bs.1.isEmpty
  | answered (.read _ _) (.error e) => !e.isTransient
  | answered (.write _ _) answer =>
    match answer.result with
    | .ok n => n.1 = 0
    | .error e => e.kind ≠ .wouldBlock
  | _ => false

namespace Meeting

/-- Whether the store says of the table what the meeting says that it knows. -/
def isBorneOutBy (m : Meeting) : Happening → Bool
  | .answered (.tableExists table) answer => table = m.tableName → answer = m.tableExists
  | .answered (.openWriter table) answer =>
    table = m.tableName → answer.map TableWriter.contents = m.openWriter.map TableWriter.contents
  | _ => true

/-- No call shows that a connection cannot go on, the time is not over, and the store answers
what it knows. -/
structure Admits (m : Meeting) (hs : List Happening) : Prop where
  smooth : ∀ x ∈ hs, x.isIoFailure = false
  inTime : "handshake_timeout" ∉ failures hs
  borneOut : ∀ x ∈ hs, m.isBorneOutBy x

instance (m : Meeting) (hs : List Happening) : Decidable (m.Admits hs) :=
  decidable_of_iff
    ((∀ x ∈ hs, x.isIoFailure = false) ∧ "handshake_timeout" ∉ failures hs ∧
      ∀ x ∈ hs, m.isBorneOutBy x)
    ⟨fun ⟨hsmooth, htime, hstore⟩ => ⟨hsmooth, htime, hstore⟩, fun h =>
      ⟨h.smooth, h.inTime, h.borneOut⟩⟩

/-- Up to the request everything came as the meeting says, and nothing else: of each master a front
of its answer, from the store what it knows, no error, and nothing too late. -/
structure IsHeld (m : Meeting) (past : List Happening) :
    Prop extends m.Admits (beforeRequest past) where
  started : past.head? = some (.noted (.started m.tableName m.answers.length))
  delivered : ∀ turn ∈ (openedSockets past).zip m.answers,
    deliveredBytes (about turn.1 (beforeRequest past)) <+: (Frame.tableInfo turn.2).bytes

/-- All answers have been delivered. -/
def IsDelivered (m : Meeting) (past : List Happening) : Prop :=
  ∀ turn ∈ (openedSockets past).zip m.answers, (Frame.tableInfo turn.2).bytes <+:
    deliveredBytes (about turn.1 past)

instance (m : Meeting) (past : List Happening) : Decidable (m.IsDelivered past) :=
  inferInstanceAs (Decidable (∀ _ ∈ _, _))

variable {m : Meeting} {past hs : List Happening}

theorem Admits.tableExists (hadmits : m.Admits hs) (answer : Except StoreError Bool)
    (hmem : .answered (.tableExists m.tableName) answer ∈ hs) : answer = m.tableExists := by
  simpa [isBorneOutBy] using hadmits.borneOut _ hmem

theorem Admits.openWriter (hadmits : m.Admits hs) (answer : Except StoreError TableWriter)
    (hmem : .answered (.openWriter m.tableName) answer ∈ hs) :
    answer.map TableWriter.contents = m.openWriter.map TableWriter.contents := by
  simpa [isBorneOutBy] using hadmits.borneOut _ hmem

theorem Admits.mono (hadmits : m.Admits hs) (hsubset : past ⊆ hs) : m.Admits past where
  smooth x hx := hadmits.smooth x (hsubset hx)
  inTime hmem := by
    obtain ⟨x, hx, hfailure⟩ := List.mem_filterMap.1 hmem
    exact hadmits.inTime (List.mem_filterMap.2 ⟨x, hsubset hx, hfailure⟩)
  borneOut x hx := hadmits.borneOut x (hsubset hx)

/-- The socket and the answer that stand in one place belong together. -/
theorem mem_turns {i : Nat} {socket : SocketId} {a : TableInfo}
    (hsocket : (openedSockets past)[i]? = some socket) (ha : m.answers[i]? = some a) :
    (socket, a) ∈ (openedSockets past).zip m.answers :=
  List.mem_of_getElem? (List.getElem?_zip_eq_some.2 ⟨hsocket, ha⟩)

/-- A meeting that is held has been held at every time before. -/
theorem IsHeld.front (hheld : m.IsHeld (past ++ hs)) (hsome : past ≠ []) : m.IsHeld past := by
  have hfront := beforeRequest_prefix past hs
  obtain ⟨x, rest, rfl⟩ := List.exists_cons_of_ne_nil hsome
  refine ⟨hheld.toAdmits.mono hfront.subset, hheld.started, fun turn hturn => ?_⟩
  obtain ⟨i, hi⟩ := List.mem_iff_getElem?.1 hturn
  obtain ⟨hsocket, ha⟩ := List.getElem?_zip_eq_some.1 hi
  have hlt := (List.getElem?_eq_some_iff.1 hsocket).1
  have hsocket' : (openedSockets (x :: rest ++ hs))[i]? = some turn.1 := by
    rw [openedSockets_append, List.getElem?_append_left hlt, hsocket]
  obtain ⟨behind, heq⟩ := hfront
  have hdelivered := hheld.delivered turn (mem_turns hsocket' ha)
  rw [← heq, about_append, deliveredBytes_append] at hdelivered
  exact (List.prefix_append _ _).trans hdelivered

theorem IsHeld.admits (hheld : m.IsHeld (past ++ hs)) (hnone : requests past = []) :
    m.Admits (beforeRequest hs) := by
  have hadmits := hheld.toAdmits
  rw [beforeRequest_append hnone] at hadmits
  exact hadmits.mono (List.subset_append_right _ _)

end Meeting

end ReplicaHandshake
