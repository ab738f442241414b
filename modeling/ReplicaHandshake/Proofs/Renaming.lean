import Mathlib.Data.List.Forall2
import ReplicaHandshake.Proofs.Always

/-!
# The same under other names

Two pieces of work may be the same up to the numbers that sockets, peers and writers happen to have.
A `Renaming` says which socket of the one is which of the other, and how each presents itself.  Two
happenings are alike (`Happening.Alike`) if they are the same but for these names; of bytes that
means that the same byte stands at the same place, or both present themselves there.

Two dialogues are alike (`Dialogue.Alike`) if they make corresponding calls and remarks and go on
alike whenever they get corresponding answers.  So where the outside answers corresponding calls
correspondingly (`Concordant`), their runs are alike, from the first happening to the result
(`Dialogue.Alike.runs`).  Work and tasks are alike if they are so on subjects that are alike, and
there is one rule for every way in which they are put together.
-/

namespace ReplicaHandshake

/-- How somebody presents itself to a master. -/
structure Badge where
  instanceId : InstanceId
  peer : PeerId
deriving DecidableEq, Repr

/-- A badge as it stands in a question. -/
def Badge.bytes (b : Badge) : Bytes :=
  LittleEndian.encode 16 b.instanceId.toNat ++ LittleEndian.encode 8 b.peer.number.toUInt64.toNat

/-- Which names correspond to which. -/
structure Renaming where
  socket : SocketId → SocketId
  injective : Function.Injective socket
  /-- How the first one presents itself. -/
  own : Badge
  /-- How the second one does. -/
  other : Badge

namespace Renaming

variable (ρ : Renaming)

/-- The same byte, or the same one of a badge. -/
def SameByte (x y : UInt8) : Prop :=
  y = x ∨ ∃ i : Nat, ρ.own.bytes[i]? = some x ∧ ρ.other.bytes[i]? = some y

/-- The same bytes, but for badges. -/
def SameBytes : Bytes → Bytes → Prop :=
  List.Forall₂ ρ.SameByte

/-- A handoff with another socket. -/
def handoff (h : Handoff) : Handoff :=
  { h with socket := ρ.socket h.socket }

theorem sameBytes_refl (bs : Bytes) : ρ.SameBytes bs bs :=
  List.forall₂_same.2 fun _ _ => .inl rfl

theorem sameBytes_badge : ρ.SameBytes ρ.own.bytes ρ.other.bytes := by
  have hlength : ∀ b : Badge, b.bytes.length = 24 := fun b => by simp [Badge.bytes]
  refine List.forall₂_iff_get.2 ⟨by rw [hlength, hlength], fun i h h' => .inr ⟨i, ?_, ?_⟩⟩
  · exact List.getElem?_eq_getElem h
  · exact List.getElem?_eq_getElem h'

end Renaming

/-- The same frame; a question presents the one who asks. -/
inductive Frame.Alike (ρ : Renaming) : Frame → Frame → Prop where
  | question (version : UInt32) (tableName : String) : Alike ρ
      (.requestTableInfo ⟨version, ρ.own.instanceId, ρ.own.peer.number.toUInt64, tableName⟩)
      (.requestTableInfo ⟨version, ρ.other.instanceId, ρ.other.peer.number.toUInt64, tableName⟩)
  | request (r : RequestReplicationStream) :
      Alike ρ (.requestReplicationStream r) (.requestReplicationStream r)

/-- The same answer of the store; writers are counted independently. -/
inductive WriterAlike : Except StoreError TableWriter → Except StoreError TableWriter → Prop where
  | refused (e : StoreError) : WriterAlike (.error e) (.error e)
  | granted (writer : TableWriter) (serial : Nat) : WriterAlike (.ok writer)
    (.ok { writer with serial })

/-- The same happening under other names. -/
inductive Happening.Alike (ρ : Renaming) : Happening → Happening → Prop where
  | openSocket (endpoint : Endpoint) (answer : Except SystemError SocketId) :
      Alike ρ (.answered (.openSocket endpoint) answer)
        (.answered (.openSocket endpoint) (answer.map ρ.socket))
  | pollConnect (socket : SocketId) (answer : Except SystemError ConnectStatus) :
      Alike ρ (.answered (.pollConnect socket) answer)
        (.answered (.pollConnect (ρ.socket socket)) answer)
  | setNoDelay (socket : SocketId) (answer : Except SystemError Unit) :
      Alike ρ (.answered (.setNoDelay socket) answer)
        (.answered (.setNoDelay (ρ.socket socket)) answer)
  | read (socket : SocketId) (most : Nat)
      (answer : Except SystemError { bs : Bytes // bs.length ≤ most }) :
      Alike ρ (.answered (.read socket most) answer)
        (.answered (.read (ρ.socket socket) most) answer)
  | write (socket : SocketId) {data data' : Bytes} {answer : WriteAnswer data.length}
      {answer' : WriteAnswer data'.length} :
      ρ.SameBytes data data' → answer'.interruptions = answer.interruptions →
      answer'.result.map (·.1) = answer.result.map (·.1) →
      Alike ρ (.answered (.write socket data) answer)
        (.answered (.write (ρ.socket socket) data') answer')
  | closeSocket (socket : SocketId) :
      Alike ρ (.answered (.closeSocket socket) ()) (.answered (.closeSocket (ρ.socket socket)) ())
  | tableExists (tableName : String) (answer : Except StoreError Bool) :
      Alike ρ (.answered (.tableExists tableName) answer)
        (.answered (.tableExists tableName) answer)
  | openWriter (tableName : String) {answer answer' : Except StoreError TableWriter} :
      WriterAlike answer answer' →
      Alike ρ (.answered (.openWriter tableName) answer) (.answered (.openWriter tableName) answer')
  | createTable (tableName : String) (metadata symbols : Bytes)
      {answer answer' : Except StoreError TableWriter} :
      WriterAlike answer answer' →
      Alike ρ (.answered (.createTable tableName metadata symbols) answer)
        (.answered (.createTable tableName metadata symbols) answer')
  | releaseWriter (writer : TableWriter) (serial : Nat) :
      Alike ρ (.answered (.releaseWriter writer) ())
        (.answered (.releaseWriter { writer with serial }) ())
  | offerWriter (masterTableId : UInt32) (writer : TableWriter) (serial : Nat) (answer : Bool) :
      Alike ρ (.answered (.offerWriter ρ.own.peer masterTableId writer) answer)
        (.answered (.offerWriter ρ.other.peer masterTableId { writer with serial }) answer)
  | offerSocket (handoff : Handoff) (answer : Bool) :
      Alike ρ (.answered (.offerSocket ρ.own.peer handoff) answer)
        (.answered (.offerSocket ρ.other.peer (ρ.handoff handoff)) answer)
  | stopPeer (answer : Bool) :
      Alike ρ (.answered (.stopPeer ρ.own.peer) answer) (.answered (.stopPeer ρ.other.peer) answer)
  | metric (m : Metric) : Alike ρ (.reported m) (.reported m)
  | started (tableName : String) (masters : Nat) :
      Alike ρ (.noted (.started tableName masters)) (.noted (.started tableName masters))
  | queued (socket : Option SocketId) {f f' : Frame} : f.Alike ρ f' →
      Alike ρ (.noted (.queued socket f)) (.noted (.queued (socket.map ρ.socket) f'))
  | accepted (socket : Option SocketId) (f : Frame) :
      Alike ρ (.noted (.accepted socket f)) (.noted (.accepted (socket.map ρ.socket) f))
  | refused (old new : Phase) : Alike ρ (.noted (.refused old new)) (.noted (.refused old new))
  | absent (position : Nat) : Alike ρ (.noted (.absent position)) (.noted (.absent position))
  | unready (socket : Option SocketId) :
      Alike ρ (.noted (.unready socket)) (.noted (.unready (socket.map ρ.socket)))

/-- Corresponding calls: there are answers to them that correspond. -/
def Call.Alike (ρ : Renaming) (c c' : Call) : Prop :=
  ∃ answer answer', (Happening.answered c answer).Alike ρ (.answered c' answer')

/-- Where corresponding calls stand at the same place, they got corresponding answers. -/
def Concordant (ρ : Renaming) (hs hs' : List Happening) : Prop :=
  ∀ (n : Nat) c answer c' answer', hs[n]? = some (.answered c answer) →
    hs'[n]? = some (.answered c' answer') →
    c.Alike ρ c' → (Happening.answered c answer).Alike ρ (.answered c' answer')

variable {ρ : Renaming}

theorem Concordant.tail {x x' : Happening} {hs hs' : List Happening}
    (h : Concordant ρ (x :: hs) (x' :: hs')) :
    Concordant ρ hs hs' :=
  fun n c answer c' answer' hn hn' => h (n + 1) c answer c' answer' hn hn'

theorem concordant_of_alike {hs hs' : List Happening}
    (halike : List.Forall₂ (Happening.Alike ρ) hs hs') :
    Concordant ρ hs hs' := by
  intro n c answer c' answer' hn hn' _
  obtain ⟨h, hx⟩ := List.getElem?_eq_some_iff.1 hn
  obtain ⟨h', hx'⟩ := List.getElem?_eq_some_iff.1 hn'
  rw [← hx, ← hx']
  exact halike.get h h'

/-! ### Dialogues -/

namespace Dialogue

variable {α β α' β' : Type} {R : α → α' → Prop} {S : β → β' → Prop}

/-- The same dialogue under other names. -/
inductive Alike (ρ : Renaming) (R : α → α' → Prop) : Dialogue α → Dialogue α' → Prop where
  | done {a : α} {a' : α'} : R a a' → Alike ρ R (.done a) (.done a')
  | ask {peer peer' : Option PeerId} {c c' : Call} {next : c.Answer → Dialogue α}
      {next' : c'.Answer → Dialogue α'} :
      c.Alike ρ c' →
      (∀ answer answer', (Happening.answered c answer).Alike ρ (.answered c' answer') →
        Alike ρ R (next answer) (next' answer')) →
      Alike ρ R (.ask peer c next) (.ask peer' c' next')
  | say {peer peer' : Option PeerId} {r r' : Remark} {next : Dialogue α} {next' : Dialogue α'} :
      (Happening.said r).Alike ρ (.said r') → Alike ρ R next next' →
      Alike ρ R (.say peer r next) (.say peer' r' next')

theorem Alike.bind {d : Dialogue α} {d' : Dialogue α'} {f : α → Dialogue β} {f' : α' → Dialogue β'}
    (h : Alike ρ R d d') (hf : ∀ a a', R a a' → Alike ρ S (f a) (f' a')) :
    Alike ρ S (d >>= f) (d' >>= f') := by
  induction h with
  | done hR => exact hf _ _ hR
  | ask hcall _ ih => exact .ask hcall ih
  | say hsaid _ ih => exact .say hsaid ih

/-- Where the outside answers correspondingly, dialogues that are alike have runs that are alike. -/
theorem Alike.runs {d : Dialogue α} {d' : Dialogue α'} (h : Alike ρ R d d')
    {entries entries' : List Entry} {a : α} {a' : α'} (hruns : Runs d entries a)
    (hruns' : Runs d' entries' a')
    (hsame : Concordant ρ (happenings entries) (happenings entries')) :
    List.Forall₂ (Happening.Alike ρ) (happenings entries) (happenings entries') ∧ R a a' := by
  induction h generalizing entries entries' with
  | done hR =>
    obtain ⟨rfl, rfl⟩ := runs_done.1 hruns
    obtain ⟨rfl, rfl⟩ := runs_done.1 hruns'
    exact ⟨.nil, hR⟩
  | ask hcall _ ih =>
    cases hruns with
    | ask answer hruns =>
      cases hruns' with
      | ask answer' hruns' =>
        have hanswers := hsame 0 _ answer _ answer' rfl rfl hcall
        obtain ⟨halike, hR⟩ := ih answer answer' hanswers hruns hruns' hsame.tail
        exact ⟨.cons hanswers halike, hR⟩
  | say hsaid _ ih =>
    cases hruns with
    | say hruns =>
      cases hruns' with
      | say hruns' =>
        obtain ⟨halike, hR⟩ := ih hruns hruns' hsame.tail
        exact ⟨.cons hsaid halike, hR⟩

/-! ### Single calls and remarks -/

theorem alike_call {c c' : Call} {answer : c.Answer} {answer' : c'.Answer}
    {R : c.Answer → c'.Answer → Prop}
    (h : (Happening.answered c answer).Alike ρ (.answered c' answer'))
    (hR : ∀ answer answer', (Happening.answered c answer).Alike ρ (.answered c' answer') →
      R answer answer') :
    Alike ρ R (call c) (call c') :=
  .ask ⟨answer, answer', h⟩ fun answer answer' h => .done (hR answer answer' h)

theorem alike_openSocket (endpoint : Endpoint) :
    Alike ρ (fun answer answer' => answer' = answer.map ρ.socket) (openSocket endpoint)
      (openSocket endpoint) :=
  alike_call (.openSocket endpoint (.ok .first)) fun _ _ h => by cases h; rfl

theorem alike_pollConnect (socket : SocketId) :
    Alike ρ Eq (pollConnect socket) (pollConnect (ρ.socket socket)) :=
  alike_call (.pollConnect socket (.ok .connected)) fun _ _ h => by cases h; rfl

theorem alike_setNoDelay (socket : SocketId) :
    Alike ρ Eq (setNoDelay socket) (setNoDelay (ρ.socket socket)) :=
  alike_call (.setNoDelay socket (.ok ())) fun _ _ h => by cases h; rfl

theorem alike_read (socket : SocketId) (most : Nat) :
    Alike ρ Eq (read socket most) (read (ρ.socket socket) most) := by
  have hcall : Alike ρ Eq (call (.read socket most)) (call (.read (ρ.socket socket) most)) :=
    alike_call (.read socket most (.ok ⟨[], Nat.zero_le _⟩)) fun _ _ h => by cases h; rfl
  refine hcall.bind ?_
  rintro answer _ rfl
  exact .done rfl

theorem alike_write (socket : SocketId) {data data' : Bytes} (hdata : ρ.SameBytes data data') :
    Alike ρ (fun answer answer' => answer'.result.map (·.1) = answer.result.map (·.1))
      (write socket data)
      (write (ρ.socket socket) data') := by
  have hnone : (Happening.answered (.write socket data) (.accept 0 _ 0)).Alike ρ
      (.answered (.write (ρ.socket socket) data') (.accept 0 _ 0)) :=
    .write socket hdata rfl (by simp [WriteAnswer.accept, Except.map])
  exact alike_call hnone fun _ _ h => by cases h; assumption

theorem alike_closeSocket (socket : SocketId) :
    Alike ρ Eq (closeSocket socket) (closeSocket (ρ.socket socket)) :=
  alike_call (.closeSocket socket) fun _ _ _ => rfl

theorem alike_tableExists (tableName : String) :
    Alike ρ Eq (tableExists tableName) (tableExists tableName) :=
  alike_call (.tableExists tableName (.ok true)) fun _ _ h => by cases h; rfl

theorem alike_openWriter (tableName : String) :
    Alike ρ WriterAlike (openWriter tableName) (openWriter tableName) :=
  alike_call (.openWriter tableName (.refused { text := "" })) fun _ _ h => by cases h; assumption

theorem alike_createTable (tableName : String) (metadata symbols : Bytes) :
    Alike ρ WriterAlike (createTable tableName metadata symbols)
      (createTable tableName metadata symbols) :=
  alike_call (.createTable tableName metadata symbols (.refused { text := "" })) fun _ _ h => by
    cases h; assumption

theorem alike_releaseWriter (writer : TableWriter) (serial : Nat) :
    Alike ρ Eq (releaseWriter writer) (releaseWriter { writer with serial }) :=
  alike_call (.releaseWriter writer serial) fun _ _ _ => rfl

theorem alike_offerWriter (masterTableId : UInt32) (writer : TableWriter) (serial : Nat) :
    Alike ρ Eq (offerWriter ρ.own.peer masterTableId writer)
      (offerWriter ρ.other.peer masterTableId { writer with serial }) :=
  alike_call (.offerWriter masterTableId writer serial true) fun _ _ h => by cases h; rfl

theorem alike_offerSocket (handoff : Handoff) :
    Alike ρ Eq (offerSocket ρ.own.peer handoff) (offerSocket ρ.other.peer (ρ.handoff handoff)) :=
  alike_call (.offerSocket handoff true) fun _ _ h => by cases h; rfl

theorem alike_stopPeer : Alike ρ Eq (stopPeer ρ.own.peer) (stopPeer ρ.other.peer) :=
  alike_call (.stopPeer true) fun _ _ h => by cases h; rfl

theorem alike_report (m : Metric) : Alike ρ Eq (report m) (report m) :=
  .say (.metric m) (.done rfl)

theorem alike_note {n n' : Note} (hnote : (Happening.noted n).Alike ρ (.noted n')) :
    Alike ρ Eq (note n) (note n') :=
  .say hnote (.done rfl)

end Dialogue

/-! ### Work -/

/-- Work that is the same under other names, on subjects that are. -/
def Work.Alike {σ α : Type} (ρ : Renaming) (T : σ → σ → Prop) (R : α → α → Prop) (w w' : Work σ α) :
    Prop :=
  ∀ s s', T s s' → Dialogue.Alike ρ (fun r r' => R r.1 r'.1 ∧ T r.2 r'.2) (w.run s) (w'.run s')

namespace Work

variable {σ α β : Type} {T : σ → σ → Prop} {R : α → α → Prop} {S : β → β → Prop}

theorem alike_pure {a a' : α} (h : R a a') : Alike ρ T R (pure a : Work σ α) (pure a') :=
  fun _ _ hs => .done ⟨h, hs⟩

theorem Alike.bind {w w' : Work σ α} {f f' : α → Work σ β} (h : Alike ρ T R w w')
    (hf : ∀ a a', R a a' → Alike ρ T S (f a) (f' a')) : Alike ρ T S (w >>= f) (w' >>= f') :=
  fun s s' hs => (h s s' hs).bind fun r r' hr => hf r.1 r'.1 hr.1 r.2 r'.2 hr.2

theorem alike_ite {p p' : Prop} [Decidable p] [Decidable p'] {w w' v v' : Work σ α} (hp : p' ↔ p)
    (ht : p → Alike ρ T R w w') (he : ¬p → Alike ρ T R v v') :
    Alike ρ T R (if p then w else v) (if p' then w' else v') := by
  by_cases h : p
  · rw [if_pos h, if_pos (hp.2 h)]
    exact ht h
  · rw [if_neg h, if_neg (mt hp.1 h)]
    exact he h

theorem alike_get : Alike ρ T T (get : Work σ σ) get :=
  fun _ _ hs => .done ⟨hs, hs⟩

theorem alike_set {s s' : σ} (h : T s s') : Alike ρ T Eq (set s : Work σ PUnit) (set s') :=
  fun _ _ _ => .done ⟨rfl, h⟩

theorem alike_modify {f f' : σ → σ} (h : ∀ s s', T s s' → T (f s) (f' s')) :
    Alike ρ T Eq (modify f : Work σ PUnit) (modify f') :=
  fun s s' hs => .done ⟨rfl, h s s' hs⟩

theorem alike_lift {d d' : Dialogue α} (h : d.Alike ρ R d') :
    Alike ρ T R (liftM d : Work σ α) (liftM d') :=
  fun _ _ hs => h.bind fun _ _ hR => .done ⟨hR, hs⟩

end Work

/-! ### Tasks -/

/-- The same outcome: the same failure, or results that are alike. -/
inductive Task.Same {α : Type} (R : α → α → Prop) : Except Failure α → Except Failure α → Prop where
  | ok {a a' : α} : R a a' → Same R (.ok a) (.ok a')
  | error (f : Failure) : Same R (.error f) (.error f)

/-- A task that is the same under other names, on subjects that are. -/
def Task.Alike {σ α : Type} (ρ : Renaming) (T : σ → σ → Prop) (R : α → α → Prop) (t t' : Task σ α) :
    Prop :=
  Work.Alike ρ T (Task.Same R) t.run t'.run

namespace Task

variable {σ α β : Type} {T : σ → σ → Prop} {R : α → α → Prop} {S : β → β → Prop}

theorem alike_pure {a a' : α} (h : R a a') : Alike ρ T R (pure a : Task σ α) (pure a') :=
  Work.alike_pure (.ok h)

theorem alike_throw (f : Failure) : Alike ρ T R (throw f : Task σ α) (throw f) :=
  Work.alike_pure (.error f)

theorem Alike.bind {t t' : Task σ α} {f f' : α → Task σ β} (h : Alike ρ T R t t')
    (hf : ∀ a a', R a a' → Alike ρ T S (f a) (f' a')) : Alike ρ T S (t >>= f) (t' >>= f') := by
  unfold Alike
  rw [ExceptT.run_bind, ExceptT.run_bind]
  refine Work.Alike.bind h ?_
  rintro _ _ (⟨hR⟩ | ⟨failure⟩)
  · exact hf _ _ hR
  · exact Work.alike_pure (.error failure)

theorem alike_throw_bind (failure : Failure) {f f' : α → Task σ β} :
    Alike ρ T S (throw failure >>= f) (throw failure >>= f') :=
  (alike_throw (R := fun _ _ => False) failure).bind fun _ _ hnone => hnone.elim

theorem alike_work {w w' : Work σ α} (h : Work.Alike ρ T R w w') :
    Alike ρ T R (liftM w : Task σ α) (liftM w') := by
  show Work.Alike ρ T (Same R) (Except.ok <$> w) (Except.ok <$> w')
  rw [map_eq_pure_bind, map_eq_pure_bind]
  exact h.bind fun _ _ hR => Work.alike_pure (.ok hR)

theorem alike_ite {p p' : Prop} [Decidable p] [Decidable p'] {t t' e e' : Task σ α} (hp : p' ↔ p)
    (ht : p → Alike ρ T R t t') (he : ¬p → Alike ρ T R e e') :
    Alike ρ T R (if p then t else e) (if p' then t' else e') :=
  Work.alike_ite hp ht he

theorem alike_get : Alike ρ T T (get : Task σ σ) get :=
  alike_work Work.alike_get

theorem alike_set {s s' : σ} (h : T s s') : Alike ρ T Eq (set s : Task σ PUnit) (set s') :=
  alike_work (Work.alike_set h)

theorem alike_modify {f f' : σ → σ} (h : ∀ s s', T s s' → T (f s) (f' s')) :
    Alike ρ T Eq (modify f : Task σ PUnit) (modify f') :=
  alike_work (Work.alike_modify h)

theorem alike_lift {d d' : Dialogue α} (h : d.Alike ρ R d') :
    Alike ρ T R (liftM d : Task σ α) (liftM d') :=
  alike_work (Work.alike_lift h)

theorem Alike.perform {t t' : Task σ α} (h : Alike ρ T R t t') :
    Work.Alike ρ T (Same R) t.perform t'.perform :=
  h

theorem alike_ofExcept {r r' : Except Failure α} (h : Same R r r') :
    Alike ρ T R (ofExcept r : Task σ α) (ofExcept r') := by
  cases h with
  | ok hR => exact alike_pure hR
  | error f => exact alike_throw f

end Task

end ReplicaHandshake
