import ReplicaHandshake.Proofs.Handler.Rest
import ReplicaHandshake.Proofs.Records

/-!
# The house of a controller

A `House` is a controller as far as its handlers are concerned: those that it keeps, in whatever
list, and what it has for one that begins.  A `House.Step` lets one handler take its turns, or
begins a new one under the next peer, or forgets handlers that have stopped; all that happens else
is on nobody's behalf and concerns no handler.

What every handler has when it begins, and keeps in its turns, everyone has who is or was in the
house (`House.Everyone`).  `House.Chronicle` says what all entries so far have to do with the house:
the history of every peer is the life of one handler, and of all sockets and writers none is lost
and none counted twice.  Every step keeps it (`House.Step.chronicle`).
-/

namespace ReplicaHandshake

/-- A happening that concerns no handler. -/
structure Happening.IsSilent (x : Happening) : Prop where
  socket : x.socket? = none
  writer : x.writer? = none
  word : x.isWord = false
  lapse : x.isLapse = false

/-- The handlers that a controller keeps, and what one that begins is given. -/
structure House where
  handlers : List Handler
  nextPeer : PeerId
  instanceId : InstanceId
  /-- The size of all frame buffers. -/
  frameBuffer : Nat

namespace House

open Handler

/-- One step of a controller, as far as its handlers are concerned. -/
inductive Step : House → List Entry → House → Prop where
  | turns {s : House} {before after : List Handler} {h h' : Handler} {hs : List Happening} :
      Way Turn h hs h' →
      Step { s with handlers := before ++ h :: after } (marked h.peer hs)
        { s with handlers := before ++ h' :: after }
  | begins {s : House} {h : Handler} {hs : List Happening} {table : TableSettings}
      {timeout : Duration} {now : Instant} :
      table.validate = .ok () →
      Begins (new s.instanceId s.nextPeer table s.frameBuffer timeout now) hs h →
      Step s (marked s.nextPeer hs) { s with handlers := s.handlers ++ [h], nextPeer :=
        s.nextPeer.next }
  | forgets {s : House} {kept : List Handler} (gone : List Handler) :
      s.handlers.Perm (gone ++ kept) → (∀ h ∈ gone, ¬h.AtWork) →
        Step s [] { s with handlers := kept }
  | silent (s : House) {x : Happening} : x.IsSilent → Step s [⟨none, x⟩] s

/-- Everyone who is or was in the house has this to do with the history of its peer. -/
structure Everyone (P : TableSettings → List Happening → Handler → Prop) (past : List Entry)
    (s : House) :
    Prop where
  lives : ∀ h ∈ s.handlers, ∃ table, P table (history h.peer past) h
  /-- Also the handlers that were forgotten. -/
  every : ∀ peer, history peer past ≠ [] → ∃ table h, h.peer = peer ∧ P table (history peer past) h

/-- What all entries so far have to do with the handlers. -/
structure Chronicle (past : List Entry) (s : House) : Prop extends Everyone Life past s where
  distinct : (s.handlers.map (·.peer)).Nodup
  issued : ∀ h ∈ s.handlers, h.peer.number < s.nextPeer.number
  unborn : ∀ peer, s.nextPeer.number ≤ peer.number → history peer past = []
  silent : ∀ e ∈ past, e.peer = none → e.happening.IsSilent
  sockets : (openedSockets (happenings past)).Perm (s.handlers.flatMap ownedSockets ++
    takenSockets (happenings past) ++ closedSockets (happenings past))
  writers : (receivedWriters (happenings past)).Perm (s.handlers.flatMap ownedWriters ++
    takenWriters (happenings past) ++ releasedWriters (happenings past))

variable {past : List Entry} {s : House}

theorem everyone_nil {P : TableSettings → List Happening → Handler → Prop}
    (hnone : s.handlers = []) :
    Everyone P [] s where
  lives := by simp [hnone]
  every _ h := absurd rfl h

theorem chronicle_nil {s : House} (hnone : s.handlers = []) : Chronicle [] s where
  toEveryone := everyone_nil hnone
  distinct := by simp [hnone]
  issued := by simp [hnone]
  unborn _ _ := rfl
  silent := by simp
  sockets := by rw [hnone]; exact .refl _
  writers := by rw [hnone]; exact .refl _

/-! ### Histories of peers -/

theorem history_other {peer other : PeerId} (hne : other ≠ peer) (hs : List Happening) :
    history peer (past ++ marked other hs) = history peer past := by
  rw [history_append, history_marked_of_ne hne, List.append_nil]

theorem history_self (peer : PeerId) (hs : List Happening) :
    history peer (past ++ marked peer hs) = history peer past ++ hs := by
  rw [history_append, history_marked_self]

theorem silent_marked {hs : List Happening} {peer : PeerId}
    (hsilent : ∀ e ∈ past, e.peer = none → e.happening.IsSilent) :
    ∀ e ∈ past ++ marked peer hs, e.peer = none → e.happening.IsSilent := by
  intro e he hnone
  rcases List.mem_append.1 he with he | he
  · exact hsilent e he hnone
  · obtain ⟨_, -, rfl⟩ := List.mem_map.1 he
    cases hnone

/-! ### Steps -/

/-- Where one handler was replaced, every other one is on another peer's behalf. -/
theorem eq_or_other {before after : List Handler} {h h' x : Handler}
    (hdistinct : ((before ++ h :: after).map (·.peer)).Nodup) (hx : x ∈ before ++ h' :: after) :
    x = h' ∨ x ∈ before ++ h :: after ∧ h.peer ≠ x.peer := by
  simp only [List.map_append, List.map_cons, List.nodup_append, List.nodup_cons] at hdistinct
  obtain ⟨-, ⟨hafter, -⟩, hbefore⟩ := hdistinct
  simp only [List.mem_append, List.mem_cons] at hx
  rcases hx with hx | rfl | hx
  · refine .inr ⟨by simp [hx], fun heq => ?_⟩
    exact hbefore _ (List.mem_map_of_mem hx) _ List.mem_cons_self heq.symm
  · exact .inl rfl
  · refine .inr ⟨by simp [hx], fun heq => hafter ?_⟩
    rw [heq]
    exact List.mem_map_of_mem hx

section Everyone

variable {P : TableSettings → List Happening → Handler → Prop} {before after : List Handler}
  {h h' : Handler} {hs : List Happening}

theorem Everyone.turns (hall : Everyone P past { s with handlers := before ++ h :: after })
    (hdistinct : ((before ++ h :: after).map (·.peer)).Nodup) (hpeer : h'.peer = h.peer)
    {table : TableSettings} (hP : P table (history h.peer past ++ hs) h') :
    Everyone P (past ++ marked h.peer hs) { s with handlers := before ++ h' :: after } := by
  rw [← history_self] at hP
  constructor
  · intro x hx
    obtain rfl | ⟨hx, hne⟩ := eq_or_other hdistinct hx
    · rw [hpeer]
      exact ⟨table, hP⟩
    · rw [history_other hne]
      exact hall.lives x hx
  · intro peer hsome
    by_cases heq : h.peer = peer
    · subst heq
      exact ⟨table, h', hpeer, hP⟩
    · rw [history_other heq] at hsome ⊢
      exact hall.every peer hsome

theorem Everyone.begins (hall : Everyone P past s)
    (hissued : ∀ x ∈ s.handlers, x.peer.number < s.nextPeer.number)
    (hunborn : history s.nextPeer past = []) (hpeer : h.peer = s.nextPeer) {table : TableSettings}
    (hP : P table hs h) :
    Everyone P (past ++ marked s.nextPeer hs)
      { s with handlers := s.handlers ++ [h], nextPeer := s.nextPeer.next } := by
  have hself : history s.nextPeer (past ++ marked s.nextPeer hs) = hs := by
    rw [history_self, hunborn, List.nil_append]
  constructor
  · intro x hx
    obtain hx | hx := List.mem_append.1 hx
    · have hne : s.nextPeer ≠ x.peer := fun heq => Nat.lt_irrefl _ (heq ▸ hissued x hx)
      rw [history_other hne]
      exact hall.lives x hx
    · obtain rfl := List.mem_singleton.1 hx
      rw [hpeer, hself]
      exact ⟨table, hP⟩
  · intro peer hsome
    by_cases heq : s.nextPeer = peer
    · subst heq
      rw [hself]
      exact ⟨table, h, hpeer, hP⟩
    · rw [history_other heq] at hsome ⊢
      exact hall.every peer hsome

theorem Everyone.forgets {kept gone : List Handler} (hall : Everyone P past s)
    (hperm : s.handlers.Perm (gone ++ kept)) : Everyone P past { s with handlers := kept } where
  lives h hh := hall.lives h (hperm.mem_iff.2 (List.mem_append_right gone hh))
  every := hall.every

theorem Everyone.said (hall : Everyone P past s) (x : Happening) :
    Everyone P (past ++ [⟨none, x⟩]) s := by
  have hhistory : ∀ peer, history peer (past ++ [⟨none, x⟩]) = history peer past := by
    intro peer
    rw [history_append]
    exact List.append_nil _
  constructor
  · intro h hh
    rw [hhistory]
    exact hall.lives h hh
  · intro peer
    rw [hhistory]
    exact hall.every peer

end Everyone

theorem Chronicle.turns {before after : List Handler} {h h' : Handler} {hs : List Happening}
    (hc : Chronicle past { s with handlers := before ++ h :: after }) (hway : Way Turn h hs h') :
    Chronicle (past ++ marked h.peer hs) { s with handlers := before ++ h' :: after } := by
  have hpeer := peer_of_way hway
  have hmem : h ∈ before ++ h :: after := by simp
  obtain ⟨table, hlife⟩ := hc.lives h hmem
  have hpeers : (before ++ h' :: after).map (·.peer) = (before ++ h :: after).map (·.peer) := by
    simp [hpeer]
  refine ⟨hc.toEveryone.turns hc.distinct hpeer (hlife.of_way hway), ?_, ?_, ?_,
    silent_marked hc.silent, ?_, ?_⟩
  · rw [hpeers]
    exact hc.distinct
  · intro x hx
    rcases eq_or_other hc.distinct hx with rfl | ⟨hx, -⟩
    · rw [hpeer]
      exact hc.issued h hmem
    · exact hc.issued x hx
  · intro peer hle
    have hne : h.peer ≠ peer := by
      rintro rfl
      exact Nat.not_le.2 (hc.issued h hmem) hle
    rw [history_other hne]
    exact hc.unborn peer hle
  · rw [happenings_append, happenings_marked, openedSockets_append, takenSockets_append,
      closedSockets_append, perm_account_iff hc.sockets]
    simp only [List.flatMap_append, List.flatMap_cons]
    exact perm_account_frame _ _ (hlife.sockets_of_way hway)
  · rw [happenings_append, happenings_marked, receivedWriters_append, takenWriters_append,
      releasedWriters_append, perm_account_iff hc.writers]
    simp only [List.flatMap_append, List.flatMap_cons]
    exact perm_account_frame _ _ (hlife.writers_of_way hway)

theorem Chronicle.begins {h : Handler} {hs : List Happening} {table : TableSettings}
    {timeout : Duration} {now : Instant} (hc : Chronicle past s) (hvalid : table.validate = .ok ())
    (hbegins : Begins (new s.instanceId s.nextPeer table s.frameBuffer timeout now) hs h) :
    Chronicle (past ++ marked s.nextPeer hs)
      { s with handlers := s.handlers ++ [h], nextPeer := s.nextPeer.next } := by
  have hpeer : h.peer = s.nextPeer := hbegins.spec.1
  have hlt := s.nextPeer.number_lt_next
  have hlife := Life.begins hvalid hbegins
  have heveryone := hc.toEveryone.begins hc.issued (hc.unborn _ (Nat.le_refl _)) hpeer hlife
  refine ⟨heveryone, ?_, ?_, ?_, silent_marked hc.silent, ?_, ?_⟩
  · rw [List.map_append, List.nodup_append]
    refine ⟨hc.distinct, by simp, ?_⟩
    simp only [List.mem_map, List.map_cons, List.map_nil, List.mem_singleton]
    rintro _ ⟨x, hx, rfl⟩ _ rfl heq
    rw [hpeer] at heq
    exact Nat.lt_irrefl _ (heq ▸ hc.issued x hx)
  · intro x hx
    rcases List.mem_append.1 hx with hx | hx
    · exact Nat.lt_trans (hc.issued x hx) hlt
    · obtain rfl := List.mem_singleton.1 hx
      rw [hpeer]
      exact hlt
  · intro peer hle
    have hlt : s.nextPeer.number < peer.number := Nat.lt_of_lt_of_le hlt hle
    have hne : s.nextPeer ≠ peer := by
      rintro rfl
      exact Nat.lt_irrefl _ hlt
    rw [history_other hne]
    exact hc.unborn peer (Nat.le_of_lt hlt)
  · rw [happenings_append, happenings_marked, openedSockets_append, takenSockets_append,
      closedSockets_append, perm_account_iff hc.sockets]
    have hsockets : (openedSockets hs ++ []).Perm
        (h.ownedSockets ++ takenSockets hs ++ closedSockets hs) := by simpa using hlife.sockets
    simpa using perm_account_frame (s.handlers.flatMap ownedSockets) [] hsockets
  · rw [happenings_append, happenings_marked, receivedWriters_append, takenWriters_append,
      releasedWriters_append, perm_account_iff hc.writers]
    have hwriters : (receivedWriters hs ++ []).Perm
        (h.ownedWriters ++ takenWriters hs ++ releasedWriters hs) := by simpa using hlife.writers
    simpa using perm_account_frame (s.handlers.flatMap ownedWriters) [] hwriters

theorem Chronicle.forgets {gone kept : List Handler} (hc : Chronicle past s)
    (hperm : s.handlers.Perm (gone ++ kept)) (hover : ∀ h ∈ gone, ¬h.AtWork) :
    Chronicle past { s with handlers := kept } := by
  have hkept : ∀ h ∈ kept, h ∈ s.handlers := fun h hh =>
    hperm.mem_iff.2 (List.mem_append_right gone hh)
  have hsockets : (s.handlers.flatMap ownedSockets).Perm (kept.flatMap ownedSockets) := by
    apply (hperm.flatMap_right ownedSockets).trans
    have hnone : gone.flatMap ownedSockets = [] := by
      apply List.flatMap_eq_nil_iff.2
      intro h hh
      obtain ⟨table, hlife⟩ := hc.lives h (hperm.mem_iff.2 (List.mem_append_left kept hh))
      exact ownedSockets_of_over hlife.sound (hover h hh)
    rw [List.flatMap_append, hnone, List.nil_append]
  have hwriters : (s.handlers.flatMap ownedWriters).Perm (kept.flatMap ownedWriters) := by
    apply (hperm.flatMap_right ownedWriters).trans
    have hnone : gone.flatMap ownedWriters = [] := by
      apply List.flatMap_eq_nil_iff.2
      intro h hh
      obtain ⟨table, hlife⟩ := hc.lives h (hperm.mem_iff.2 (List.mem_append_left kept hh))
      exact ownedWriters_of_over hlife.sound (hover h hh)
    rw [List.flatMap_append, hnone, List.nil_append]
  refine ⟨hc.toEveryone.forgets hperm, ?_, fun h hh => hc.issued h (hkept h hh), hc.unborn,
    hc.silent, ?_, ?_⟩
  · have hdistinct := (hperm.map (·.peer)).nodup_iff.1 hc.distinct
    rw [List.map_append, List.nodup_append] at hdistinct
    exact hdistinct.2.1
  · exact hc.sockets.trans ((hsockets.append_right _).append_right _)
  · exact hc.writers.trans ((hwriters.append_right _).append_right _)

theorem Chronicle.said {x : Happening} (hc : Chronicle past s) (hsilent : x.IsSilent) :
    Chronicle (past ++ [⟨none, x⟩]) s := by
  have heveryone := hc.toEveryone.said x
  have hstill := Happening.still_of_socket? hsilent.socket
  obtain ⟨hreceived, hreleased, htaken⟩ := Happening.of_writer? hsilent.writer
  have hopened : openedSockets [x] = [] := by simp [openedSockets, openings, hstill.opening]
  refine ⟨heveryone, hc.distinct, hc.issued, ?_, ?_, ?_, ?_⟩
  · intro peer hle
    rw [history_append, hc.unborn peer hle]
    rfl
  · intro e he hnone
    rcases List.mem_append.1 he with he | he
    · exact hc.silent e he hnone
    · rw [List.mem_singleton] at he
      exact he ▸ hsilent
  · have htaken : takenSockets [x] = [] := by simp [takenSockets, hstill.taken]
    have hclosed : closedSockets [x] = [] := by simp [closedSockets, hstill.closed]
    simpa [hopened, htaken, hclosed] using hc.sockets
  · have hreceived : receivedWriters [x] = [] := by simp [receivedWriters, hreceived]
    have htaken : takenWriters [x] = [] := by simp [takenWriters, htaken]
    have hreleased : releasedWriters [x] = [] := by simp [releasedWriters, hreleased]
    simpa [hreceived, htaken, hreleased] using hc.writers

theorem Step.chronicle {s' : House} {entries : List Entry} (hstep : Step s entries s')
    (hc : Chronicle past s) : Chronicle (past ++ entries) s' := by
  cases hstep with
  | turns hway => exact hc.turns hway
  | begins hvalid hbegins => exact hc.begins hvalid hbegins
  | forgets _ hperm hover =>
    rw [List.append_nil]
    exact hc.forgets hperm hover
  | silent _ hsilent => exact hc.said hsilent

theorem chronicle_of_way {s' : House} {entries : List Entry} (hway : Way Step s entries s')
    (hc : Chronicle past s) : Chronicle (past ++ entries) s' :=
  hway.invariant (fun _ _ _ _ hc hstep => hstep.chronicle hc) hc

/-- What every handler has when it begins, and keeps in its turns, everyone has. -/
theorem everyone_of_way {P : TableSettings → List Happening → Handler → Prop} {s' : House}
    {entries : List Entry} (hway : Way Step s entries s') (hc : Chronicle past s)
    (hbegins : ∀ {peer : PeerId} {table : TableSettings} {timeout : Duration} {now : Instant}
      {hs : List Happening} {h : Handler}, table.validate = .ok () →
      Begins (new s.instanceId peer table s.frameBuffer timeout now) hs h → P table hs h)
    (hturn : ∀ {table : TableSettings} {past hs : List Happening} {h h' : Handler}, P table past h →
      Turn h hs h' → P table (past ++ hs) h')
    (hall : Everyone P past s) : Everyone P (past ++ entries) s' := by
  have hend := hway.invariant (I := fun past s' => Chronicle past s' ∧ Everyone P past s' ∧
    s'.instanceId = s.instanceId ∧ s'.frameBuffer = s.frameBuffer) ?_ ⟨hc, hall, rfl, rfl⟩
  · exact hend.2.1
  · rintro past t entries t' ⟨hc, hall, hid, hbuffer⟩ hstep
    refine ⟨hstep.chronicle hc, ?_⟩
    cases hstep with
    | @turns t before after h h' hs hway =>
      obtain ⟨table, hP⟩ := hall.lives h (by simp)
      have hP' := hway.invariant (I := fun hs h => P table hs h) (fun _ _ _ _ => hturn) hP
      exact ⟨hall.turns hc.distinct (peer_of_way hway) hP', hid, hbuffer⟩
    | begins hvalid hbegun =>
      rw [hid, hbuffer] at hbegun
      exact ⟨hall.begins hc.issued (hc.unborn _ (Nat.le_refl _)) hbegun.spec.1
        (hbegins hvalid hbegun), hid, hbuffer⟩
    | forgets gone hperm =>
      rw [List.append_nil]
      exact ⟨hall.forgets hperm, hid, hbuffer⟩
    | silent => exact ⟨hall.said _, hid, hbuffer⟩

end House

end ReplicaHandshake
