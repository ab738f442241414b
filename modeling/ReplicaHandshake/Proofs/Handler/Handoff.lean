import ReplicaHandshake.Proofs.Handler.Course

/-!
# The order of the handoff

What a handler has handed over is its writer and then the first of its sockets, in the order of its
masters (`Life.inOrder`).  Nothing is offered before its turn, before the data stream has started or
after the handler was stopped (`Life.offers`).  The handler streams from the poll on in which the
last item is taken (`Life.streams`).
-/

namespace ReplicaHandshake.Handler

variable {h h' : Handler} {past hs : List Happening} {table : TableSettings}

/-! ### Offers -/

/-- There is no offer to the multiplexer. -/
def Unoffered (hs : List Happening) : Prop :=
  ∀ x ∈ hs, x.isOffer = false

theorem unoffered_of_isWord (h : ∀ x ∈ hs, x.isWord = false) : Unoffered hs :=
  fun x hx => (Happening.of_isWord (h x hx)).2.2.2

theorem Unoffered.append {hs' : List Happening} (h : Unoffered hs) (h' : Unoffered hs') :
    Unoffered (hs ++ hs') :=
  fun x hx => (List.mem_append.1 hx).elim (h x) (h' x)

theorem Unoffered.handed (h : Unoffered hs) (peer : PeerId) : handed peer hs = [] :=
  List.filterMap_eq_nil_iff.2 fun x hx => Happening.handed?_of_isOffer (h x hx)

theorem unoffered_of_traffic {c : Connection} (h : ∀ x ∈ hs, Connection.Traffic c x) :
    Unoffered hs :=
  unoffered_of_isWord fun x hx => (h x hx).isWord

theorem unoffered_of_hear {c c' : Connection} {event : ConnectionEvent}
    (h : Connection.Hear c hs event c') : Unoffered hs := by
  cases h with
  | accept => simp [Unoffered, Happening.isOffer]

theorem Resolves.unoffered {rows : UInt64} (h : h.Resolves hs rows h') : Unoffered hs := by
  cases h <;> simp [Unoffered, Happening.isOffer]

theorem Supplies.unoffered {tableName : String} {owned : Option TableWriter}
    {start : StartOfReplicationStream} {writer : TableWriter}
    (h : Supplies tableName owned start hs writer) : Unoffered hs := by
  cases h <;> simp [Unoffered, Happening.isOffer]

/-- The writer is offered. -/
def OffersWriter (h : Handler) (hs : List Happening) : Prop :=
  ∃ writer taken back, h.phase = .handingOff ∧ h.writerTransferred = false ∧
    h.writer = some writer ∧
    hs = .answered (.offerWriter h.peer h.masterTableId writer) taken :: back ∧ Unoffered back

/-- The socket is offered that is next, and all its frames have been written. -/
def OffersSocket (h : Handler) (hs : List Happening) : Prop :=
  ∃ given c left handoff taken back, h.Hands given c left ∧
    c.socketId = some handoff.socket ∧ handoff.buffered = c.held ∧ c.outbound.pending = [] ∧
    hs = .answered (.offerSocket h.peer handoff) taken :: back ∧
    Unoffered back ∧ ∀ x ∈ back, x.socket? = none

theorem Fault.unoffered {f : Failure} (hfault : Fault h hs f h') : Unoffered hs := by
  cases hfault with
  | timeout | tableExists | openWriter | mismatch => simp [Unoffered, Happening.isOffer]
  | connection _ _ hfault | handoff _ hfault => exact unoffered_of_traffic hfault.traffic.2
  | divergence _ _ hhear => exact unoffered_of_hear hhear
  | createTable _ _ hhear =>
    exact (unoffered_of_hear hhear).append (by simp [Unoffered, Happening.isOffer])
  | request _ _ _ hresolves hrequest =>
    refine hresolves.unoffered.append ?_
    obtain ⟨-, rfl | ⟨back, rfl, htraffic⟩⟩ := hrequest.traffic
    · simp [Unoffered]
    · exact List.forall_mem_cons.2 ⟨rfl, unoffered_of_traffic htraffic⟩

theorem offersSocket_of_offer {given left : List Connection} {c c' : Connection} {taken : Bool}
    {back : List Happening} (hsound : h.Sound) (hhands : h.Hands given c left)
    (hoffer : Connection.Offer c hs taken c')
    (hback : Unoffered back ∧ ∀ x ∈ back, x.socket? = none) : OffersSocket h (hs ++ back) := by
  obtain ⟨socket, hid, rfl, hpending, -⟩ := hoffer.spec (hsound.kept_of_hands hhands)
  have hpeer := (hsound.same c (mem_of_split hhands.2.2.1)).1
  exact ⟨given, c, left, ⟨socket, c.held⟩, taken, back, hhands, hid, rfl, hpending,
    by rw [← hpeer]; rfl, hback⟩

theorem Move.offers (hmove : Move h hs h') (hsound : h.Sound) :
    Unoffered hs ∨ h'.phase = h.phase ∧ (OffersWriter h hs ∨ OffersSocket h hs) := by
  cases hmove with
  | exchange _ _ hstep => exact .inl (unoffered_of_traffic hstep.traffic.2)
  | tableInfo _ _ hhear => exact .inl (unoffered_of_hear hhear)
  | allConnected | waits | streams | stopAccepted | stopRefused =>
    exact .inl (by simp [Unoffered, Happening.isOffer])
  | rendezvous _ _ _ hresolves hrequest =>
    obtain ⟨-, back, rfl, htraffic⟩ := hrequest.traffic
    refine .inl ((hresolves.unoffered.append ?_).append (by simp [Unoffered, Happening.isOffer]))
    exact List.forall_mem_cons.2 ⟨rfl, unoffered_of_traffic htraffic⟩
  | streamStart _ _ hhear hsupplies =>
    refine .inl (((unoffered_of_hear hhear).append hsupplies.unoffered).append ?_)
    simp [Unoffered, Happening.isOffer]
  | writerTaken hphase hfree hwriter =>
    exact .inr ⟨rfl, .inl ⟨_, true, [], hphase, hfree, hwriter, rfl, by simp [Unoffered]⟩⟩
  | writerRefused hphase hfree hwriter =>
    exact .inr ⟨rfl, .inl ⟨_, false, _, hphase, hfree, hwriter, rfl,
      by simp [Unoffered, Happening.isOffer]⟩⟩
  | write _ hwrite => exact .inl (unoffered_of_traffic hwrite.traffic.2)
  | socketTaken hhands hoffer =>
    have hback : Unoffered [] ∧ ∀ x ∈ ([] : List Happening), x.socket? = none := by simp [Unoffered]
    have hoffers := offersSocket_of_offer hsound hhands hoffer hback
    rw [List.append_nil] at hoffers
    exact .inr ⟨rfl, .inr hoffers⟩
  | socketRefused hhands hoffer =>
    exact .inr ⟨rfl, .inr (offersSocket_of_offer hsound hhands hoffer
      (by simp [Unoffered, Happening.isOffer, Happening.socket?]))⟩
  | @fails h₁ _ f hfault =>
    exact .inl (hfault.unoffered.append (unoffered_of_isWord (h₁.stopForHappenings_isWord f.kind)))

/-- By a turn nothing is offered, or what is next, and the handler goes on to hand over. -/
theorem Turn.offers (hturn : Turn h hs h') (hsound : h.Sound) :
    Unoffered hs ∨ h'.phase = h.phase ∧ (OffersWriter h hs ∨ OffersSocket h hs) := by
  cases hturn with
  | move hmove => exact hmove.offers hsound
  | stops => exact .inl (unoffered_of_isWord h.stopHappenings_isWord)
  | loses => exact .inl (unoffered_of_isWord (stopForHappenings_isWord _ _))
  | letsGo | finishes | concludes => exact .inl (by simp [Unoffered, Happening.isOffer])

/-- Only while it hands over a handler offers anything. -/
theorem Turn.unoffered (hturn : Turn h hs h') (hsound : h.Sound) (hphase : h.phase ≠ .handingOff) :
    Unoffered hs := by
  obtain hnone | ⟨-, ⟨_, _, _, hphase', -⟩ | ⟨_, _, _, _, _, _, hhands, -⟩⟩ := hturn.offers hsound
  · exact hnone
  · exact absurd hphase' hphase
  · exact absurd hhands.1 hphase

/-! ### The state of the handoff -/

/-- How many connections the multiplexer has taken. -/
def takenCount (h : Handler) : Nat :=
  h.connections.countP (·.isTransferred)

/-- The data stream has started on the first socket. -/
def Started (past : List Happening) : Prop :=
  ∃ first start, (openedSockets past).head? = some first ∧
    .noted (.accepted (some first) (.startOfReplicationStream start)) ∈ past

/-- The multiplexer has the writer and so many sockets, the first ones. -/
def HandedUpTo (peer : PeerId) (past : List Happening) (count : Nat) : Prop :=
  ∃ writer ∈ receivedWriters past,
    handed peer past = .writer writer :: ((openedSockets past).take count).map .socket

/-- What was done while the handler hands over, and after that. -/
structure Delivers (past : List Happening) (h : Handler) : Prop where
  started : Started past
  items : if h.writerTransferred then HandedUpTo h.peer past h.takenCount
    else handed h.peer past = []

/-- The handler hands over, or has done so. -/
def IsDelivering (h : Handler) : Prop :=
  h.phase = .handingOff ∨ h.phase = .streaming

theorem Started.mono (h : Started past)
    (hopened : openedSockets (past ++ hs) = openedSockets past) :
    Started (past ++ hs) := by
  obtain ⟨first, start, hfirst, hstart⟩ := h
  exact ⟨first, start, by rw [hopened, hfirst], List.mem_append_left _ hstart⟩

theorem HandedUpTo.mono {peer : PeerId} {count : Nat} (h : HandedUpTo peer past count)
    (hopened : openedSockets (past ++ hs) = openedSockets past) (hhanded : handed peer hs = []) :
    HandedUpTo peer (past ++ hs) count := by
  obtain ⟨writer, hwriter, hitems⟩ := h
  refine ⟨writer, by simp [hwriter], ?_⟩
  rw [handed_append, hhanded, List.append_nil, hopened, hitems]

theorem Delivers.mono (h₀ : Delivers past h)
    (hopened : openedSockets (past ++ hs) = openedSockets past) (hhanded : handed h.peer hs = [])
    (hpeer : h'.peer = h.peer) (hwriter : h'.writerTransferred = h.writerTransferred)
    (hcount : h'.takenCount = h.takenCount) : Delivers (past ++ hs) h' := by
  refine ⟨h₀.started.mono hopened, ?_⟩
  have hitems := h₀.items
  rw [hwriter, hpeer, hcount]
  split at hitems
  next htransferred =>
    rw [if_pos htransferred]
    exact hitems.mono hopened hhanded
  next hfree =>
    rw [if_neg hfree, handed_append, hitems, hhanded, List.append_nil]

theorem takenCount_put {before after : List Connection} {c c' : Connection}
    (hconnections : h.connections = before ++ c :: after)
    (hsame : c'.isTransferred = c.isTransferred) :
    (h.put before c' after).takenCount = h.takenCount := by
  simp [takenCount, hconnections, List.countP_append, List.countP_cons, hsame]

/-- As many connections were taken as stand before the one that is next. -/
theorem Hands.takenCount {given left : List Connection} {c : Connection} (hsound : h.Sound)
    (hhands : h.Hands given c left) : h.takenCount = given.length := by
  obtain ⟨hphase, -, hconnections, hgiven, hfree⟩ := hhands
  have horder := (hsound.handsOver hphase).order
  rw [hconnections, List.pairwise_append, List.pairwise_cons] at horder
  have hleft : left.countP (·.isTransferred) = 0 := by
    apply List.countP_eq_zero.2
    intro x hx
    simp [(horder.2.1.1 x hx hfree).1]
  rw [Handler.takenCount, hconnections, List.countP_append, List.countP_cons, hleft,
    List.countP_eq_length.2 hgiven]
  simp [hfree]

/-- The socket that is next is the one that was opened in that place. -/
theorem Life.socket_at (hlife : Life table past h) (hwork : h.AtWork)
    {before after : List Connection} {c : Connection}
    (hconnections : h.connections = before ++ c :: after) :
    (openedSockets past)[before.length]? = c.socketId := by
  obtain ⟨hroster, -⟩ := hlife.roster hwork
  have hat := congrArg (·[before.length]?) hroster
  simp only [Handler.roster, rosterOf, hconnections, List.map_append, List.map_cons] at hat
  rw [List.getElem?_append_right (by simp)] at hat
  simp only [List.length_map, Nat.sub_self, List.getElem?_cons_zero, List.getElem?_map] at hat
  rw [openedSockets, List.getElem?_map]
  cases hopening : (openings past)[before.length]? with
  | none => simp [hopening] at hat
  | some o =>
    rw [hopening] at hat
    simpa using (congrArg (Option.map Prod.snd) hat).symm

theorem Life.mem_receivedWriters (hlife : Life table past h) {writer : TableWriter}
    (hwriter : h.writer = some writer) : writer ∈ receivedWriters past := by
  rw [hlife.writers.mem_iff, List.append_assoc]
  exact List.mem_append_left _ (by simp [ownedWriters, hwriter])

theorem Delivers.writerTaken (hlife : Life table past h) (h₀ : Delivers past h)
    {writer : TableWriter} (hphase : h.phase = .handingOff) (hfree : h.writerTransferred = false)
    (hwriter : h.writer = some writer) :
    Delivers (past ++ [.answered (.offerWriter h.peer h.masterTableId writer) true])
      { h with writer := none, writerTransferred := true } := by
  have hopened : openedSockets (past ++
      [.answered (.offerWriter h.peer h.masterTableId writer) true]) = openedSockets past :=
    (Turn.move (.writerTaken hphase hfree hwriter)).openedSockets_eq hlife.sound past
  refine ⟨h₀.started.mono hopened, ?_⟩
  have hitems := h₀.items
  rw [if_neg (by simp [hfree])] at hitems
  have hcount : h.takenCount = 0 := by
    obtain hgiven | ⟨-, hall⟩ := (hlife.sound.handsOver hphase).writer
    · simp [hfree] at hgiven
    · exact List.countP_eq_zero.2 fun c hc => by simp [(hall c hc).1]
  rw [if_pos rfl]
  refine ⟨writer, by simp [hlife.mem_receivedWriters hwriter], ?_⟩
  show handed h.peer _ = .writer writer :: (List.take h.takenCount _).map .socket
  rw [handed_append, hitems, hcount]
  simp [handed, Happening.handed?]

theorem Delivers.socketTaken (hlife : Life table past h) (h₀ : Delivers past h)
    {given left : List Connection} {c c' : Connection} (hhands : h.Hands given c left)
    (hoffer : Connection.Offer c hs true c') : Delivers (past ++ hs) (h.put given c' left) := by
  have hopened := (Turn.move (.socketTaken hhands hoffer)).openedSockets_eq hlife.sound past
  refine ⟨h₀.started.mono hopened, ?_⟩
  have hitems := h₀.items
  rw [if_pos hhands.2.1] at hitems
  rw [writerTransferred_put, if_pos hhands.2.1]
  obtain ⟨socket, hid, rfl, -, -, -, hstate, -⟩ :=
    hoffer.spec (hlife.sound.kept_of_hands hhands)
  have hpeer := (hlife.sound.same c (mem_of_split hhands.2.2.1)).1
  have hcount : (h.put given c' left).takenCount = given.length + 1 := by
    have hold := hhands.takenCount hlife.sound
    have hnew : c'.isTransferred = true := by simp [Connection.isTransferred, hstate]
    simp only [Handler.takenCount, hhands.2.2.1, connections_put, List.countP_append,
      List.countP_cons, hhands.2.2.2.2, hnew, Bool.false_eq_true, if_true, if_false] at hold ⊢
    omega
  rw [hcount]
  rw [hhands.takenCount hlife.sound] at hitems
  obtain ⟨writer, hwriter, hitems⟩ := hitems
  have hat := hlife.socket_at hhands.atWork hhands.2.2.1
  rw [hid] at hat
  refine ⟨writer, by simp [hwriter], ?_⟩
  rw [peer_put, handed_append, hitems, hopened, List.take_add_one, hat]
  simp [handed, Happening.handed?, hpeer]

/-- The handler has not come to the handoff. -/
def IsEarly (h : Handler) : Prop :=
  h.IsGathering ∨ h.phase = .requestingStream

theorem IsEarly.phase (hearly : h.IsEarly) : h.phase ≠ .handingOff := by
  rcases hearly with (hphase | hphase) | hphase <;> simp [hphase]

theorem IsEarly.atWork (hearly : h.IsEarly) : h.AtWork := by
  rcases hearly with (hphase | hphase) | hphase <;> exact atWork_of_phase hphase (by decide) rfl

theorem IsDelivering.atWork (hdelivering : h.IsDelivering) : h.AtWork := by
  rcases hdelivering with hphase | hphase <;> exact atWork_of_phase hphase (by decide) rfl

/-- A handler that is early after a turn was early before. -/
theorem Turn.isEarly (hturn : Turn h hs h') (hearly : h'.IsEarly) : h.IsEarly := by
  cases hturn.move_of_atWork hearly.atWork with
  | exchange => exact hearly
  | tableInfo hphase => exact .inl hphase
  | allConnected hphase => exact .inl (.inl hphase)
  | rendezvous hphase => exact .inl (.inr hphase)
  | streamStart | streams => simp [IsEarly, IsGathering] at hearly
  | writerTaken hphase | writerRefused hphase | stopAccepted hphase | stopRefused hphase =>
    simp [IsEarly, IsGathering, hphase] at hearly
  | write hhands | socketTaken hhands | socketRefused hhands | waits hhands =>
    simp [IsEarly, IsGathering, hhands.1] at hearly
  | fails => exact absurd hearly.atWork (not_atWork_stopping rfl)

theorem unoffered_of_overture (h : ∀ x ∈ hs, Overture x) : Unoffered hs :=
  unoffered_of_isWord fun x hx => (h x hx).isWord

theorem Life.handed_early (hlife : Life table past h) : h.IsEarly → handed h.peer past = [] := by
  refine hlife.invariant ?_ ?_ ?_
  · intro hs h hopened _
    exact (unoffered_of_overture hopened.overture).handed _
  · intro hs h hrefused hearly
    simp [IsEarly, IsGathering, hrefused.phase] at hearly
  · intro past h hs h' hlife ih hturn hearly
    have hearly₀ := hturn.isEarly hearly
    rw [hturn.name.1, handed_append, ih hearly₀,
      (hturn.unoffered hlife.sound hearly₀.phase).handed, List.append_nil]

theorem Turn.delivers (hturn : Turn h hs h') (hlife : Life table past h)
    (ih : h.IsDelivering → Delivers past h) (hdelivering : h'.IsDelivering) :
    Delivers (past ++ hs) h' := by
  have hopened := hturn.openedSockets_eq hlife.sound past
  cases hturn.move_of_atWork hdelivering.atWork with
  | exchange hpolls =>
    rcases hpolls with (hphase | hphase) | ⟨hphase, -⟩ <;>
      simp [IsDelivering, hphase] at hdelivering
  | tableInfo hphase =>
    rcases hphase with hphase | hphase <;> simp [IsDelivering, hphase] at hdelivering
  | allConnected | rendezvous => simp [IsDelivering] at hdelivering
  | @streamStart first first' rest hs₁ hs₂ start _ hphase hconnections hhear hsupplies =>
    have hrequests := hlife.sound.requests hphase
    have hfirst := hlife.head (atWork_of_phase hphase (by decide) rfl) hconnections
    obtain ⟨socket, hid⟩ := Option.isSome_iff_exists.1 hfirst.1
    refine ⟨⟨socket, start, ?_, ?_⟩, ?_⟩
    · rw [hopened, ← hfirst.2, hid]
    · have hheard : .noted (.accepted (some socket) (.startOfReplicationStream start)) ∈ hs₁ := by
        rw [← hid]
        cases hhear with
        | accept _ _ haccept => cases haccept; simp
      simp [hheard]
    · have hearly : h.IsEarly := .inr hphase
      have hunoffered :=
        (Turn.move (.streamStart hphase hconnections hhear hsupplies)).unoffered hlife.sound
          hearly.phase
      rw [if_neg (by simp [hrequests.writerTransferred])]
      show handed h.peer _ = []
      rw [handed_append, hlife.handed_early hearly, hunoffered.handed, List.append_nil]
  | writerTaken hphase hfree hwriter =>
    exact (ih (.inl hphase)).writerTaken hlife hphase hfree hwriter
  | writerRefused hphase => exact (ih (.inl hphase)).mono hopened rfl rfl rfl rfl
  | write hhands hwrite =>
    refine (ih (.inl hhands.1)).mono hopened ?_ rfl rfl ?_
    · exact (unoffered_of_traffic hwrite.traffic.2).handed _
    · refine takenCount_put hhands.2.2.1 ?_
      cases hwrite <;> rfl
  | socketTaken hhands hoffer => exact (ih (.inl hhands.1)).socketTaken hlife hhands hoffer
  | socketRefused hhands hoffer =>
    obtain ⟨socket, -, rfl, -, -, -, hstate, -⟩ :=
      hoffer.spec (hlife.sound.kept_of_hands hhands)
    refine (ih (.inl hhands.1)).mono hopened rfl rfl rfl (takenCount_put hhands.2.2.1 ?_)
    rw [Connection.isTransferred, hstate]
    rfl
  | waits hhands => exact (ih (.inl hhands.1)).mono hopened rfl rfl rfl rfl
  | streams _ hphase => exact (ih (.inl hphase)).mono hopened rfl rfl rfl rfl
  | fails => exact absurd hdelivering.atWork (not_atWork_stopping rfl)
  | stopAccepted hphase | stopRefused hphase => simp [IsDelivering, hphase] at hdelivering

theorem Life.delivers (hlife : Life table past h) : h.IsDelivering → Delivers past h := by
  refine hlife.invariant ?_ ?_ ?_
  · intro hs h hopened hdelivering
    simp [IsDelivering, hopened.phase] at hdelivering
  · intro hs h hrefused hdelivering
    simp [IsDelivering, hrefused.phase] at hdelivering
  · intro past h hs h' hlife ih hturn hdelivering
    exact hturn.delivers hlife ih hdelivering

/-! ### Before stopping -/

/-- The handler has not turned to stopping. -/
def Unstopped (hs : List Happening) : Prop :=
  ∀ x ∈ hs, x.entered? ≠ some Phase.stopping.name

theorem Life.unstopped (hlife : Life table past h) (hwork : h.AtWork) : Unstopped past := by
  intro x hx hentered
  have hmem : Phase.stopping.name ∈ phases past := List.mem_filterMap.2 ⟨x, hx, hentered⟩
  exact hlife.stopping_iff.1 hmem hwork

/-! ### In turn -/

/-- The multiplexer may be offered something of a handler of this table. -/
structure MayOffer (table : TableSettings) (past : List Happening) : Prop where
  masters : (openings past).map (·.1) = table.masters
  started : Started past
  unstopped : Unstopped past

/-- The writer is offered first, for the table that was asked for, and then one socket after the
other, each when all before it were taken and it was not. -/
def OffersInTurn (table : TableSettings) (peer : PeerId) (past : List Happening) (x : Happening) :
    Prop :=
  (∀ p id writer taken, x = .answered (.offerWriter p id writer) taken →
    p = peer ∧ MayOffer table past ∧ handed peer past = [] ∧ writer ∈ receivedWriters past ∧
      ∃ request, requests past = [request] ∧ id = request.masterTableId) ∧
  ∀ p handoff taken, x = .answered (.offerSocket p handoff) taken →
    p = peer ∧ MayOffer table past ∧
      ∃ count, HandedUpTo peer past count ∧ (openedSockets past)[count]? = some handoff.socket

theorem along_of_unoffered {peer : PeerId} (h : Unoffered hs) :
    Along (OffersInTurn table peer) past hs := by
  refine along_of_forall fun x hx past => ⟨?_, ?_⟩
  · rintro p id writer taken rfl
    cases h _ hx
  · rintro p handoff taken rfl
    cases h _ hx

theorem Life.mayOffer (hlife : Life table past h) (hphase : h.phase = .handingOff) :
    MayOffer table past := by
  have hwork : h.AtWork := atWork_of_phase hphase (by decide) rfl
  exact ⟨(hlife.roster hwork).2, (hlife.delivers (.inl hphase)).started, hlife.unstopped hwork⟩

/-- All its life a handler offers everything in its turn. -/
theorem Life.offers (hlife : Life table past h) : Along (OffersInTurn table h.peer) [] past := by
  refine hlife.invariant ?_ ?_ ?_
  · intro hs h hopened
    exact along_of_unoffered (unoffered_of_overture hopened.overture)
  · intro hs h hrefused
    obtain ⟨front, back, rfl, hfront, -, hback, -⟩ := hrefused.happenings
    exact along_of_unoffered ((unoffered_of_overture hfront).append
      (unoffered_of_isWord fun x hx => (hback x hx).2))
  · intro past h hs h' hlife ih hturn
    rw [hturn.name.1]
    refine along_append.2 ⟨ih, ?_⟩
    rw [List.nil_append]
    obtain hnone | ⟨-, ⟨writer, taken, back, hphase, hfree, hwriter, rfl, hback⟩ |
      ⟨given, c, left, handoff, taken, back, hhands, hid, -, -, rfl, hback, -⟩⟩ :=
        hturn.offers hlife.sound
    · exact along_of_unoffered hnone
    · refine ⟨⟨?_, by simp⟩, along_of_unoffered hback⟩
      rintro p id writer' taken' ⟨⟩
      have hitems := (hlife.delivers (.inl hphase)).items
      rw [if_neg (by simp [hfree])] at hitems
      obtain ⟨request, hrequests, hsame⟩ := hlife.asked (.inr (.inl hphase))
      exact ⟨rfl, hlife.mayOffer hphase, hitems, hlife.mem_receivedWriters hwriter,
        request, hrequests, hsame.symm⟩
    · refine ⟨⟨by simp, ?_⟩, along_of_unoffered hback⟩
      rintro p handoff' taken' ⟨⟩
      have hitems := (hlife.delivers (.inl hhands.1)).items
      rw [if_pos hhands.2.1, hhands.takenCount hlife.sound] at hitems
      refine ⟨rfl, hlife.mayOffer hhands.1, given.length, hitems, ?_⟩
      rw [hlife.socket_at hhands.atWork hhands.2.2.1, hid]

theorem early_or_delivering (hwork : h.AtWork) : h.IsEarly ∨ h.IsDelivering := by
  rcases gathering_or_asked hwork with hgathering | hrequesting | hdelivering
  · exact .inl (.inl hgathering)
  · exact .inl (.inr hrequesting)
  · exact .inr hdelivering

/-- What was taken is the front of a list: the writer, and then the sockets that were opened to the
masters, in their order. -/
def InOrder (table : TableSettings) (past : List Happening) (items : List Item) : Prop :=
  (openings past).map (·.1) = table.masters ∧
    ∃ writer ∈ receivedWriters past, items <+: .writer writer :: (openedSockets past).map .socket

theorem HandedUpTo.inOrder {peer : PeerId} {count : Nat} (hitems : HandedUpTo peer past count)
    (hmasters : (openings past).map (·.1) = table.masters) :
    InOrder table past (handed peer past) := by
  obtain ⟨writer, hwriter, hitems⟩ := hitems
  refine ⟨hmasters, writer, hwriter, ?_⟩
  rw [hitems]
  exact List.cons_prefix_cons.2 ⟨rfl, (List.take_prefix count _).map _⟩

/-- All its life a handler has handed over nothing, or its writer and its first sockets. -/
theorem Life.inOrder (hlife : Life table past h) :
    handed h.peer past = [] ∨ InOrder table past (handed h.peer past) := by
  refine hlife.invariant ?_ ?_ ?_
  · intro hs h hopened
    exact .inl ((unoffered_of_overture hopened.overture).handed _)
  · intro hs h hrefused
    obtain ⟨front, back, rfl, hfront, -, hback, -⟩ := hrefused.happenings
    exact .inl (((unoffered_of_overture hfront).append
      (unoffered_of_isWord fun x hx => (hback x hx).2)).handed _)
  · intro past h hs h' hlife ih hturn
    obtain hnone | ⟨hsame, hoffers⟩ := hturn.offers hlife.sound
    · rw [hturn.name.1, handed_append, hnone.handed, List.append_nil]
      refine ih.imp_right ?_
      rintro ⟨hmasters, writer, hwriter, hlead⟩
      refine ⟨?_, writer, ?_, ?_⟩
      · rw [openings_append, (hturn.sockets hlife.sound).1, List.append_nil, hmasters]
      · simp [hwriter]
      · rwa [hturn.openedSockets_eq hlife.sound]
    · have hphase : h'.phase = .handingOff := by
        obtain ⟨_, _, _, hphase, -⟩ | ⟨_, _, _, _, _, _, hhands, -⟩ := hoffers
        · exact hsame.trans hphase
        · exact hsame.trans hhands.1
      have hlife' := hlife.turns hturn
      have hwork : h'.AtWork := atWork_of_phase hphase (by decide) rfl
      have hitems := (hlife'.delivers (.inl hphase)).items
      split at hitems
      · exact .inr (hitems.inOrder (hlife'.roster hwork).2)
      · exact .inl hitems

/-! ### The last item -/

/-- The multiplexer has everything. -/
def HasGivenAll (h : Handler) : Prop :=
  h.writerTransferred = true ∧ ∀ c ∈ h.connections, c.isTransferred

theorem HandedUpTo.length {peer : PeerId} {count : Nat} (hitems : HandedUpTo peer past count)
    (hcount : count ≤ (openedSockets past).length) : (handed peer past).length = count + 1 := by
  obtain ⟨writer, -, hitems⟩ := hitems
  rw [hitems, List.length_cons, List.length_map, List.length_take, Nat.min_eq_left hcount]

theorem Life.hasGivenAll (hlife : Life table past h) (hdelivering : h.IsDelivering) :
    h.HasGivenAll ↔ (handed h.peer past).length = table.masters.length + 1 := by
  obtain ⟨hconnections, hopened⟩ := hlife.length_connections hdelivering.atWork
  have hitems := (hlife.delivers hdelivering).items
  have hle : h.takenCount ≤ h.connections.length := List.countP_le_length
  split at hitems
  next htransferred =>
    rw [hitems.length (by omega), HasGivenAll, ← List.countP_eq_length, ← takenCount]
    simp only [htransferred, true_and]
    omega
  next hfree =>
    rw [hitems, List.length_nil, HasGivenAll]
    simp [hfree]

theorem Life.length_handed (hlife : Life table past h) (hwork : h.AtWork) :
    (handed h.peer past).length ≤ table.masters.length + 1 := by
  rcases early_or_delivering hwork with hearly | hdelivering
  · simp [hlife.handed_early hearly]
  obtain ⟨hconnections, hopened⟩ := hlife.length_connections hwork
  have hitems := (hlife.delivers hdelivering).items
  have hle : h.takenCount ≤ h.connections.length := List.countP_le_length
  split at hitems
  · rw [hitems.length (by omega)]
    omega
  · simp [hitems]

theorem Move.hasGivenAll (hmove : Move h hs h') (hdelivering : h.IsDelivering)
    (hall : h.HasGivenAll) : h'.IsDelivering ∧ h'.HasGivenAll := by
  obtain ⟨hwriter, hconnections⟩ := hall
  have hlast : ∀ {given left : List Connection} {c : Connection}, h.Hands given c left → False := by
    intro given left c hhands
    simpa [hhands.2.2.2.2] using hconnections c (mem_of_split hhands.2.2.1)
  have hpolls : ∀ {before : List Connection}, h.Polls before → False := by
    rintro before ((hphase | hphase) | ⟨hphase, -⟩) <;> simp [IsDelivering, hphase] at hdelivering
  cases hmove with
  | exchange hpoll => exact (hpolls hpoll).elim
  | tableInfo hphase => exact (hpolls (show h.Polls [] from .inl hphase)).elim
  | allConnected hphase | rendezvous hphase | streamStart hphase | stopAccepted hphase
    | stopRefused hphase => simp [IsDelivering, hphase] at hdelivering
  | writerTaken _ hfree | writerRefused _ hfree => simp [hwriter] at hfree
  | write hhands | socketTaken hhands | socketRefused hhands | waits hhands =>
    exact (hlast hhands).elim
  | streams => exact ⟨.inr rfl, hwriter, hconnections⟩
  | fails hfault =>
    cases hfault with
    | timeout _ hphase =>
      rcases hphase with (hphase | hphase) | hphase <;> simp [IsDelivering, hphase] at hdelivering
    | connection hpoll => exact (hpolls hpoll).elim
    | divergence hphase => exact (hpolls (show h.Polls [] from .inl hphase)).elim
    | tableExists hphase | openWriter hphase | mismatch hphase | request hphase
      | createTable hphase => simp [IsDelivering, hphase] at hdelivering
    | handoff hhands => exact (hlast hhands).elim

theorem Life.way_hasGivenAll (hlife : Life table past h) (hway : Way Move h hs h')
    (hbefore : (handed h.peer past).length ≤ table.masters.length)
    (hafter : (handed h.peer (past ++ hs)).length = table.masters.length + 1) :
    h'.IsDelivering ∧ h'.HasGivenAll := by
  have hinvariant : Life table (past ++ hs) h' ∧
      ((handed h'.peer (past ++ hs)).length = table.masters.length + 1 →
        h'.IsDelivering ∧ h'.HasGivenAll) := by
    refine hway.invariant (I := fun past h => Life table past h ∧
      ((handed h.peer past).length = table.masters.length + 1 →
        h.IsDelivering ∧ h.HasGivenAll)) ?_ ⟨hlife, fun hlength => by omega⟩
    rintro past h hs h' ⟨hlife, ih⟩ hmove
    have hlife' := hlife.turns (.move hmove)
    refine ⟨hlife', fun hlength => ?_⟩
    obtain hnone | ⟨hsame, hoffers⟩ := hmove.offers hlife.sound
    · rw [(Turn.move hmove).name.1, handed_append, hnone.handed, List.append_nil] at hlength
      obtain ⟨hdelivering, hall⟩ := ih hlength
      exact hmove.hasGivenAll hdelivering hall
    · have hphase : h.phase = .handingOff := by
        obtain ⟨_, _, _, hphase, -⟩ | ⟨_, _, _, _, _, _, hhands, -⟩ := hoffers
        · exact hphase
        · exact hhands.1
      have hdelivering : h'.IsDelivering := .inl (hsame.trans hphase)
      exact ⟨hdelivering, (hlife'.hasGivenAll hdelivering).2 hlength⟩
  rw [← peer_of_way (hway.mono fun _ _ _ => .move)] at hafter
  exact hinvariant.2 hafter

/-- A handler at work that has not put anything off streams exactly when all items were taken. -/
theorem Life.streaming_iff (hlife : Life table past h) (hsettled : h.Settled) (hwork : h.AtWork) :
    h.phase = .streaming ↔ (handed h.peer past).length = table.masters.length + 1 := by
  rcases early_or_delivering hwork with hearly | hdelivering
  · rw [hlife.handed_early hearly]
    constructor
    · intro hphase
      simp [IsEarly, IsGathering, hphase] at hearly
    · simp
  · rw [← hlife.hasGivenAll hdelivering]
    constructor
    · intro hphase
      have hstreams := hlife.sound.streams hphase
      exact ⟨hstreams.writerTransferred, hstreams.connections⟩
    · intro hall
      exact hdelivering.resolve_left fun hphase => hsettled.handingOff hphase hall

/-- A handler comes to stream in the very poll in which its last item is taken. -/
theorem Life.streams {now : Instant} (hlife : Life table past h) (hsettled : h.Settled) :
    Work.Always (poll now) h fun hs _ h' =>
      (h.phase ≠ .streaming ∧ h'.phase = .streaming ↔
        (handed h.peer past).length ≤ table.masters.length ∧
          (handed h.peer (past ++ hs)).length = table.masters.length + 1) := by
  refine (poll_moves hlife.sound).mono ?_
  rintro hs _ h' ⟨hway, hsettled', -⟩
  have hturns : Way Turn h hs h' := hway.mono fun _ _ _ => .move
  have hlife' := hlife.of_way hturns
  constructor
  · rintro ⟨hphase, hphase'⟩
    have hwork' : h'.AtWork := atWork_of_phase hphase' (by decide) rfl
    have hwork := atWork_of_way hlife.sound hturns hwork'
    have hlength := hlife.length_handed hwork
    have hbefore := mt (hlife.streaming_iff hsettled hwork).2 hphase
    have hafter := (hlife'.streaming_iff hsettled' hwork').1 hphase'
    rw [peer_of_way hturns] at hafter
    exact ⟨by omega, hafter⟩
  · rintro ⟨hbefore, hafter⟩
    refine ⟨fun hphase => ?_, ?_⟩
    · have hwork : h.AtWork := atWork_of_phase hphase (by decide) rfl
      have hlength := (hlife.streaming_iff hsettled hwork).1 hphase
      omega
    · obtain ⟨hphase | hphase, hall⟩ := hlife.way_hasGivenAll hway hbefore hafter
      · exact absurd hall (hsettled'.handingOff hphase)
      · exact hphase

end ReplicaHandshake.Handler
