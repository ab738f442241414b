import ReplicaHandshake.Proofs.Controller.Holding
import ReplicaHandshake.Proofs.Controller.Peers
import ReplicaHandshake.Proofs.Controller.Performed
import ReplicaHandshake.Proofs.Handler.Losses

/-!
# Disconnections

When the multiplexer has closed sockets it says so, late, in any order, and perhaps more than once.
A disconnection concerns a live handler if the multiplexer took this socket on its behalf, and no
disconnection of it was heard since (`Controller.Concerns`).  Then exactly this handler loses
exactly this socket; any other disconnection changes nothing.  So it does not matter in which order
disconnections are heard, nor how often (`Controller.Run.heeds_disconnections`).
-/

namespace ReplicaHandshake

open Handler

variable {peer : PeerId} {entries : List Entry}

/-! ### Rounds -/

section Each

variable {R : Handler → List Happening → Handler → Prop} {hs hs' : List Handler}

theorem Each.eq_map {f : Handler → Handler} (heach : Each R hs entries hs')
    (hf : ∀ h did h', R h did h' → h' = f h) : hs' = hs.map f := by
  induction heach with
  | nil => rfl
  | cons hR _ ih => rw [List.map_cons, hf _ _ _ hR, ih]

theorem Each.eq_nil (heach : Each R hs entries hs')
    (hnone : ∀ h ∈ hs, ∀ did h', R h did h' → did = []) :
    entries = [] := by
  induction heach with
  | nil => rfl
  | cons hR _ ih =>
    obtain ⟨hh, hrest⟩ := List.forall_mem_cons.1 hnone
    rw [hh _ _ hR, ih hrest]
    rfl

/-- Where a test picks one handler only, what happens is what this one does. -/
theorem Each.of_one {test : Handler → Bool} (heach : Each (Only test R) hs entries hs')
    (hone : hs.Pairwise fun h x => test h → ¬test x) {h : Handler} (hh : h ∈ hs) (htest : test h) :
    ∃ did h', R h did h' ∧ entries = marked h.peer did := by
  induction heach with
  | nil => cases hh
  | @cons h₀ h₀' did rest rest' entries hR hrest ih =>
    obtain ⟨hother, hone⟩ := List.pairwise_cons.1 hone
    obtain rfl | hh := List.mem_cons.1 hh
    · obtain ⟨-, hdid⟩ := hR.cases.resolve_right fun hnot => hnot.1 htest
      obtain ⟨rfl, -⟩ := hrest.eq_of_none fun x hx => hother x hx htest
      exact ⟨did, h₀', hdid, List.append_nil _⟩
    · obtain ⟨-, rfl, -⟩ := hR.cases.resolve_left fun hpicked => hother h hh hpicked.1 htest
      exact ih hone hh

end Each

namespace Registry

variable {r r' : Registry} {f g : Handler → Handler}

/-- Each live handler is replaced, and stays in its place. -/
def mapLive (r : Registry) (f : Handler → Handler) : Registry :=
  { r with initializing := r.initializing.map f, streaming := r.streaming.map f }

theorem live_mapLive : (r.mapLive f).live = r.live.map f :=
  List.map_append.symm

theorem mapLive_congr (hsame : ∀ h ∈ r.live, f h = g h) : r.mapLive f = r.mapLive g := by
  obtain ⟨hfirst, hsecond⟩ := List.forall_mem_append.1 hsame
  rw [mapLive, mapLive, List.map_congr_left hfirst, List.map_congr_left hsecond]

theorem mapLive_id (hsame : ∀ h ∈ r.live, f h = h) : r.mapLive f = r := by
  have hid : r.mapLive id = r := by rw [mapLive, List.map_id, List.map_id]
  exact (mapLive_congr hsame).trans hid

theorem mapLive_mapLive : (r.mapLive f).mapLive g = r.mapLive (g ∘ f) := by
  simp [mapLive]

theorem Round.eq_mapLive {R : Handler → List Happening → Handler → Prop}
    (hround : Round R r entries r') (hf : ∀ h did h', R h did h' → h' = f h) :
    r' = r.mapLive f := by
  obtain ⟨first, second, -, hinitializing, hstreaming⟩ := hround.parts
  show Registry.mk r'.active r'.initializing r'.streaming r'.distressed r'.voluntary = _
  rw [hround.active, hinitializing.eq_map hf, hstreaming.eq_map hf, hround.distressed,
    hround.voluntary]
  rfl

end Registry

/-! ### Held sockets -/

theorem count_forget_le (held : List SocketId) (ds : List Disconnection) (socket : SocketId) :
    (forget peer held ds).count socket ≤ held.count socket := by
  unfold forget
  induction ds generalizing held with
  | nil => exact Nat.le_refl _
  | cons d rest ih =>
    refine Nat.le_trans (ih _) ?_
    dsimp only
    split
    · exact List.Sublist.count_le _ List.erase_sublist
    · exact Nat.le_refl _

theorem count_holding_le (held : List SocketId) (e : Entry) (socket : SocketId) :
    (holding peer held e).count socket ≤
      held.count socket + (takenSockets (history peer [e])).count socket := by
  unfold holding
  split
  next owner howner =>
    split
    next hsame =>
      have htaken : takenSockets (history peer [e]) = e.happening.taken?.toList := by
        cases htaken : e.happening.taken? <;> simp [takenSockets, history, howner, hsame, htaken]
      rw [htaken]
      exact Nat.le_of_eq List.count_append
    next => exact Nat.le_add_right _ _
  next => exact Nat.le_trans (count_forget_le held _ socket) (Nat.le_add_right _ _)

theorem count_foldl_holding_le (held : List SocketId) (entries : List Entry) (socket : SocketId) :
    (entries.foldl (holding peer) held).count socket ≤
      held.count socket + (takenSockets (history peer entries)).count socket := by
  induction entries generalizing held with
  | nil => exact Nat.le_add_right _ _
  | cons e rest ih =>
    have hsplit : takenSockets (history peer (e :: rest)) =
        takenSockets (history peer [e]) ++ takenSockets (history peer rest) := by
      rw [← takenSockets_append, ← history_append]
      rfl
    rw [hsplit, List.count_append, ← Nat.add_assoc]
    exact Nat.le_trans (ih _) (Nat.add_le_add_right (count_holding_le held e socket) _)

theorem nodup_heldSockets (hnodup : (takenSockets (history peer entries)).Nodup) :
    (heldSockets peer entries).Nodup := by
  rw [List.nodup_iff_count] at hnodup ⊢
  intro socket
  have hle : (heldSockets peer entries).count socket ≤ _ := count_foldl_holding_le [] entries socket
  rw [List.count_nil, Nat.zero_add] at hle
  exact Nat.le_trans hle (hnodup socket)

theorem handed_foldl_hearing (h : Handler) (ds : List Disconnection) :
    (ds.foldl hearing h).handedSockets = forget h.peer h.handedSockets ds := by
  unfold forget
  induction ds generalizing h with
  | nil => rfl
  | cons d rest ih =>
    rw [List.foldl_cons, List.foldl_cons, ih, peer_hearing, hearing]
    by_cases hpeer : h.peer = d.peer
    · rw [if_pos hpeer, if_pos hpeer.symm, handed_afterLoss]
    · rw [if_neg hpeer, if_neg (Ne.symm hpeer)]

namespace Controller

open Registry Ledger

variable {settings : Settings} {past told : List Entry} {c c₁ c₂ c' : Controller}
  {asked : List PeerId} {d : Disconnection} {ds heard rest : List Disconnection} {now : Instant}

/-! ### What is left -/

/-- A controller whose live handlers have heard of disconnections. -/
def hearingAll (c : Controller) (ds : List Disconnection) : Controller :=
  { c with registry := c.registry.mapLive fun h => ds.foldl hearing h }

theorem eq_hearing {h h' : Handler} {did : List Happening}
    (hdid : Only (·.peer = d.peer) (Hears d.socket) h did h') : h' = h.hearing d := by
  obtain ⟨htest, hhears⟩ | ⟨htest, -, rfl⟩ := hdid.cases
  · rw [hearing, if_pos (of_decide_eq_true htest), hhears.eq_afterLoss]
  · rw [hearing, if_neg fun hpeer => htest (decide_eq_true hpeer)]

theorem hear_eq (hord : c.registry.InOrder c.nextPeer) :
    Work.Records (hear d) c fun _ _ c' => c' = c.hearingAll [d] := by
  refine (hear_round hord).mono ?_
  rintro _ _ _ ⟨r, hround, rfl⟩
  rw [hround.eq_mapLive fun _ _ _ => eq_hearing]
  rfl

theorem hearAll_eq (hord : (c.ledger asked ds).InOrder) :
    Work.Records (hearAll ds) c fun _ _ c' => c' = c.hearingAll ds := by
  induction ds generalizing c with
  | nil =>
    have hsame : c.registry.mapLive (fun h => [].foldl hearing h) = c.registry :=
      mapLive_id fun _ _ => rfl
    refine Work.records_pure.2 ?_
    rw [hearingAll, hsame]
  | cons d rest ih =>
    simp only [hearAll, Work.records_bind]
    refine ((hear_way hord).and (hear_eq hord)).mono ?_
    rintro _ _ c₁ ⟨hway, rfl⟩
    refine (ih (inOrder_of_works hway hord)).mono ?_
    rintro _ _ _ rfl
    rw [hearingAll, hearingAll, hearingAll, mapLive_mapLive]
    rfl

theorem hearAll_split (hruns : ((hearAll (heard ++ d :: rest)).run c).Runs told ((), c')) :
    ∃ c₁ c₂ first second third, told = first ++ (second ++ third) ∧
      ((hearAll heard).run c).Runs first ((), c₁) ∧ ((hear d).run c₁).Runs second ((), c₂) ∧
      ((hearAll rest).run c₂).Runs third ((), c') := by
  induction heard generalizing c told with
  | nil =>
    rw [List.nil_append, hearAll, Work.runs_bind] at hruns
    obtain ⟨second, _, c₂, third, rfl, hhear, hrest⟩ := hruns
    exact ⟨c, c₂, [], second, third, rfl, .done _, hhear, hrest⟩
  | cons d' heard ih =>
    rw [List.cons_append, hearAll, Work.runs_bind] at hruns
    obtain ⟨before, _, c₀, after, rfl, hbefore, hafter⟩ := hruns
    obtain ⟨c₁, c₂, first, second, third, rfl, hfirst, hsecond, hthird⟩ := ih hafter
    refine ⟨c₁, c₂, before ++ first, second, third, (List.append_assoc ..).symm, ?_,
      hsecond, hthird⟩
    rw [hearAll, Work.runs_bind]
    exact ⟨before, (), c₀, first, rfl, hbefore, hfirst⟩

/-! ### Whom it concerns -/

/-- Whether a disconnection concerns a live handler, after others of the same tick were
heard: the multiplexer took the socket on behalf of this handler, and no disconnection of it
was heard since. -/
def Concerns (past : List Entry) (heard : List Disconnection) (d : Disconnection) (c : Controller) :
    Prop :=
  c.registry.HasLive d.peer ∧ d.socket ∈ forget d.peer (heldSockets d.peer past) heard

/-- What it means to heed a disconnection.  If it concerns a live handler then this one loses the
socket, and all that happens is what this handler does; if not, then nothing happens. -/
structure Heeds (concerned : Prop) (d : Disconnection) (c : Controller) (entries : List Entry)
    (c' : Controller) :
    Prop where
  loses : concerned → ∃ h ∈ c.registry.live, h.peer = d.peer ∧ ∃ hs h', Loses d.socket h hs h' ∧
    entries = marked d.peer hs ∧
    c' = { c with registry := c.registry.mapLive fun x => if x.peer = d.peer then h' else x }
  ignores : ¬concerned → entries = [] ∧ c' = c

theorem concerns_iff (hknows : Knows past (c.ledger asked [])) : Concerns past heard d c ↔
    ∃ h ∈ (c.hearingAll heard).registry.live, h.peer = d.peer ∧ d.socket ∈ h.handedSockets := by
  have hsame : ∀ h ∈ c.registry.live, h.peer = d.peer →
      (d.socket ∈ forget d.peer (heldSockets d.peer past) heard ↔
        d.socket ∈ (heard.foldl hearing h).handedSockets) := by
    rintro h hh hpeer
    have hheld : (forget h.peer _ heard).Perm _ := forget_perm (hknows h hh) heard
    rw [handed_foldl_hearing, ← hpeer]
    exact hheld.mem_iff.symm
  rw [hearingAll, live_mapLive]
  constructor
  · rintro ⟨⟨h, hh, hpeer⟩, hmem⟩
    exact ⟨_, List.mem_map_of_mem hh, (peer_foldl_hearing heard).trans hpeer,
      (hsame h hh hpeer).1 hmem⟩
  · rintro ⟨_, hx, hpeer, hmem⟩
    obtain ⟨h, hh, rfl⟩ := List.mem_map.1 hx
    rw [peer_foldl_hearing] at hpeer
    exact ⟨⟨h, hh, hpeer⟩, (hsame h hh hpeer).2 hmem⟩

theorem hear_heeds (hkept : Kept past (c.ledger asked [])) :
    Work.Records (hear d) c fun entries _ c' =>
      Heeds (∃ h ∈ c.registry.live, h.peer = d.peer ∧ d.socket ∈ h.handedSockets) d c
        entries c' := by
  have hord := hkept.inOrder
  refine (hear_round hord).mono ?_
  rintro entries _ _ ⟨r, hround, rfl⟩
  rw [hround.eq_mapLive fun _ _ _ => eq_hearing]
  refine ⟨?_, fun hnone => ?_⟩
  · rintro ⟨h, hh, hpeer, hmem⟩
    obtain ⟨table, hlife⟩ := hkept.life hh
    obtain ⟨hs, h', hhears, rfl⟩ :=
      hround.live.of_one (pairwise_of_nodup hord.live_peers d.peer) hh (decide_eq_true hpeer)
    refine ⟨h, hh, hpeer, hs, h', hhears.of_handed hlife hmem, by rw [hpeer], ?_⟩
    rw [mapLive_congr fun x hx => ?_]
    unfold hearing
    split
    next hsame =>
      obtain rfl := eq_of_nodup_map hord.live_peers hh hx (hsame.trans hpeer.symm)
      exact hhears.eq_afterLoss.symm
    next => rfl
  · have hnot : ∀ h ∈ c.registry.live, h.peer = d.peer → d.socket ∉ h.handedSockets :=
      fun h hh hpeer hmem => hnone ⟨h, hh, hpeer, hmem⟩
    refine ⟨hround.live.eq_nil fun h hh did h' hdid => ?_, ?_⟩
    · obtain ⟨htest, hhears⟩ | ⟨-, rfl, -⟩ := hdid.cases
      · exact (hhears.of_not_handed (hnot h hh (of_decide_eq_true htest))).1
      · rfl
    · rw [mapLive_id fun h hh => ?_]
      unfold hearing
      split
      next hpeer => exact afterLoss_of_not_handed (hnot h hh hpeer)
      next => rfl

/-! ### Runs -/

theorem Run.knows (hrun : Run settings past c) :
    ∃ asked, Kept past (c.ledger asked []) ∧ Knows past (c.ledger asked []) := by
  obtain ⟨asked, hway, -⟩ := hrun.way
  exact ⟨asked, (kept_blank c.instanceId _).along (fun _ _ _ hstep => hstep) hway
    (fun _ _ _ _ hkept hknows hstep => hstep.knows hkept hknows) (knows_blank c.instanceId _)⟩

/-- When the instructions of a tick were carried out, the live handlers know what the multiplexer
holds of them. -/
theorem Run.knows_instructed {instructed : Bool} (hrun : Run settings past c)
    (hinstructed : ((drainInstructions now).run c).Runs told (instructed, c₁)) :
    ∃ asked, Kept (past ++ told) (c₁.ledger asked []) ∧
      Knows (past ++ told) (c₁.ledger asked []) := by
  obtain ⟨asked, hkept, hknows⟩ := hrun.knows
  obtain ⟨-, hcarried⟩ := drainInstructions_iff.1 hinstructed
  obtain ⟨more, hcarries⟩ := carries_iff.1 hcarried
  have hway := hcarries.way (c := { c with queue := c.queue.cleared }) hkept.inOrder
  exact ⟨asked ++ more, hkept.along (fun _ _ _ hstep => .goesOn (.works hstep)) hway
    (fun _ _ _ _ hkept hknows hstep => hstep.knows hkept hknows) hknows⟩

/-- To drain disconnections is to fetch them and to hear them in order. -/
theorem drainDisconnections_hears : Work.Records drainDisconnections c fun entries _ c' =>
    ∃ ds told, entries = ⟨none, .answered .fetchDisconnections ds⟩ :: told ∧
      ((hearAll ds).run c).Runs told ((), c') := by
  simp only [drainDisconnections, Dialogue.fetchDisconnections, Work.records_bind,
    Work.records_lift, Work.records_pure, List.append_nil]
  exact Dialogue.records_call.2 fun ds told _ hruns => ⟨ds, told, rfl, hruns⟩

theorem distinct_of_knows (hkept : Kept past (c.ledger asked []))
    (hknows : Knows past (c.ledger asked [])) (hnodup : (openedSockets (happenings past)).Nodup)
    {h : Handler} (hh : h ∈ c.registry.live) : h.Distinct := by
  obtain ⟨table, hlife⟩ := hkept.life hh
  refine ⟨(hknows h hh).nodup_iff.2 (nodup_heldSockets ?_), fun hphase => ?_⟩
  · have hall := hlife.sockets.nodup_iff.1 (nodup_history hnodup h.peer)
    exact hall.sublist ((List.sublist_append_right _ _).trans (List.sublist_append_left _ _))
  · exact (hlife.sound.isOver (.inl hphase)).connections

/-- The peer of a handler, its connections and its phase. -/
def outline (h : Handler) : PeerId × List Connection × Phase :=
  (h.peer, h.connections, h.phase)

theorem outline_hearingAll {ds' : List Disconnection}
    (hdistinct : ∀ h ∈ c.registry.live, h.Distinct) (hsame : ∀ d, d ∈ ds ↔ d ∈ ds') :
    (c.hearingAll ds).registry.initializing.map outline =
      (c.hearingAll ds').registry.initializing.map outline ∧
    (c.hearingAll ds).registry.streaming.map outline =
      (c.hearingAll ds').registry.streaming.map outline := by
  have hall : ∀ h ∈ c.registry.live, outline (ds.foldl hearing h) =
      outline (ds'.foldl hearing h) := by
    intro h hh
    obtain ⟨hconnections, hphase⟩ := foldl_hearing_congr (hdistinct h hh) hsame
    rw [outline, outline, peer_foldl_hearing, peer_foldl_hearing, hconnections, hphase]
  simp only [hearingAll, mapLive, List.map_map]
  exact ⟨List.map_congr_left fun h hh => hall h (List.mem_append_left _ hh),
    List.map_congr_left fun h hh => hall h (List.mem_append_right _ hh)⟩

/-- When the instructions of a tick were carried out, disconnections are fetched, and each is heeded
in its turn.  And where no two sockets are the same, it makes no difference in which order they were
fetched, nor how often. -/
theorem Run.heeds_disconnections {instructed : Bool} (hrun : Run settings past c)
    (hinstructed : ((drainInstructions now).run c).Runs entries (instructed, c₁)) :
    (∀ fetched busy c', (drainDisconnections.run c₁).Runs fetched (busy, c') → ∃ ds told,
      fetched = ⟨none, .answered .fetchDisconnections ds⟩ :: told ∧
      ∀ heard d rest, ds = heard ++ d :: rest → ∃ c₂ c₃ first second third,
        told = first ++ (second ++ third) ∧ ((hearAll heard).run c₁).Runs first ((), c₂) ∧
        ((hear d).run c₂).Runs second ((), c₃) ∧ ((hearAll rest).run c₃).Runs third ((), c') ∧
        Heeds (Concerns (past ++ entries) heard d c₁) d c₂ second c₃) ∧
    ((openedSockets (happenings (past ++ entries))).Nodup →
      ∀ ds ds' told told' busy busy' c' c'', (∀ d, d ∈ ds ↔ d ∈ ds') →
        (drainDisconnections.run c₁).Runs (⟨none, .answered .fetchDisconnections ds⟩ :: told)
        (busy, c') →
        (drainDisconnections.run c₁).Runs (⟨none, .answered .fetchDisconnections ds'⟩ :: told')
        (busy', c'') →
        c'.registry.initializing.map outline = c''.registry.initializing.map outline ∧
        c'.registry.streaming.map outline = c''.registry.streaming.map outline) := by
  obtain ⟨asked, hkept, hknows⟩ := hrun.knows_instructed hinstructed
  have hwaits : ∀ ds, Kept (past ++ entries) (c₁.ledger asked ds) :=
    fun _ => ⟨hkept.inOrder, hkept.chronicle⟩
  constructor
  · intro fetched busy c' hdrains
    obtain ⟨ds, told, rfl, hruns⟩ := drainDisconnections_hears _ _ hdrains
    refine ⟨ds, told, rfl, ?_⟩
    rintro heard d rest rfl
    obtain ⟨c₂, c₃, first, second, third, rfl, hfirst, hsecond, hthird⟩ := hearAll_split hruns
    have hway := hearAll_way (hwaits heard).inOrder _ _ hfirst
    have hkept₂ : Kept (past ++ entries ++ first) (c₂.ledger asked []) :=
      ((hwaits heard).along (I := fun _ _ => True) (fun _ _ _ hstep => .goesOn (.works hstep)) hway
        (fun _ _ _ _ _ _ _ => trivial) trivial).1
    obtain rfl := hearAll_eq (hwaits heard).inOrder _ _ hfirst
    refine ⟨_, c₃, first, second, third, rfl, hfirst, hsecond, hthird, ?_⟩
    rw [concerns_iff hknows]
    exact hear_heeds hkept₂ _ _ hsecond
  · intro hnodup ds ds' told told' busy busy' c' c'' hsame hdrains hdrains'
    have hleft : ∀ ds told busy c',
        (drainDisconnections.run c₁).Runs (⟨none, .answered .fetchDisconnections ds⟩ :: told)
        (busy, c') →
        c' = c₁.hearingAll ds := by
      intro ds told busy c' hdrains
      obtain ⟨_, _, heq, hruns⟩ := drainDisconnections_hears _ _ hdrains
      cases heq
      exact hearAll_eq (hwaits ds).inOrder _ _ hruns
    rw [hleft _ _ _ _ hdrains, hleft _ _ _ _ hdrains']
    exact outline_hearingAll (fun h hh => distinct_of_knows hkept hknows hnodup hh) hsame

section Rehearsal

open Rehearsal

/-- When the table streams, its first socket is reported as closed, and one of an unknown peer. -/
def reported : List Disconnection :=
  [⟨.first, ⟨1⟩⟩, ⟨PeerId.first.next, ⟨2⟩⟩]

/-- The same in another order, and once more than once. -/
def reportedAgain : List Disconnection :=
  [⟨PeerId.first.next, ⟨2⟩⟩, ⟨.first, ⟨1⟩⟩, ⟨.first, ⟨1⟩⟩]

/-- When the table streams these disconnections are heard. -/
def notified (ds : List Disconnection) : Performance World :=
  (((rehearsed 4).goOn world (drainInstructions 0)).meanwhile fun w =>
    { w with disconnections := ds }).goOn world
    drainDisconnections

/-- The handler fails and keeps its second socket, whichever way it is told that the first
one is closed. -/
theorem disconnections_rehearsed :
    (∃ h ∈ ((rehearsed 4).goOn world (drainInstructions 0)).controller.registry.live, ∃ hs h',
      Loses ⟨1⟩ h hs h') ∧
    (notified reported).controller.registry.streaming.map (fun h => (h.phase, h.handedSockets)) =
      [(.stopping, [⟨2⟩])] ∧
    (notified reported).controller.registry.streaming.map outline =
      (notified reportedAgain).controller.registry.streaming.map outline := by
  have hinstructs :=
    Dialogue.perform_runs world ((drainInstructions 0).run (rehearsed 4).controller)
    (rehearsed 4).outside
  have hdrains := fun ds => Dialogue.perform_runs world
    (drainDisconnections.run ((rehearsed 4).goOn world (drainInstructions 0)).controller)
    { ((rehearsed 4).goOn world (drainInstructions 0)).outside with disconnections := ds }
  obtain ⟨hheeds, hsame⟩ := (rehearsed_run 4).heeds_disconnections hinstructs
  refine ⟨?_, by decide +kernel, ?_⟩
  · obtain ⟨ds, told, heq, hall⟩ := hheeds _ _ _ (hdrains reported)
    cases heq
    obtain ⟨c₂, c₃, _, second, _, -, hnone, -, -, hheed⟩ := hall [] ⟨.first, ⟨1⟩⟩ _ rfl
    have hconcerns : Concerns
        ((rehearsed 4).past ++ (((drainInstructions 0).run (rehearsed 4).controller).perform
        world (rehearsed 4).outside).2.2) [] ⟨.first, ⟨1⟩⟩
        ((rehearsed 4).goOn world (drainInstructions 0)).controller := by
      unfold Concerns Registry.HasLive
      decide +kernel
    obtain ⟨h, hh, -, hs, h', hloses, -⟩ := hheed.loses hconcerns
    obtain ⟨-, -, rfl⟩ := Work.runs_pure.1 hnone
    exact ⟨h, hh, hs, h', hloses⟩
  · have hmembers : ∀ d, d ∈ reported ↔ d ∈ reportedAgain := by
      simp only [reported, reportedAgain, List.mem_cons, List.not_mem_nil, or_false]
      exact fun d => ⟨fun h => h.symm.imp_right .inl, fun h => by rw [or_self] at h; exact h.symm⟩
    exact (hsame (by decide +kernel) reported reportedAgain _ _ _ _ _ _ hmembers (hdrains reported)
      (hdrains reportedAgain)).2

end Rehearsal

end Controller

end ReplicaHandshake
