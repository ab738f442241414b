import ReplicaHandshake.Proofs.Controller.Ledger

/-!
# The order of a registry

A registry is *in order* (`Registry.InOrder`) when its five parts tell the same: the active tables
are those of the live handlers, no table and no peer has two handlers in whatever lists, those
that are initializing are listed as they came, those in the other list are through with the
handshake, and whoever was asked to stop is doing so.  Every step of a controller keeps its
registry in order (`Ledger.AnyStep.inOrder`).
-/

namespace ReplicaHandshake

open Handler

namespace Registry

variable {R : Handler → List Happening → Handler → Prop} {r r' : Registry} {entries : List Entry}
  {next : PeerId}

/-- The lists of a registry agree with each other, and with the peer that comes next. -/
structure Sorted (next : PeerId) (r : Registry) : Prop where
  atRest : r.AtRest
  active : r.active.Perm (r.live.map (·.tableName))
  names : (r.handlers.map (·.tableName)).Nodup
  peers : (r.handlers.map (·.peer)).Nodup
  issued : ∀ peer ∈ r.handlers.map (·.peer), peer.number < next.number
  ascending : (r.initializing.map (·.peer.number)).Pairwise (· < ·)
  divided : ∀ h ∈ r.streaming, h.phase = .streaming ∨ h.phase = .stopping
  parked : ∀ h ∈ r.distressed, h.connections = []

/-- Whoever was asked to stop is live, and stopping. -/
def Heeds (r : Registry) : Prop :=
  ∀ peer ∈ r.voluntary, ∃ h ∈ r.live, h.peer = peer ∧ h.phase = .stopping

/-- All parts of a registry tell the same. -/
structure InOrder (next : PeerId) (r : Registry) : Prop extends Sorted next r where
  heeds : r.Heeds

theorem inOrder_empty (next : PeerId) : ({} : Registry).InOrder next where
  atRest := ⟨by simp [live], by simp⟩
  active := by simp [live]
  names := by simp [handlers, live]
  peers := by simp [handlers, live]
  issued := by simp [handlers, live]
  ascending := List.Pairwise.nil
  divided := by simp
  parked := by simp
  heeds := by simp [Heeds]

theorem Sorted.live_names (h : r.Sorted next) : (r.live.map (·.tableName)).Nodup := by
  have hnames := h.names
  rw [handlers, List.map_append] at hnames
  exact (List.nodup_append.1 hnames).1

theorem Sorted.live_peers (h : r.Sorted next) : (r.live.map (·.peer)).Nodup := by
  have hpeers := h.peers
  rw [handlers, List.map_append] at hpeers
  exact (List.nodup_append.1 hpeers).1

theorem Sorted.live_issued (h : r.Sorted next) {x : Handler} (hx : x ∈ r.live) :
    x.peer.number < next.number :=
  h.issued _ (List.mem_map_of_mem (List.mem_append_left _ hx))

theorem Sorted.peer_ne_of_parked (h : r.Sorted next) {x y : Handler} (hx : x ∈ r.live)
    (hy : y ∈ r.distressed) :
    x.peer ≠ y.peer := by
  have hpeers := h.peers
  rw [handlers, List.map_append, List.nodup_append] at hpeers
  exact hpeers.2.2 _ (List.mem_map_of_mem hx) _ (List.mem_map_of_mem hy)

/-! ### Rounds -/

theorem Round.map_handlers {β : Type} {f : Handler → β} (h : Round R r entries r')
    (hf : ∀ h did h', R h did h' → f h' = f h) : r'.handlers.map f = r.handlers.map f := by
  rw [handlers, handlers, List.map_append, List.map_append, h.live.map_eq hf, h.distressed]

theorem Round.sorted (h : Round R r entries r') (hR : Behaves R) (hsorted : r.Sorted next) :
    r'.Sorted next := by
  have hpeer : ∀ h did h', R h did h' → h'.peer = h.peer := fun _ _ _ hdid => (hR.name hdid).1
  have hname : ∀ h did h', R h did h' → h'.tableName = h.tableName :=
    fun _ _ _ hdid => (hR.name hdid).2
  obtain ⟨first, second, -, hinitializing, hstreaming⟩ := h.parts
  refine ⟨h.atRest hR hsorted.atRest, ?_, ?_, ?_, ?_, ?_, ?_, ?_⟩
  · rw [h.active, h.live.map_eq hname]
    exact hsorted.active
  · rw [h.map_handlers hname]
    exact hsorted.names
  · rw [h.map_handlers hpeer]
    exact hsorted.peers
  · rw [h.map_handlers hpeer]
    exact hsorted.issued
  · rw [hinitializing.map_eq fun h did h' hdid => congrArg PeerId.number (hpeer h did h' hdid)]
    exact hsorted.ascending
  · intro h' hh'
    obtain ⟨h, hh, did, hdid⟩ := hstreaming.origin hh'
    have hphase := hsorted.divided h hh
    have hover := hR.through hdid (by rcases hphase with hphase | hphase <;> rw [hphase] <;> decide)
    exact hover.elim (fun heq => heq ▸ hphase) .inr
  · rw [h.distressed]
    exact hsorted.parked

theorem Round.heeds (h : Round R r entries r') (hR : Behaves R) (hheeds : r.Heeds) : r'.Heeds := by
  intro peer hpeer
  rw [h.voluntary] at hpeer
  obtain ⟨x, hx, rfl, hphase⟩ := hheeds peer hpeer
  obtain ⟨x', hx', did, hdid⟩ := h.live.outcome hx
  exact ⟨x', hx', (hR.name hdid).1, hR.stopping hdid hphase⟩

theorem Round.inOrder (h : Round R r entries r') (hR : Behaves R) (hord : r.InOrder next) :
    r'.InOrder next :=
  ⟨h.sorted hR hord.toSorted, h.heeds hR hord.heeds⟩

/-! ### Coming and going -/

theorem clearDistressed_inOrder (hord : r.InOrder next) (tableName : String) :
    (r.clearDistressed tableName).2.InOrder next := by
  have hsublist : (r.clearDistressed tableName).2.handlers.Sublist r.handlers :=
    List.filter_sublist.append_left r.live
  refine ⟨⟨atRest_clearDistressed hord.atRest tableName, hord.active,
    hord.names.sublist (hsublist.map _), hord.peers.sublist (hsublist.map _), ?_, hord.ascending,
    hord.divided, ?_⟩, hord.heeds⟩
  · exact fun peer hpeer => hord.issued peer ((hsublist.map _).subset hpeer)
  · exact fun h hh => hord.parked h (List.mem_filter.1 hh).1

theorem insert_inOrder (hord : r.InOrder next) {h : Handler} (hrest : h.AtRest)
    (hpeer : h.peer = next) (hname : ∀ x ∈ r.handlers, x.tableName ≠ h.tableName) :
    (r.insert h).InOrder next.next := by
  have hlive : (r.live ++ [h]).Perm (r.insert h).live := by
    rw [List.perm_iff_count]
    intro x
    simp only [live, Registry.insert, List.count_append]
    omega
  have hhandlers := r.handlers_insert h
  have hlt := next.number_lt_next
  have hfresh : ∀ x ∈ r.handlers, x.peer.number < next.number := fun x hx =>
    hord.issued _ (List.mem_map_of_mem hx)
  have hinactive : h.tableName ∉ r.active := by
    intro hmem
    obtain ⟨x, hx, hsame⟩ := List.mem_map.1 (hord.active.mem_iff.1 hmem)
    exact hname x (List.mem_append_left _ hx) hsame
  refine ⟨⟨⟨?_, hord.atRest.distressed⟩, ?_, ?_, ?_, ?_, ?_, hord.divided, hord.parked⟩, ?_⟩
  · intro x hx
    obtain hx | hx := List.mem_append.1 (hlive.mem_iff.2 hx)
    · exact hord.atRest.live x hx
    · exact List.mem_singleton.1 hx ▸ hrest
  · have hactive : (r.insert h).active = h.tableName :: r.active := List.insert_of_not_mem hinactive
    rw [hactive]
    apply List.Perm.trans _ (hlive.map _)
    rw [List.map_append]
    exact (hord.active.cons _).trans (List.perm_append_singleton _ _).symm
  · apply (hhandlers.map _).nodup_iff.1
    rw [List.map_append, List.nodup_append]
    refine ⟨hord.names, by simp, ?_⟩
    rintro name hmem _ hnew rfl
    obtain ⟨x, hx, rfl⟩ := List.mem_map.1 hmem
    exact hname x hx (List.mem_singleton.1 hnew)
  · apply (hhandlers.map _).nodup_iff.1
    rw [List.map_append, List.nodup_append]
    refine ⟨hord.peers, by simp, ?_⟩
    rintro peer hmem _ hnew rfl
    have hissued := hord.issued peer hmem
    obtain rfl : peer = next := (List.mem_singleton.1 hnew).trans hpeer
    exact Nat.lt_irrefl _ hissued
  · intro peer hmem
    obtain ⟨x, hx, rfl⟩ := List.mem_map.1 hmem
    obtain hx | hx := List.mem_append.1 (hhandlers.mem_iff.2 hx)
    · exact Nat.lt_trans (hfresh x hx) hlt
    · rw [List.mem_singleton.1 hx, hpeer]
      exact hlt
  · show ((r.initializing ++ [h]).map _).Pairwise _
    rw [List.map_append, List.pairwise_append]
    refine ⟨hord.ascending, by simp, ?_⟩
    rintro n hmem m hnew
    obtain ⟨x, hx, rfl⟩ := List.mem_map.1 hmem
    obtain rfl : m = next.number := (List.mem_singleton.1 hnew).trans (congrArg PeerId.number hpeer)
    exact hfresh x (List.mem_append_left _ (List.mem_append_left _ hx))
  · intro peer hmem
    obtain ⟨x, hx, hsame⟩ := hord.heeds peer hmem
    exact ⟨x, hlive.mem_iff.1 (List.mem_append_left _ hx), hsame⟩

theorem promote_inOrder (hord : r.InOrder next) : r.promote.2.InOrder next := by
  have hlive := r.live_promote
  have hhandlers : r.handlers.Perm r.promote.2.handlers := hlive.append_right _
  refine ⟨⟨atRest_promote hord.atRest, hord.active.trans (hlive.map _),
    (hhandlers.map _).nodup_iff.1 hord.names, (hhandlers.map _).nodup_iff.1 hord.peers, ?_, ?_, ?_,
    hord.parked⟩, ?_⟩
  · exact fun peer hpeer => hord.issued peer ((hhandlers.map _).mem_iff.2 hpeer)
  · simp only [promote, List.partition_eq_filter_filter]
    exact hord.ascending.sublist (List.filter_sublist.map _)
  · intro h hh
    simp only [promote, List.partition_eq_filter_filter, List.mem_append, List.mem_filter,
      decide_eq_true_eq] at hh
    exact hh.elim (hord.divided h) fun hh => .inl hh.2
  · intro peer hpeer
    obtain ⟨h, hh, hsame⟩ := hord.heeds peer hpeer
    exact ⟨h, hlive.mem_iff.1 hh, hsame⟩

/-! ### The end of handlers -/

theorem parked_sublist {β : Type} {f : Handler → β}
    (hf : ∀ h : Handler, f { h with phase := .distressed } = f h) (r : Registry)
    (hs : List Handler) : ((r.parked hs).map f).Sublist (hs.map f) := by
  rw [parked, List.map_map]
  have hmap : (f ∘ fun h : Handler => { h with phase := .distressed }) = f := funext hf
  rw [hmap]
  exact List.filter_sublist.map f

theorem Reaps.map_sublist {β : Type} {f : Handler → β} (h : Reaps r entries r')
    (hf : ∀ h : Handler, f { h with phase := .distressed } = f h) :
    ∃ l, (r.handlers.map f).Perm l ∧ (r'.handlers.map f).Sublist l := by
  refine ⟨(r.undrained.live ++ (r.distressed ++ r.drained)).map f, ?_, ?_⟩
  · apply List.Perm.map
    rw [handlers, ← List.append_assoc]
    apply (r.live_drained.append_right _).trans
    rw [List.append_assoc, List.append_assoc]
    exact List.perm_append_comm.trans (by rw [List.append_assoc])
  · rw [handlers, h.live, h.distressed]
    simp only [List.map_append]
    exact ((parked_sublist hf r r.drained).append_left _).append_left _

theorem Reaps.inOrder (h : Reaps r entries r') (hord : r.InOrder next) : r'.InOrder next := by
  have hlive := r.live_drained
  have hnames := hord.live_names
  rw [(hlive.map _).nodup_iff, List.map_append, List.nodup_append] at hnames
  refine ⟨⟨h.atRest hord.atRest, ?_, ?_, ?_, ?_, ?_, ?_, ?_⟩, ?_⟩
  · have hgone : ∀ name ∈ r.drained.map (·.tableName),
        ¬(r.drained.all fun x => decide (x.tableName ≠ name)) = true := by
      intro name hmem hall
      obtain ⟨x, hx, rfl⟩ := List.mem_map.1 hmem
      exact of_decide_eq_true (List.all_eq_true.1 hall x hx) rfl
    have hkept : ∀ name ∈ r.undrained.live.map (·.tableName),
        (r.drained.all fun x => decide (x.tableName ≠ name)) = true := by
      intro name hmem
      apply List.all_eq_true.2
      intro x hx
      exact decide_eq_true (hnames.2.2 _ (List.mem_map_of_mem hx) name hmem)
    have hactive := (hord.active.trans (hlive.map _)).filter
      fun name => r.drained.all fun x => decide (x.tableName ≠ name)
    rw [List.map_append, List.filter_append, List.filter_eq_nil_iff.2 hgone, List.nil_append,
      List.filter_eq_self.2 hkept] at hactive
    rw [h.active, h.live]
    exact hactive
  · obtain ⟨l, hperm, hsublist⟩ := h.map_sublist (f := (·.tableName)) fun _ => rfl
    exact (hperm.nodup_iff.1 hord.names).sublist hsublist
  · obtain ⟨l, hperm, hsublist⟩ := h.map_sublist (f := (·.peer)) fun _ => rfl
    exact (hperm.nodup_iff.1 hord.peers).sublist hsublist
  · obtain ⟨l, hperm, hsublist⟩ := h.map_sublist (f := (·.peer)) fun _ => rfl
    exact fun peer hpeer => hord.issued peer (hperm.mem_iff.2 (hsublist.subset hpeer))
  · rw [h.initializing]
    exact hord.ascending.sublist (List.filter_sublist.map _)
  · intro x hx
    rw [h.streaming] at hx
    exact hord.divided x (List.mem_filter.1 hx).1
  · intro x hx
    rw [h.distressed, List.mem_append] at hx
    obtain hx | hx := hx
    · exact hord.parked x hx
    · obtain ⟨y, hy, rfl⟩ := List.mem_map.1 hx
      have hdrained := (List.mem_filter.1 (List.mem_filter.1 hy).1).2
      unfold isDrained at hdrained
      rw [Bool.and_eq_true, Bool.and_eq_true, List.isEmpty_iff] at hdrained
      exact hdrained.1.2
  · intro peer hpeer
    rw [h.voluntary] at hpeer
    obtain ⟨hpeer, hleft⟩ := List.mem_filter.1 hpeer
    obtain ⟨x, hx, rfl, hphase⟩ := hord.heeds peer hpeer
    refine ⟨x, ?_, rfl, hphase⟩
    rw [h.live]
    refine (List.mem_append.1 (hlive.mem_iff.1 hx)).resolve_left fun hdrained => ?_
    exact of_decide_eq_true (List.all_eq_true.1 hleft x hdrained) rfl

end Registry

namespace Ledger

open Registry

variable {b b' : Ledger} {entries : List Entry}

/-- The registry of a ledger is in order. -/
def InOrder (b : Ledger) : Prop :=
  b.registry.InOrder b.nextPeer

theorem InOrder.not_live (hord : b.InOrder) {tableName : String}
    (hinactive : b.registry.isActive tableName = false) :
    ∀ h ∈ b.registry.live, h.tableName ≠ tableName := by
  rintro h hh rfl
  have hmem := hord.active.mem_iff.2 (List.mem_map_of_mem hh)
  rw [isActive, List.contains_eq_mem, decide_eq_false_iff_not] at hinactive
  exact hinactive hmem

theorem Step.inOrder (hstep : Step b entries b') (hord : b.InOrder) : b'.InOrder := by
  cases hstep with
  | reports | fetches => exact hord
  | adds hvalid hinactive hbegins =>
    obtain ⟨hpeer, hname, -⟩ := hbegins.spec
    refine insert_inOrder (clearDistressed_inOrder hord _) (hbegins.atRest hvalid) hpeer ?_
    intro x hx
    rw [hname]
    obtain hx | hx := List.mem_append.1 hx
    · exact hord.not_live hinactive x hx
    · exact of_decide_eq_true (List.mem_filter.1 hx).2
  | @stops h _ r hh hround =>
    have hord' := hround.inOrder (stops_behaves.only _) hord
    refine ⟨⟨⟨hord'.atRest.live, hord'.atRest.distressed⟩, hord'.active, hord'.names, hord'.peers,
      hord'.issued, hord'.ascending, hord'.divided, hord'.parked⟩, fun peer hpeer => ?_⟩
    obtain rfl | hpeer := List.mem_insert_iff.1 hpeer
    · obtain ⟨h', hh', did, hdid⟩ := hround.live.outcome hh
      obtain ⟨-, hdid⟩ := hdid.cases.resolve_right fun hidle => hidle.1 (decide_eq_true rfl)
      exact ⟨h', hh', (stops_behaves.name hdid).1, hdid.phase⟩
    · exact hord'.heeds peer hpeer
  | forgets tableName => exact clearDistressed_inOrder hord tableName
  | hears _ hround => exact hround.inOrder ((hears_behaves _).only _) hord
  | polls _ hround => exact hround.inOrder moves_behaves hord
  | promotes => exact promote_inOrder hord

theorem OpenStep.inOrder (hstep : OpenStep b entries b') (hord : b.InOrder) : b'.InOrder := by
  cases hstep with
  | works hstep => exact hstep.inOrder hord
  | reaps hreaps => exact hreaps.inOrder hord

theorem AnyStep.inOrder (hstep : AnyStep b entries b') (hord : b.InOrder) : b'.InOrder := by
  cases hstep with
  | goesOn hstep => exact hstep.inOrder hord
  | asksAll voluntary hall hround =>
    have hsorted := hord.toSorted
    have hsorted' := hround.sorted stops_behaves ⟨⟨hsorted.atRest.live, hsorted.atRest.distressed⟩,
      hsorted.active, hsorted.names, hsorted.peers, hsorted.issued, hsorted.ascending,
      hsorted.divided,
      hsorted.parked⟩
    refine ⟨hsorted', fun peer hpeer => ?_⟩
    rw [hround.voluntary] at hpeer
    have hlive : ∃ h ∈ b.registry.live, h.peer = peer := by
      obtain hpeer | hlive := hall peer hpeer
      · obtain ⟨h, hh, hsame, -⟩ := hord.heeds peer hpeer
        exact ⟨h, hh, hsame⟩
      · exact hlive
    obtain ⟨h, hh, rfl⟩ := hlive
    obtain ⟨h', hh', did, hdid⟩ := hround.live.outcome hh
    exact ⟨h', hh', (stops_behaves.name hdid).1, hdid.phase⟩
  | readsClock => exact hord
  | closes => exact inOrder_empty _

theorem inOrder_of_way (hway : Way AnyStep b entries b') (hord : b.InOrder) : b'.InOrder := by
  induction hway with
  | refl => exact hord
  | tail _ hstep ih => exact hstep.inOrder ih

theorem inOrder_of_works (hway : Way Step b entries b') (hord : b.InOrder) : b'.InOrder :=
  inOrder_of_way (any_of_open (open_of_works hway)) hord

end Ledger

end ReplicaHandshake
