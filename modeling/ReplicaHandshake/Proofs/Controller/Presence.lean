import ReplicaHandshake.Proofs.Controller.Order

/-!
# Who is there

A peer has a live handler (`Registry.HasLive`) from the step in which it begins to the one in which
its handler is reaped.  In every other step before the reaping the peers with live handlers stay as
they are, and nothing happens on behalf of the others (`Ledger.Step.absent`); the reaping says the
last two words for each handler that it takes away (`Registry.Reaps.absent`).

What a house keeps of a handler from one moment to another it owes to the turns of the handler in
between (`House.turns_of_way`).
-/

namespace ReplicaHandshake

open Handler

variable {peer : PeerId} {entries past : List Entry}

theorem eq_of_nodup_map {β : Type} {f : Handler → β} {hs : List Handler} (hnodup : (hs.map f).Nodup)
    {h x : Handler} (hh : h ∈ hs) (hx : x ∈ hs) (hsame : f x = f h) : x = h := by
  induction hs with
  | nil => cases hh
  | cons y rest ih =>
    rw [List.map_cons, List.nodup_cons] at hnodup
    obtain ⟨hfresh, hnodup⟩ := hnodup
    obtain rfl | hh' := List.mem_cons.1 hh <;> obtain rfl | hx' := List.mem_cons.1 hx
    · rfl
    · exact absurd (hsame ▸ List.mem_map_of_mem hx') hfresh
    · exact absurd (hsame ▸ List.mem_map_of_mem hh') hfresh
    · exact ih hnodup hh' hx'

/-! ### In the house -/

namespace House

variable {s s' : House} {h h' : Handler}

/-- Whoever is in the house has taken turns in it, or was let in. -/
theorem Step.origin (hstep : Step s entries s') (hc : Chronicle past s) (hh' : h' ∈ s'.handlers) :
    (∃ h ∈ s.handlers, Way Turn h (history h.peer entries) h') ∨ h'.peer = s.nextPeer := by
  cases hstep with
  | @turns _ before after h _ hs hway =>
    obtain rfl | ⟨hmem, hne⟩ := eq_or_other hc.distinct hh'
    · refine .inl ⟨h, by simp, ?_⟩
      rw [history_marked_self]
      exact hway
    · refine .inl ⟨h', hmem, ?_⟩
      rw [history_marked_of_ne hne]
      exact .refl _
  | @begins _ h hs _ _ _ _ hbegins =>
    obtain hmem | hmem := List.mem_append.1 hh'
    · refine .inl ⟨h', hmem, ?_⟩
      rw [history_marked_of_ne]
      · exact .refl _
      · exact fun heq => Nat.lt_irrefl _ (heq ▸ hc.issued h' hmem)
    · obtain rfl := List.mem_singleton.1 hmem
      exact .inr hbegins.spec.1
  | forgets gone hperm =>
    exact .inl ⟨h', hperm.mem_iff.2 (List.mem_append_right gone hh'), .refl _⟩
  | silent => exact .inl ⟨h', hh', .refl _⟩

theorem Step.nextPeer_le (hstep : Step s entries s') : s.nextPeer.number ≤ s'.nextPeer.number := by
  cases hstep with
  | begins => exact Nat.le_of_lt (PeerId.number_lt_next _)
  | turns | forgets | silent => exact Nat.le_refl _

theorem nextPeer_le_of_way (hway : Way Step s entries s') :
    s.nextPeer.number ≤ s'.nextPeer.number := by
  induction hway with
  | refl => exact Nat.le_refl _
  | tail _ hstep ih => exact Nat.le_trans ih hstep.nextPeer_le

/-- From one moment to another a handler does what happens on behalf of its peer. -/
theorem turns_of_way (hway : Way Step s entries s') (hc : Chronicle past s) (hh : h ∈ s.handlers)
    (hh' : h' ∈ s'.handlers) (hsame : h'.peer = h.peer) :
    Way Turn h (history h.peer entries) h' := by
  induction hway generalizing h' with
  | refl =>
    obtain rfl := eq_of_nodup_map hc.distinct hh hh' hsame
    exact .refl _
  | tail hway hstep ih =>
    obtain ⟨h₁, hh₁, hturns⟩ | hnew := hstep.origin (chronicle_of_way hway hc) hh'
    · have hpeer := peer_of_way hturns
      rw [hpeer] at hsame
      rw [hsame] at hturns
      rw [history_append]
      exact (ih hh₁ hsame).trans hturns
    · have hissued := Nat.lt_of_lt_of_le (hc.issued h hh) (nextPeer_le_of_way hway)
      rw [← hsame, hnew] at hissued
      exact absurd hissued (Nat.lt_irrefl _)

end House

/-! ### In the registry -/

namespace Registry

variable {R : Handler → List Happening → Handler → Prop} {r r' : Registry}

/-- The peer has a live handler. -/
def HasLive (r : Registry) (peer : PeerId) : Prop :=
  ∃ h ∈ r.live, h.peer = peer

theorem Round.hasLive (hround : Round R r entries r') (hR : Behaves R) :
    r'.HasLive peer ↔ r.HasLive peer := by
  have hpeers := hround.live.map_eq (f := (·.peer)) fun _ _ _ hdid => (hR.name hdid).1
  unfold HasLive
  rw [← List.mem_map, ← List.mem_map, hpeers]

/-- In a round nothing happens on behalf of a peer without a live handler. -/
theorem Round.absent (hround : Round R r entries r') (hgone : ¬r.HasLive peer) :
    history peer entries = [] :=
  hround.live.history_other fun h hh hsame => hgone ⟨h, hh, hsame⟩

/-- What each handler does that comes to its end. -/
def Ends (r : Registry) (h : Handler) (did : List Happening) (h' : Handler) : Prop :=
  did = endings h (r.verdict h) ∧ h' = h

theorem Reaps.each (hreaps : Reaps r entries r') : Each r.Ends r.drained entries r.drained := by
  rw [Settles.entries hreaps]
  have hverdict : r.undrained.verdict = r.verdict := rfl
  rw [hverdict]
  induction r.drained with
  | nil => exact .nil
  | cons h rest ih => exact .cons ⟨rfl, rfl⟩ ih

/-- Whoever is live after the reaping was live before and is not drained, and nothing happened on
behalf of it. -/
theorem Reaps.stays (hreaps : Reaps r entries r') (hnodup : (r.live.map (·.peer)).Nodup)
    {h : Handler} (hh : h ∈ r'.live) :
    h ∈ r.live ∧ h.isDrained = false ∧ history h.peer entries = [] := by
  rw [hreaps.live] at hh
  have hlive := r.live_drained
  have hmem := hlive.mem_iff.2 (List.mem_append_right _ hh)
  rw [(hlive.map _).nodup_iff, List.map_append, List.nodup_append] at hnodup
  refine ⟨hmem, ?_, hreaps.each.history_other fun x hx hsame => ?_⟩
  · obtain hh | hh := List.mem_append.1 hh <;> simpa using (List.mem_filter.1 hh).2
  · exact hnodup.2.2 _ (List.mem_map_of_mem hx) _ (List.mem_map_of_mem hh) hsame

/-- Whoever is not live after the reaping was not live before, or comes to its end. -/
theorem Reaps.absent (hreaps : Reaps r entries r') (hnodup : (r.live.map (·.peer)).Nodup)
    (hgone : ¬r'.HasLive peer) : ¬r.HasLive peer ∧ history peer entries = [] ∨
      ∃ h ∈ r.drained, h.peer = peer ∧ history peer entries = endings h (r.verdict h) := by
  by_cases hends : ∃ h ∈ r.drained, h.peer = peer
  · obtain ⟨h, hh, rfl⟩ := hends
    have hdistinct : (r.drained.map (·.peer)).Nodup := hnodup.sublist (List.filter_sublist.map _)
    obtain ⟨x, hx, hdid, rfl⟩ := hreaps.each.before hdistinct hh
    exact .inr ⟨h, hh, rfl, hdid⟩
  · refine .inl ⟨?_, hreaps.each.history_other fun h hh hsame => hends ⟨h, hh, hsame⟩⟩
    rintro ⟨h, hh, hsame⟩
    refine (List.mem_append.1 (r.live_drained.mem_iff.1 hh)).elim (fun hh => hends ⟨h, hh, hsame⟩)
      fun hh => ?_
    exact hgone ⟨h, hreaps.live ▸ hh, hsame⟩

end Registry

/-! ### In a ledger -/

namespace Ledger

open Registry

variable {b b' : Ledger}

theorem not_hasLive_promote (hgone : ¬b.registry.promote.2.HasLive peer) :
    ¬b.registry.HasLive peer :=
  fun ⟨h, hh, hsame⟩ => hgone ⟨h, b.registry.live_promote.mem_iff.1 hh, hsame⟩

/-- Until handlers are reaped, whoever is not live has not been live before, and nothing happens on
behalf of it. -/
theorem Step.absent (hstep : Step b entries b') (hgone : ¬b'.registry.HasLive peer) :
    ¬b.registry.HasLive peer ∧ history peer entries = [] := by
  cases hstep with
  | reports | fetches | forgets => exact ⟨hgone, rfl⟩
  | promotes => exact ⟨not_hasLive_promote hgone, rfl⟩
  | @adds _ _ _ _ h _ _ hbegins =>
    refine ⟨fun ⟨x, hx, hsame⟩ => hgone ⟨x, mem_live_insert.2 (.inl hx), hsame⟩, ?_⟩
    apply history_marked_of_ne
    rintro rfl
    exact hgone ⟨h, mem_live_insert.2 (.inr rfl), hbegins.spec.1⟩
  | stops _ hround =>
    have hgone := mt (hround.hasLive (stops_behaves.only _)).2 hgone
    exact ⟨hgone, hround.absent hgone⟩
  | hears _ hround =>
    have hgone := mt (hround.hasLive ((hears_behaves _).only _)).2 hgone
    exact ⟨hgone, hround.absent hgone⟩
  | polls _ hround =>
    have hgone := mt (hround.hasLive moves_behaves).2 hgone
    exact ⟨hgone, hround.absent hgone⟩

theorem absent_of_way (hway : Way Step b entries b') (hgone : ¬b'.registry.HasLive peer) :
    ¬b.registry.HasLive peer ∧ history peer entries = [] := by
  induction hway with
  | refl => exact ⟨hgone, rfl⟩
  | tail _ hstep ih =>
    obtain ⟨hgone, hnone⟩ := hstep.absent hgone
    obtain ⟨hgone, hnone'⟩ := ih hgone
    exact ⟨hgone, by rw [history_append, hnone', hnone]; rfl⟩

/-- Until handlers are reaped, whoever is live has been live before, or its peer was
not issued yet. -/
theorem Step.hasLive (hstep : Step b entries b') (hlive : b'.registry.HasLive peer) :
    b.registry.HasLive peer ∨ b.nextPeer.number ≤ peer.number := by
  cases hstep with
  | reports | fetches | forgets => exact .inl hlive
  | promotes =>
    obtain ⟨h, hh, hsame⟩ := hlive
    exact .inl ⟨h, b.registry.live_promote.mem_iff.2 hh, hsame⟩
  | adds _ _ hbegins =>
    obtain ⟨x, hx, rfl⟩ := hlive
    obtain hx | rfl := mem_live_insert.1 hx
    · exact .inl ⟨x, hx, rfl⟩
    · exact .inr (Nat.le_of_eq (congrArg PeerId.number hbegins.spec.1.symm))
  | stops _ hround => exact .inl ((hround.hasLive (stops_behaves.only _)).1 hlive)
  | hears _ hround => exact .inl ((hround.hasLive ((hears_behaves _).only _)).1 hlive)
  | polls _ hround => exact .inl ((hround.hasLive moves_behaves).1 hlive)

theorem Step.nextPeer_le (hstep : Step b entries b') : b.nextPeer.number ≤ b'.nextPeer.number := by
  cases hstep with
  | adds => exact Nat.le_of_lt (PeerId.number_lt_next _)
  | reports | stops | forgets | fetches | hears | polls | promotes => exact Nat.le_refl _

theorem nextPeer_le_of_way (hway : Way Step b entries b') :
    b.nextPeer.number ≤ b'.nextPeer.number := by
  induction hway with
  | refl => exact Nat.le_refl _
  | tail _ hstep ih => exact Nat.le_trans ih hstep.nextPeer_le

theorem hasLive_of_way (hway : Way Step b entries b') (hlive : b'.registry.HasLive peer) :
    b.registry.HasLive peer ∨ b.nextPeer.number ≤ peer.number := by
  induction hway with
  | refl => exact .inl hlive
  | tail hway hstep ih =>
    obtain hbefore | hnew := hstep.hasLive hlive
    · exact ih hbefore
    · exact .inr (Nat.le_trans (nextPeer_le_of_way hway) hnew)

end Ledger

end ReplicaHandshake
