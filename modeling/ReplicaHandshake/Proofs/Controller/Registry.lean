import ReplicaHandshake.Proofs.Controller.Deeds

/-!
# The registry as a house

All that is done to a registry are steps of its house, whatever list a handler is in
(`Registry.Comes`): the handlers take their turns in place, they are moved from one list to another,
and those that are drained are brought to their end and forgotten, or kept as distressed.
-/

namespace ReplicaHandshake

open Handler

variable {R : Handler → List Happening → Handler → Prop} {test : Handler → Bool}

theorem Handler.Behaves.only (hR : Behaves R) (test : Handler → Bool) : Behaves (Only test R) where
  way hdid := by
    obtain ⟨-, hdid⟩ | ⟨-, rfl, rfl⟩ := hdid.cases
    · exact hR.way hdid
    · exact .refl _
  rest hdid hrest := by
    obtain ⟨-, hdid⟩ | ⟨-, rfl, rfl⟩ := hdid.cases
    · exact hR.rest hdid hrest
    · exact hrest
  through hdid hover := by
    obtain ⟨-, hdid⟩ | ⟨-, rfl, rfl⟩ := hdid.cases
    · exact hR.through hdid hover
    · exact .inl rfl

section Each

variable {hs hs' : List Handler} {entries : List Entry}

theorem Each.atRest (h : Each R hs entries hs') (hR : Behaves R) (hrest : ∀ h ∈ hs, h.AtRest) :
    ∀ h ∈ hs', h.AtRest := by
  intro h' hh'
  obtain ⟨h, hh, did, hdid⟩ := h.origin hh'
  exact hR.rest hdid (hrest h hh)

/-- Where handlers do something one after the other, the house makes a step each time. -/
theorem Each.steps {step : House → List Entry → House → Prop} {s : House}
    (h : Each R hs entries hs') (hstep : ∀ h ∈ hs, ∀ did h' front back, R h did h' →
      step { s with handlers := front ++ h :: back } (marked h.peer did)
        { s with handlers := front ++ h' :: back })
    (front back : List Handler) :
    Way step { s with handlers := front ++ hs ++ back } entries
      { s with handlers := front ++ hs' ++ back } := by
  induction h generalizing front with
  | nil => exact .refl _
  | @cons h h' did rest rest' entries hdid _ ih =>
    obtain ⟨hh, hrest⟩ := List.forall_mem_cons.1 hstep
    have hways := ih hrest (front ++ [h'])
    have hone := hh did h' front (rest ++ back) hdid
    simp only [List.append_assoc, List.cons_append, List.nil_append] at hways ⊢
    exact hways.head hone

end Each

namespace Registry

variable {r r' : Registry} {entries : List Entry} {s : House}

/-- All handlers, live or distressed. -/
def handlers (r : Registry) : List Handler :=
  r.live ++ r.distressed

theorem mem_live_insert {h x : Handler} : x ∈ (r.insert h).live ↔ x ∈ r.live ∨ x = h := by
  simp only [live, Registry.insert, List.mem_append, List.mem_singleton]
  rw [or_right_comm]

/-- The live handlers are at rest, and the others distressed. -/
structure AtRest (r : Registry) : Prop where
  live : ∀ h ∈ r.live, h.AtRest
  distressed : ∀ h ∈ r.distressed, h.phase = .distressed

/-- By these entries a registry comes to be another one. -/
structure Comes (s : House) (r : Registry) (entries : List Entry) (r' : Registry) : Prop where
  way : Way House.Step { s with handlers := r.handlers } entries { s with handlers := r'.handlers }
  rest : r'.AtRest

theorem Round.atRest (h : Round R r entries r') (hR : Behaves R) (hrest : r.AtRest) :
    r'.AtRest where
  live := h.live.atRest hR hrest.live
  distressed := h.distressed ▸ hrest.distressed

theorem Round.comes (h : Round R r entries r') (hR : Behaves R) (hrest : r.AtRest) (s : House) :
    Comes s r entries r' := by
  refine ⟨?_, h.atRest hR hrest⟩
  rw [handlers, handlers, h.distressed]
  exact h.live.steps (fun _ _ _ _ _ _ hdid => .turns (hR.way hdid)) [] r.distressed

theorem Round.deeds (h : Round R r entries r')
    (hR : ∀ h ∈ r.live, ∀ did h', R h did h' → Deed h did h') (s : House) :
    Way House.Deed { s with handlers := r.handlers } entries
      { s with handlers := r'.handlers } := by
  rw [handlers, handlers, h.distressed]
  exact h.live.steps (fun h hh did h' _ _ hdid => .does (hR h hh did h' hdid)) [] r.distressed

/-! ### Moving and forgetting -/

theorem not_atWork_of_distressed {h : Handler} (hphase : h.phase = .distressed) : ¬h.AtWork :=
  fun hwork => hwork (.inr (by rw [hphase]; rfl))

theorem atRest_clearDistressed (hrest : r.AtRest) (tableName : String) :
    (r.clearDistressed tableName).2.AtRest :=
  ⟨hrest.live, fun h hh => hrest.distressed h (List.mem_filter.1 hh).1⟩

theorem clearDistressed_deed (hrest : r.AtRest) (tableName : String) (s : House) :
    House.Deed { s with handlers := r.handlers } []
      { s with handlers := (r.clearDistressed tableName).2.handlers } := by
  have hsplit : r.distressed.Perm (r.distressed.filter (·.tableName = tableName) ++
      r.distressed.filter (·.tableName ≠ tableName)) := by
    simpa using (List.filter_append_perm
      (fun h => decide (h.tableName = tableName)) r.distressed).symm
  refine .forgets (r.distressed.filter (·.tableName = tableName)) ?_ ?_
  · rw [handlers, handlers, ← List.append_assoc]
    apply (hsplit.append_left r.live).trans
    rw [← List.append_assoc]
    exact List.perm_append_comm.append_right _
  · intro h hh
    exact not_atWork_of_distressed (hrest.distressed h (List.mem_filter.1 hh).1)

theorem clearDistressed_comes (hrest : r.AtRest) (tableName : String) (s : House) :
    Comes s r [] (r.clearDistressed tableName).2 :=
  ⟨.single (clearDistressed_deed hrest tableName s).step, atRest_clearDistressed hrest _⟩

/-- The handlers after one was added, in the order of their lists. -/
theorem handlers_insert (r : Registry) (h : Handler) :
    (r.handlers ++ [h]).Perm (r.insert h).handlers := by
  rw [List.perm_iff_count]
  intro x
  simp only [handlers, live, Registry.insert, List.count_append]
  omega

/-- The live handlers after some were moved, in the order of their lists. -/
theorem live_promote (r : Registry) : r.live.Perm r.promote.2.live := by
  have hsplit := List.filter_append_perm (fun h => decide (h.phase = .streaming)) r.initializing
  simp only [promote, live, List.partition_eq_filter_filter]
  rw [List.perm_iff_count] at hsplit ⊢
  intro h
  have hcount := hsplit h
  simp only [List.count_append, Function.comp_def] at hcount ⊢
  omega

theorem atRest_promote (hrest : r.AtRest) : r.promote.2.AtRest :=
  ⟨fun h hh => hrest.live h (r.live_promote.mem_iff.2 hh), hrest.distressed⟩

theorem promote_deed (r : Registry) (s : House) :
    House.Deed { s with handlers := r.handlers } [] { s with handlers := r.promote.2.handlers } :=
  House.reorders (r.live_promote.append_right _)

theorem promote_comes (hrest : r.AtRest) (s : House) : Comes s r [] r.promote.2 :=
  ⟨.single (r.promote_deed s).step, atRest_promote hrest⟩

/-! ### The end of handlers -/

theorem endings_way {hs : List Handler} (hdrained : ∀ h ∈ hs, h.isDrained) (rest : List Handler)
    (s : House) :
    Way House.Deed { s with handlers := hs ++ rest }
      (hs.flatMap fun h => marked h.peer (endings h (r.verdict h)))
      { s with handlers := rest ++ r.parked hs } := by
  induction hs generalizing rest with
  | nil =>
    rw [List.nil_append, parked, List.filter_nil, List.map_nil, List.append_nil]
    exact .refl _
  | cons h hs ih =>
    obtain ⟨hh, hothers⟩ := List.forall_mem_cons.1 hdrained
    have hends : ∀ last : Phase, last.isTerminal →
        House.Deed { s with handlers := [] ++ h :: (hs ++ rest) } (marked h.peer (endings h last))
          { s with handlers := [] ++ { h with phase := last } :: (hs ++ rest) } :=
      fun _ hlast => .does (.ends hh hlast)
    rw [List.cons_append, List.flatMap_cons]
    by_cases hasked : r.voluntary.contains h.peer
    · have hverdict : r.verdict h = .stopped := if_pos hasked
      have hforgets : House.Deed { s with handlers := { h with phase := .stopped } :: (hs ++ rest) }
          []
          { s with handlers := hs ++ rest } :=
            .forgets [_] (.refl _) (by simp [AtWork, Phase.isTerminal])
      have hway := (Way.single (hends .stopped rfl)).tail hforgets
      rw [List.append_nil] at hway
      rw [hverdict, parked_cons_of_asked hasked]
      exact hway.trans (ih hothers rest)
    · have hverdict : r.verdict h = .distressed := if_neg hasked
      have hreorders : House.Deed
          { s with handlers := { h with phase := .distressed } :: (hs ++ rest) } []
          { s with handlers := hs ++ (rest ++ [{ h with phase := .distressed }]) } := by
        apply House.reorders
        rw [← List.append_assoc]
        exact (List.perm_append_singleton _ _).symm
      have hway := (Way.single (hends .distressed rfl)).tail hreorders
      rw [List.append_nil] at hway
      have hrest := hway.trans (ih hothers (rest ++ [{ h with phase := .distressed }]))
      rw [List.append_assoc, List.singleton_append] at hrest
      rw [hverdict, parked_cons_of_not hasked]
      exact hrest

theorem live_drained (r : Registry) : r.live.Perm (r.drained ++ r.undrained.live) := by
  have hsplit := List.filter_append_perm (·.isDrained) r.live
  simpa only [undrained, live, drained, List.filter_append, Bool.decide_eq_true] using hsplit.symm

theorem Reaps.live (h : Reaps r entries r') : r'.live = r.undrained.live := by
  rw [Registry.live, h.initializing, h.streaming, Registry.live]

theorem Reaps.atRest (h : Reaps r entries r') (hrest : r.AtRest) : r'.AtRest := by
  refine ⟨fun x hx => ?_, fun x hx => ?_⟩
  · rw [h.live] at hx
    exact hrest.live x (r.live_drained.mem_iff.2 (List.mem_append_right _ hx))
  · rw [h.distressed, List.mem_append] at hx
    obtain hx | hx := hx
    · exact hrest.distressed x hx
    · obtain ⟨_, -, rfl⟩ := List.mem_map.1 hx
      rfl

theorem Reaps.deeds (h : Reaps r entries r') (s : House) :
    Way House.Deed { s with handlers := r.handlers } entries
      { s with handlers := r'.handlers } := by
  have hdrained : ∀ x ∈ r.drained, x.isDrained := fun x hx => (List.mem_filter.1 hx).2
  have hway := endings_way (r := r) hdrained (r.undrained.live ++ r.distressed) s
  have hreorders : House.Deed { s with handlers := r.handlers } []
      { s with handlers := r.drained ++ (r.undrained.live ++ r.distressed) } := by
    apply House.reorders
    rw [← List.append_assoc]
    exact r.live_drained.append_right _
  have hhandlers : r'.handlers = r.undrained.live ++ r.distressed ++ r.parked r.drained := by
    rw [handlers, h.live, h.distressed, List.append_assoc]
    rfl
  rw [hhandlers, h.entries]
  exact hway.head hreorders

theorem Reaps.comes (h : Reaps r entries r') (hrest : r.AtRest) (s : House) :
    Comes s r entries r' :=
  ⟨House.steps_of_deeds (h.deeds s), h.atRest hrest⟩

end Registry

end ReplicaHandshake
