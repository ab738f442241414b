import Mathlib.Data.List.Count
import Mathlib.Data.List.Nodup
import ReplicaHandshake.Proofs.Handler.Deadline
import ReplicaHandshake.Proofs.Handler.Grounds
import ReplicaHandshake.Proofs.Handler.Postings

/-!
# Stages

The phases that a handler enters are a path, and on a path no phase comes twice (`IsPath.nodup`),
none but the first comes without one that it may follow (`IsPath.exists_before`), and a terminal one
comes last (`IsPath.last`).  So it is known how often a handler has entered each phase: it is
initializing once, stopping once if it is at work no more, and no phase is entered more often than
the one before it (`Life.entered_le`).

No handler comes to an outcome before it is over (`Life.no_outcome`).
-/

namespace ReplicaHandshake

/-- The outcome to which a handler came. -/
def Happening.outcome? : Happening → Option String
  | reported (.handlerOutcome _ outcome) => some outcome
  | _ => none

/-- The outcomes to which handlers came, in this order. -/
def outcomes (hs : List Happening) : List String :=
  hs.filterMap (·.outcome?)

@[simp] theorem outcomes_append (past hs : List Happening) :
    outcomes (past ++ hs) = outcomes past ++ outcomes hs :=
  List.filterMap_append

theorem Booked.no_outcome {tableName : String} {hs : List Happening}
    (hbooked : Booked tableName false hs) :
    outcomes hs = [] := by
  induction hbooked with
  | nil => rfl
  | post hpost _ ih =>
    rw [outcomes_append, ih, List.append_nil]
    cases hpost with
    | @plain x hplain =>
      refine List.filterMap_eq_nil_iff.2 (List.forall_mem_singleton.2 ?_)
      unfold Happening.outcome?
      split
      · cases hplain
      · rfl
    | concludes _ hover => cases hover
    | _ => rfl

/-! ### Paths -/

/-- How many phases come before a phase at least. -/
def Phase.rank : Phase → Nat
  | initializing => 0
  | awaitingRendezvous => 1
  | requestingStream => 2
  | handingOff => 3
  | streaming => 4
  | stopping => 5
  | stopped | distressed => 6

theorem Phase.rank_lt_of_next {old new : Phase} (hnext : new ∈ old.next) : old.rank < new.rank := by
  revert hnext
  cases old <;> cases new <;> decide

namespace Handler

variable {path : List Phase} {phase old new : Phase}

theorem IsPath.nodup (hpath : IsPath path) : path.Nodup := by
  have hrising : (path.map Phase.rank).IsChain (· < ·) :=
    (List.isChain_map _).2 (hpath.imp fun _ _ => Phase.rank_lt_of_next)
  exact .of_map _ (hrising.pairwise.imp fun hlt => Nat.ne_of_lt hlt)

/-- On a path no phase but the first one comes without a phase that it may follow. -/
theorem IsPath.exists_before (hpath : IsPath (old :: path)) (hmem : phase ∈ path) :
    ∃ before ∈ old :: path, phase ∈ before.next := by
  induction path generalizing old with
  | nil => cases hmem
  | cons second rest ih =>
    obtain ⟨hnext, hrest⟩ := List.isChain_cons_cons.1 hpath
    obtain rfl | hmem := List.mem_cons.1 hmem
    · exact ⟨old, List.mem_cons_self, hnext⟩
    · obtain ⟨before, hbefore, hnext⟩ := ih hrest hmem
      exact ⟨before, List.mem_cons_of_mem _ hbefore, hnext⟩

/-- After a terminal phase a path ends. -/
theorem IsPath.last (hpath : IsPath path) (hmem : phase ∈ path)
    (hterminal : phase.isTerminal = true) :
    path.getLast? = some phase := by
  obtain ⟨front, back, rfl⟩ := List.append_of_mem hmem
  cases back with
  | nil => exact List.getLast?_concat
  | cons later back =>
    have hnext := (List.isChain_cons_cons.1 (List.isChain_append.1 hpath).2.1).1
    rw [Phase.next_eq_nil_iff.2 hterminal] at hnext
    cases hnext

/-! ### Phases that were entered -/

variable {h h' : Handler} {past hs : List Happening} {table : TableSettings}

theorem count_phases {path : List Phase} (hphases : phases past = path.map Phase.name)
    (phase : Phase) : (phases past).count phase.name = path.count phase := by
  rw [hphases]
  exact List.count_map_of_injective path Phase.name (fun _ _ => Phase.name_injective) phase

theorem Life.entered_initializing (hlife : Life table past h) :
    (phases past).count Phase.initializing.name = 1 := by
  obtain ⟨path, hphases, hhead, -, hpath⟩ := hlife.path
  rw [count_phases hphases]
  exact List.count_eq_one_of_mem hpath.nodup (List.mem_of_mem_head? hhead)

/-- A handler that is not at work has entered stopping once, and no other one has. -/
theorem Life.entered_stopping (hlife : Life table past h) :
    (phases past).count Phase.stopping.name = if h.phase = .stopping ∨
      h.phase.isTerminal then 1 else 0 := by
  have hentered := hlife.stopping_iff
  rw [AtWork, Classical.not_not] at hentered
  obtain ⟨path, hphases, -, -, hpath⟩ := hlife.path
  split
  next hover =>
    refine Nat.le_antisymm ?_ (List.count_pos_iff.2 (hentered.2 hover))
    rw [count_phases hphases]
    exact List.nodup_iff_count_le_one.1 hpath.nodup _
  next hwork => exact List.count_eq_zero.2 (mt hentered.1 hwork)

/-- A handler has entered a terminal phase once, if it is in it, and else not at all. -/
theorem Life.entered_terminal (hlife : Life table past h) (hterminal : phase.isTerminal = true) :
    (phases past).count phase.name = if h.phase = phase then 1 else 0 := by
  obtain ⟨path, hphases, -, hlast, hpath⟩ := hlife.path
  rw [count_phases hphases]
  split
  next hsame =>
    subst hsame
    exact List.count_eq_one_of_mem hpath.nodup (List.mem_of_getLast? hlast)
  next hother =>
    refine List.count_eq_zero.2 fun hmem => hother ?_
    rw [hpath.last hmem hterminal] at hlast
    exact (Option.some.inj hlast).symm

/-- A phase that may only follow another one is not entered more often. -/
theorem Life.entered_le (hlife : Life table past h) (hfirst : new ≠ .initializing)
    (honly : ∀ phase : Phase, new ∈ phase.next → phase = old) :
    (phases past).count new.name ≤ (phases past).count old.name := by
  obtain ⟨path, hphases, hhead, -, hpath⟩ := hlife.path
  rw [count_phases hphases, count_phases hphases]
  by_cases hmem : new ∈ path
  · refine Nat.le_trans (List.nodup_iff_count_le_one.1 hpath.nodup _) (List.count_pos_iff.2 ?_)
    obtain ⟨rest, rfl⟩ := List.head?_eq_some_iff.1 hhead
    obtain ⟨before, hbefore, hnext⟩ :=
      hpath.exists_before ((List.mem_cons.1 hmem).resolve_left hfirst)
    exact honly before hnext ▸ hbefore
  · rw [List.count_eq_zero.2 hmem]
    exact Nat.zero_le _

/-! ### Outcomes -/

/-- Until it is over, a handler comes to no outcome. -/
theorem Life.no_outcome (hlife : Life table past h) (hlive : h.phase.isTerminal = false) :
    outcomes past = [] := by
  have hbooked := hlife.booked
  rw [hlive] at hbooked
  exact hbooked.no_outcome

end Handler

end ReplicaHandshake
