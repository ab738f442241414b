import Mathlib.Algebra.BigOperators.Group.List.Basic
import Mathlib.Algebra.GroupWithZero.Nat
import Mathlib.Data.List.Nodup
import ReplicaHandshake.Proofs.Controller.Conduct
import ReplicaHandshake.Proofs.Controller.Peers

/-!
# Tallies

How often something has happened in a run is the sum of how often it has happened on behalf of each
peer, over all peers that were issued so far (`Run.tally`), as long as it never happens on nobody's
behalf; and so it is with what is read off the happenings (`Run.tally_filterMap`).

The peers that were issued are those with a history (`Run.issued_iff`), and as many of the live
handlers as have some property are counted by their peers (`Run.tally_live`).
-/

namespace ReplicaHandshake

/-! ### Peers in their order -/

theorem mem_firstIds {first peer : PeerId} {n : Nat} :
    peer ∈ firstIds first PeerId.next n ↔
      first.number ≤ peer.number ∧ peer.number < first.number + n := by
  induction n generalizing first with
  | zero =>
    rw [firstIds, Nat.add_zero]
    exact iff_of_false List.not_mem_nil fun h => Nat.not_lt.2 h.1 h.2
  | succ n ih =>
    have hself : peer = first ↔ peer.number = first.number :=
      ⟨congrArg PeerId.number, fun h => congrArg PeerId.mk h⟩
    have hnext : first.next.number = first.number + 1 := rfl
    rw [firstIds, List.mem_cons, ih, hself, hnext]
    omega

theorem nodup_firstIds (first : PeerId) (n : Nat) : (firstIds first PeerId.next n).Nodup := by
  induction n generalizing first with
  | zero => exact .nil
  | succ n ih =>
    rw [firstIds, List.nodup_cons, mem_firstIds]
    exact ⟨fun h => Nat.not_le.2 first.number_lt_next h.1, ih _⟩

theorem length_firstIds {α : Type} (first : α) (next : α → α) (n : Nat) :
    (firstIds first next n).length = n := by
  induction n generalizing first with
  | zero => rfl
  | succ n ih => rw [firstIds, List.length_cons, ih]

/-! ### Counting by keys -/

section Keys

variable {ε κ : Type} [DecidableEq κ] {key : ε → κ} {keys : List κ}

/-- One of several keys is this one. -/
theorem sum_indicator (hnodup : keys.Nodup) {k : κ} (hk : k ∈ keys) (n : Nat) :
    (keys.map fun k' => if k = k' then n else 0).sum = n := by
  induction keys with
  | nil => cases hk
  | cons k' rest ih =>
    obtain ⟨hfresh, hnodup⟩ := List.nodup_cons.1 hnodup
    rw [List.map_cons, List.sum_cons]
    obtain rfl | hmem := List.mem_cons.1 hk
    · have hnone : ∀ k' ∈ rest, (if k = k' then n else 0) = 0 := by
        intro k' hmem
        refine if_neg ?_
        rintro rfl
        exact hfresh hmem
      rw [if_pos rfl, List.map_congr_left hnone]
      simp
    · have hother : k ≠ k' := by
        rintro rfl
        exact hfresh hmem
      rw [if_neg hother, Nat.zero_add, ih hnodup hmem]

/-- What is counted of a list is counted key by key. -/
theorem countP_eq_sum (hnodup : keys.Nodup) {p : ε → Bool} {l : List ε}
    (hkeys : ∀ x ∈ l, p x → key x ∈ keys) :
    l.countP p = (keys.map fun k => (l.filter (key · = k)).countP p).sum := by
  induction l with
  | nil => simp
  | cons x l ih =>
    obtain ⟨hx, hrest⟩ := List.forall_mem_cons.1 hkeys
    have hsplit : ∀ k, ((x :: l).filter (key · = k)).countP p =
        (l.filter (key · = k)).countP p + if key x = k then (if p x then 1 else 0) else 0 := by
      intro k
      by_cases hk : key x = k
      · rw [List.filter_cons_of_pos (p := (key · = k)) (decide_eq_true hk),
          List.countP_cons, if_pos hk]
      · rw [List.filter_cons_of_neg (p := (key · = k)) (by simpa using hk), if_neg hk, Nat.add_zero]
    rw [List.countP_cons, ih hrest, List.map_congr_left fun k _ => hsplit k, List.sum_map_add]
    by_cases hp : p x
    · rw [sum_indicator hnodup (hx hp)]
    · simp [hp]

end Keys

namespace Controller

open Handler Registry

variable {settings : Settings} {past : List Entry} {c : Controller}

/-! ### Peers that were issued -/

/-- All peers that have got a handler so far, in their order. -/
def issued (c : Controller) : List PeerId :=
  firstIds .first PeerId.next (c.nextPeer.number - 1)

theorem nodup_issued (c : Controller) : c.issued.Nodup :=
  nodup_firstIds ..

theorem length_issued (c : Controller) : c.issued.length = c.nextPeer.number - 1 :=
  length_firstIds ..

theorem issued_step {past entries : List Entry} {s s' : House} (hstep : House.Step s entries s')
    (hc : House.Chronicle past s)
    (hissued : 0 < s.nextPeer.number ∧
      ∀ peer, history peer past ≠ [] ↔ 0 < peer.number ∧ peer.number < s.nextPeer.number) :
    0 < s'.nextPeer.number ∧
      ∀ peer, history peer (past ++ entries) ≠ [] ↔
        0 < peer.number ∧ peer.number < s'.nextPeer.number := by
  obtain ⟨hpos, hissued⟩ := hissued
  cases hstep with
  | @turns t before after h h' hs hway =>
    refine ⟨hpos, fun peer => ?_⟩
    rw [← hissued peer]
    by_cases hpeer : h.peer = peer
    · subst hpeer
      obtain ⟨table, hlife⟩ := hc.lives h (by simp)
      rw [House.history_self]
      exact iff_of_true (List.append_ne_nil_of_left_ne_nil hlife.ne_nil _) hlife.ne_nil
    · rw [House.history_other hpeer]
  | @begins _ h hs table timeout now hvalid hbegins =>
    refine ⟨Nat.succ_pos _, fun peer => ?_⟩
    have hnext : s.nextPeer.next.number = s.nextPeer.number + 1 := rfl
    rw [hnext]
    by_cases hpeer : s.nextPeer = peer
    · subst hpeer
      rw [House.history_self]
      refine iff_of_true (List.append_ne_nil_of_right_ne_nil _ (Life.begins hvalid hbegins).ne_nil)
        ?_
      exact ⟨hpos, Nat.lt_succ_self _⟩
    · have hother : peer.number ≠ s.nextPeer.number := fun h => hpeer (congrArg PeerId.mk h).symm
      rw [House.history_other hpeer, hissued peer]
      omega
  | forgets =>
    rw [List.append_nil]
    exact ⟨hpos, hissued⟩
  | silent x =>
    refine ⟨hpos, fun peer => ?_⟩
    rw [← hissued peer, history_append]
    exact iff_of_eq (congrArg (· ≠ []) (List.append_nil _))

/-- The peers that were issued are those with a history. -/
theorem Run.issued_iff (hrun : Run settings past c) {peer : PeerId} :
    history peer past ≠ [] ↔ peer ∈ c.issued := by
  have hstart : House.Chronicle [] (blank c.instanceId settings.frameBuffer).house :=
    House.chronicle_nil rfl
  have hend :=
    hrun.comes.invariant (I := fun past s => House.Chronicle past s ∧ 0 < s.nextPeer.number ∧
    ∀ peer, history peer past ≠ [] ↔ 0 < peer.number ∧ peer.number < s.nextPeer.number) ?_
      ⟨hstart, ?_⟩
  · obtain ⟨-, hpos, hissued⟩ := hend
    rw [List.nil_append] at hissued
    have hhouse : c.house.nextPeer = c.nextPeer := rfl
    rw [hissued peer, issued, mem_firstIds, PeerId.first]
    rw [hhouse] at hpos ⊢
    show _ ↔ 1 ≤ peer.number ∧ peer.number < 1 + (c.nextPeer.number - 1)
    omega
  · rintro past s entries s' ⟨hc, hissued⟩ hstep
    exact ⟨hstep.chronicle hc, issued_step hstep hc hissued⟩
  · refine ⟨Nat.one_pos, fun peer => iff_of_false (fun h => h rfl) fun h => ?_⟩
    exact Nat.not_lt.2 h.1 h.2

theorem Run.issued_of_live (hrun : Run settings past c) {h : Handler} (hh : h ∈ c.registry.live) :
    h.peer ∈ c.issued := by
  obtain ⟨table, hlife⟩ := hrun.chronicle.lives h (List.mem_append_left _ hh)
  exact hrun.issued_iff.1 hlife.ne_nil

/-! ### Tallies -/

/-- What never happens on nobody's behalf happens as often as on behalf of all peers together. -/
theorem Run.tally (hrun : Run settings past c) {p : Happening → Bool}
    (hp : ∀ x, x.IsFormal → p x = false) :
    (happenings past).countP p = (c.issued.map fun peer => (history peer past).countP p).sum := by
  have hkeys : ∀ e ∈ past, p e.happening → e.peer ∈ c.issued.map some := by
    intro e he hcounts
    cases hpeer : e.peer with
    | none =>
      rw [hp _ (hrun.formal he hpeer)] at hcounts
      cases hcounts
    | some peer =>
      have hsome := List.ne_nil_of_mem (mem_history he hpeer)
      exact List.mem_map_of_mem (hrun.issued_iff.1 hsome)
  have hnodup : (c.issued.map some).Nodup :=
    List.Nodup.map (fun _ _ => Option.some.inj) c.nodup_issued
  have hsum := countP_eq_sum (p := fun e : Entry => p e.happening) hnodup hkeys
  simp only [happenings, history, List.countP_map]
  rw [List.map_map] at hsum
  exact hsum

/-- What is read off the histories of all peers is what is read off the run. -/
theorem Run.tally_filterMap {β : Type} (hrun : Run settings past c) {f : Happening → Option β}
    (hf : ∀ x, x.IsFormal → f x = none) (p : β → Bool) :
    ((happenings past).filterMap f).countP p =
      (c.issued.map fun peer => ((history peer past).filterMap f).countP p).sum := by
  simp only [List.countP_filterMap]
  refine hrun.tally fun x hx => ?_
  rw [hf x hx]
  rfl

/-- Live handlers are counted by their peers. -/
theorem Run.tally_live (hrun : Run settings past c) (q : Handler → Bool) :
    c.registry.live.countP q =
      (c.issued.map fun peer => (c.registry.live.filter (·.peer = peer)).countP q).sum :=
  countP_eq_sum c.nodup_issued fun _ hh _ => hrun.issued_of_live hh

end Controller

end ReplicaHandshake
