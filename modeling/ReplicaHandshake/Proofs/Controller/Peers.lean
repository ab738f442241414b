import ReplicaHandshake.Proofs.Controller.House
import ReplicaHandshake.Proofs.Handler.Handoff
import ReplicaHandshake.Proofs.Handler.Uses

/-!
# Peers

Where a chronicle is kept, everything that concerns a peer happens on its behalf: what the
multiplexer is offered for it (`Chronicle.peer_of_offer`), and all that is done with its sockets as
long as no two sockets were opened under one identity (`Chronicle.peer_of_socket`).  So what is
known of the history of every single peer is known of all that happened.
-/

namespace ReplicaHandshake

/-- The peer for which the multiplexer is offered something. -/
def Happening.offeredFor? : Happening → Option PeerId
  | answered (.offerWriter peer _ _) _ => some peer
  | answered (.offerSocket peer _) _ => some peer
  | _ => none

/-! ### Beginnings -/

/-- Whoever is heard of for the first time begins, and has a greater number than all that were
heard of before. -/
def BeginsNext (before : List Entry) (e : Entry) : Prop :=
  ∀ peer, e.peer = some peer → history peer before = [] →
    (∃ tableName masters, e.happening = .noted (.started tableName masters)) ∧
      ∀ other, history other before ≠ [] → other.number < peer.number

theorem House.Step.beginsNext {past entries : List Entry} {s s' : House} (hstep : Step s entries s')
    (hc : Chronicle past s) : Along BeginsNext past entries := by
  cases hstep with
  | @turns _ front back h _ hs _ =>
    obtain ⟨table, hlife⟩ := hc.lives h (by simp)
    apply along_of_split
    rintro before e after hsplit peer hpeer hnone
    have he : e ∈ marked h.peer hs := by simp [hsplit]
    obtain ⟨_, -, rfl⟩ := List.mem_map.1 he
    obtain rfl := Option.some.inj hpeer
    rw [history_append, List.append_eq_nil_iff] at hnone
    have hannounces := hlife.announces.2
    rw [hnone.1] at hannounces
    cases hannounces
  | @begins _ h hs table _ _ hvalid hbegins =>
    have hannounces := (Handler.Life.begins hvalid hbegins).announces.2
    apply along_of_split
    rintro before e after hsplit peer hpeer hnone
    obtain ⟨front, back, rfl, rfl, hback⟩ := List.map_eq_append_iff.1 hsplit
    obtain ⟨x, rest, rfl, rfl, rfl⟩ := List.map_eq_cons_iff.1 hback
    obtain rfl := Option.some.inj hpeer
    have hself := history_marked_self s.nextPeer front
    rw [history_append, List.append_eq_nil_iff] at hnone
    obtain rfl : front = [] := hself.symm.trans hnone.2
    refine ⟨⟨_, _, Option.some.inj hannounces⟩, fun other hsome => ?_⟩
    rw [List.map_nil, List.append_nil] at hsome
    exact Nat.lt_of_not_le fun hle => hsome (hc.unborn other hle)
  | forgets => trivial
  | silent =>
    refine ⟨?_, trivial⟩
    rintro peer ⟨⟩

theorem House.beginsNext_of_way {entries : List Entry} {s s' : House} (hnone : s.handlers = [])
    (hway : Way Step s entries s') : Along BeginsNext [] entries := by
  have hstart : Along BeginsNext [] [] ∧ Chronicle [] s := ⟨trivial, chronicle_nil hnone⟩
  have hend :=
    hway.invariant (I := fun past s => Along BeginsNext [] past ∧ Chronicle past s) ?_ hstart
  · exact hend.1
  · rintro past s hs s' ⟨hpast, hc⟩ hstep
    exact ⟨along_append.2 ⟨hpast, hstep.beginsNext hc⟩, hstep.chronicle hc⟩

/-! ### Histories of peers as parts -/

theorem history_sublist (peer : PeerId) (entries : List Entry) :
    (history peer entries).Sublist (happenings entries) :=
  List.filter_sublist.map _

theorem mem_history {peer : PeerId} {entries : List Entry} {e : Entry} (he : e ∈ entries)
    (hpeer : e.peer = some peer) : e.happening ∈ history peer entries :=
  List.mem_map_of_mem (List.mem_filter.2 ⟨he, by simpa using hpeer⟩)

theorem mem_of_history {peer : PeerId} {entries : List Entry} {x : Happening}
    (hx : x ∈ history peer entries) : ∃ e ∈ entries, e.peer = some peer ∧ e.happening = x := by
  obtain ⟨e, he, rfl⟩ := List.mem_map.1 hx
  obtain ⟨he, hpeer⟩ := List.mem_filter.1 he
  exact ⟨e, he, by simpa using hpeer, rfl⟩

theorem filterMap_history {β : Type} {f : Happening → Option β} {peer : PeerId}
    {entries : List Entry} (h : ∀ e ∈ entries, ∀ b, f e.happening = some b → e.peer = some peer) :
    (happenings entries).filterMap f = (history peer entries).filterMap f := by
  induction entries with
  | nil => rfl
  | cons e entries ih =>
    obtain ⟨he, hrest⟩ := List.forall_mem_cons.1 h
    have ih := ih hrest
    unfold history at ih ⊢
    by_cases hpeer : e.peer = some peer
    · simp [hpeer, List.filterMap_cons, ih]
    · have hnone : f e.happening = none :=
        Option.eq_none_iff_forall_ne_some.2 fun b hb => hpeer (he b hb)
      simp [hpeer, hnone, ih]

theorem eq_of_nodup_filterMap {ε β : Type} {f : ε → Option β} {l : List ε} {a b : ε} {x : β}
    (hnodup : (l.filterMap f).Nodup) (ha : a ∈ l) (hb : b ∈ l) (hfa : f a = some x)
    (hfb : f b = some x) : a = b := by
  induction l with
  | nil => cases ha
  | cons y l ih =>
    have hmem : ∀ {c}, c ∈ l → f c = some x → x ∈ l.filterMap f :=
      fun hc hfc => List.mem_filterMap.2 ⟨_, hc, hfc⟩
    rw [List.filterMap_cons] at hnodup
    rcases List.mem_cons.1 ha with rfl | ha' <;> rcases List.mem_cons.1 hb with rfl | hb'
    · rfl
    · rw [hfa, List.nodup_cons] at hnodup
      exact absurd (hmem hb' hfb) hnodup.1
    · rw [hfb, List.nodup_cons] at hnodup
      exact absurd (hmem ha' hfa) hnodup.1
    · refine ih ?_ ha' hb'
      split at hnodup
      · exact hnodup
      · exact (List.nodup_cons.1 hnodup).2

namespace House.Chronicle

open Handler

variable {past : List Entry} {s : House}

/-! ### Offers -/

/-- The multiplexer is offered something for a peer only on behalf of this peer. -/
theorem peer_of_offer (hc : Chronicle past s) {e : Entry} (he : e ∈ past) {peer : PeerId}
    (hoffer : e.happening.offeredFor? = some peer) : e.peer = some peer := by
  cases hpeer : e.peer with
  | none =>
    have hword := (hc.silent e he hpeer).word
    unfold Happening.offeredFor? at hoffer
    split at hoffer
    next heq => rw [heq] at hword; cases hword
    next heq => rw [heq] at hword; cases hword
    · cases hoffer
  | some owner =>
    have hmem := mem_history he hpeer
    obtain ⟨table, h, rfl, hlife⟩ := hc.every owner (List.ne_nil_of_mem hmem)
    obtain ⟨before, after, hsplit⟩ := List.append_of_mem hmem
    have hoffers := hlife.offers
    rw [hsplit] at hoffers
    obtain ⟨hwriters, hsockets⟩ := hoffers.split
    unfold Happening.offeredFor? at hoffer
    split at hoffer
    next heq =>
      cases hoffer
      rw [(hwriters _ _ _ _ heq).1]
    next heq =>
      cases hoffer
      rw [(hsockets _ _ _ heq).1]
    · cases hoffer

theorem handed_eq (hc : Chronicle past s) (peer : PeerId) :
    handed peer (happenings past) = handed peer (history peer past) := by
  refine filterMap_history fun e he item hitem => hc.peer_of_offer he ?_
  unfold Happening.handed? at hitem
  split at hitem
  next p id writer heq =>
    by_cases hp : p = peer
    · rw [heq, hp]
      rfl
    · simp [hp] at hitem
  next p handoff heq =>
    by_cases hp : p = peer
    · rw [heq, hp]
      rfl
    · simp [hp] at hitem
  · cases hitem

/-! ### Sockets -/

/-- Whatever is done with a socket is done on behalf of a peer to which it was opened. -/
theorem opened (hc : Chronicle past s) {e : Entry} (he : e ∈ past) {socket : SocketId}
    (hsocket : e.happening.socket? = some socket) :
    ∃ peer, e.peer = some peer ∧ socket ∈ openedSockets (history peer past) := by
  cases hpeer : e.peer with
  | none =>
    have hnone := (hc.silent e he hpeer).socket
    rw [hsocket] at hnone
    cases hnone
  | some peer =>
    have hmem := mem_history he hpeer
    obtain ⟨table, h, -, hlife⟩ := hc.every peer (List.ne_nil_of_mem hmem)
    exact ⟨peer, rfl, hlife.opened _ hmem socket hsocket⟩

end House.Chronicle

theorem peer_unique {entries : List Entry} (hnodup : (openedSockets (happenings entries)).Nodup)
    {socket : SocketId} {peer other : PeerId} (h : socket ∈ openedSockets (history peer entries))
    (h' : socket ∈ openedSockets (history other entries)) : peer = other := by
  have hentry : ∀ {p : PeerId}, socket ∈ openedSockets (history p entries) →
      ∃ e ∈ entries, e.peer = some p ∧ e.happening.opening?.map (·.2) = some socket := by
    intro p hp
    obtain ⟨⟨endpoint, _⟩, hopening, rfl⟩ := List.mem_map.1 hp
    obtain ⟨x, hx, hopening⟩ := List.mem_filterMap.1 hopening
    obtain ⟨e, he, hpeer, rfl⟩ := mem_of_history hx
    exact ⟨e, he, hpeer, by rw [hopening]; rfl⟩
  obtain ⟨e, he, hpeer, hopens⟩ := hentry h
  obtain ⟨e', he', hpeer', hopens'⟩ := hentry h'
  rw [openedSockets, openings, happenings, List.filterMap_map, List.map_filterMap] at hnodup
  obtain rfl := eq_of_nodup_filterMap hnodup he he' hopens hopens'
  rw [hpeer] at hpeer'
  exact Option.some.inj hpeer'

theorem nodup_history {entries : List Entry} (hnodup : (openedSockets (happenings entries)).Nodup)
    (peer : PeerId) : (openedSockets (history peer entries)).Nodup :=
  (((history_sublist peer entries).filterMap _).map _).nodup hnodup

namespace House.Chronicle

open Handler

variable {past : List Entry} {s : House}

/-- As long as no two sockets were opened under one identity, all that is done with a socket is done
on behalf of one peer. -/
theorem peer_of_socket (hc : Chronicle past s) (hnodup : (openedSockets (happenings past)).Nodup)
    {socket : SocketId} {peer : PeerId} (howner : socket ∈ openedSockets (history peer past))
    {e : Entry} (he : e ∈ past) (hsocket : e.happening.socket? = some socket) :
    e.peer = some peer := by
  obtain ⟨other, hother, hopened⟩ := hc.opened he hsocket
  rw [hother, peer_unique hnodup howner hopened]

theorem about_eq_of_subset (hc : Chronicle past s)
    (hnodup : (openedSockets (happenings past)).Nodup) {socket : SocketId} {peer : PeerId}
    (howner : socket ∈ openedSockets (history peer past)) {entries : List Entry}
    (hsub : ∀ e ∈ entries, e ∈ past) :
    about socket (happenings entries) = about socket (history peer entries) := by
  simp only [about, ← List.filterMap_eq_filter]
  refine filterMap_history fun e he x hx => hc.peer_of_socket hnodup howner (hsub e he) ?_
  obtain ⟨-, hsocket⟩ := Option.guard_eq_some_iff.1 hx
  simpa using hsocket

theorem about_eq (hc : Chronicle past s) (hnodup : (openedSockets (happenings past)).Nodup)
    {socket : SocketId} {peer : PeerId} (howner : socket ∈ openedSockets (history peer past)) :
    about socket (happenings past) = about socket (history peer past) :=
  hc.about_eq_of_subset hnodup howner fun _ he => he

/-- Nobody uses what was offered or closed before, on whosever behalf. -/
theorem uses (hc : Chronicle past s) (hnodup : (openedSockets (happenings past)).Nodup) :
    Along UsesItsOwn [] (happenings past) := by
  apply along_of_split
  intro before x after hsplit socket hused
  obtain ⟨front, back, rfl, rfl, hback⟩ := List.map_eq_append_iff.1 hsplit
  obtain ⟨e, rest, rfl, rfl, rfl⟩ := List.map_eq_cons_iff.1 hback
  have he : e ∈ front ++ e :: rest := by simp
  obtain ⟨peer, hpeer, howner⟩ := hc.opened he (Happening.socket?_of_used hused)
  have hmem := mem_history he hpeer
  obtain ⟨table, h, rfl, hlife⟩ := hc.every peer (List.ne_nil_of_mem hmem)
  have hlocal : UsesItsOwn (history h.peer front) e.happening := by
    have huses := hlife.uses (nodup_history hnodup h.peer)
    have hhistory : history h.peer (front ++ e :: rest) =
        history h.peer front ++ e.happening :: history h.peer rest := by
      simp [history, hpeer]
    rw [hhistory] at huses
    exact huses.split
  have hsame : ∀ {f : Happening → Option SocketId},
      (∀ x, f x = some socket → x.socket? = some socket) →
      socket ∈ (happenings front).filterMap f → socket ∈ (history h.peer front).filterMap f := by
    intro f hf hmem
    obtain ⟨x, hx, hsome⟩ := List.mem_filterMap.1 hmem
    obtain ⟨e', he', rfl⟩ := List.mem_map.1 hx
    have hpeer' := hc.peer_of_socket hnodup howner (List.mem_append_left _ he') (hf _ hsome)
    exact List.mem_filterMap.2 ⟨_, mem_history he' hpeer', hsome⟩
  obtain ⟨hoffered, hclosed⟩ := hlocal socket hused
  rw [List.nil_append]
  exact ⟨mt (hsame fun _ => Happening.socket?_of_offered) hoffered,
    mt (hsame fun _ => Happening.socket?_of_closed) hclosed⟩

end House.Chronicle

end ReplicaHandshake
