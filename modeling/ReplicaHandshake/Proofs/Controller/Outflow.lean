import ReplicaHandshake.Proofs.Controller.Performed
import ReplicaHandshake.Proofs.Controller.Peers
import ReplicaHandshake.Proofs.Handler.Outflow

/-!
# What goes out of a controller

A controller presents one identity to all masters: all its handlers have it, so every question for a
table is asked under it (`Run.presents`).  So what goes out by each socket is known to the byte
(`Run.bytes_sent`):  nothing before it is connected, then the front of the question and of the
request for the data stream, and all of it when the socket is offered.
-/

namespace ReplicaHandshake

open Handler

namespace Controller

variable {settings : Settings} {past : List Entry} {c : Controller}

/-! ### One identity -/

/-- Every question for a table is asked under the identity of the controller. -/
theorem Run.presents (hrun : Run settings past c) (peer : PeerId) :
    ∀ x ∈ history peer past, x.Presents c.instanceId := by
  have hall := hrun.everyone (P := fun table hs h => Life table hs h ∧ h.HasIdentity c.instanceId ∧
    ∀ x ∈ hs, x.Presents c.instanceId) ?_ ?_
  · intro x hx
    obtain ⟨_, _, -, -, -, hpresents⟩ := hall.every peer (List.ne_nil_of_mem hx)
    exact hpresents x hx
  · intro peer table timeout now hs h hvalid hbegins
    exact ⟨.begins hvalid hbegins, hbegins.presents⟩
  · rintro table past hs h h' ⟨hlife, hid, hpast⟩ hturn
    obtain ⟨hid', hpresents⟩ := hturn.presents hlife.sound hid
    exact ⟨hlife.turns hturn, hid', List.forall_mem_append.2 ⟨hpast, hpresents⟩⟩

/-! ### Sockets -/

/-- What happens on behalf of a peer at some place of the entries. -/
theorem history_split {before after : List Entry} {e : Entry} {peer : PeerId}
    (hpeer : e.peer = some peer) :
    history peer (before ++ e :: after) =
      history peer before ++ e.happening :: history peer after := by
  simp [history, hpeer]

/-- Nothing is read from a socket or written to it before it has said that it is connected.  As long
as no two sockets were opened under one identity, what was written to a socket is at every moment
the front of what is to go out by it: the question for the table under the identity of the
controller, and by the first socket of a handler, after its masters have agreed, the request for the
data stream.  When a socket is offered, all of it was written, and the request is part of what the
first socket had to send. -/
theorem Run.bytes_sent (hrun : Run settings past c) :
    (∀ before e after socket, past = before ++ e :: after → e.happening.exchanged? = some socket →
      ∃ peer, e.peer = some peer ∧ Connection.HasConnected socket (history peer before)) ∧
    ((openedSockets (happenings past)).Nodup → ∀ peer, ∀ socket ∈ openedSockets (history peer past),
      ∃ table, Announces table (history peer past) ∧
        Along (AsksAgreed table) [] (history peer past) ∧
        (∀ before after, past = before ++ after →
          writtenBytes (about socket (happenings before)) = [] ∨
            ∃ bytes, encodeAll (outgoing c.instanceId table peer (history peer before) socket) =
              .ok bytes ∧
              writtenBytes (about socket (happenings before)) <+: bytes) ∧
        ∀ before e after, past = before ++ e :: after → e.happening.offered? = some socket →
          encodeAll (outgoing c.instanceId table peer (history peer before) socket) =
              .ok (writtenBytes (about socket (happenings before))) ∧
            ((openedSockets (history peer before)).head? = some socket →
              (requests (history peer before)).length = 1)) := by
  have hchronicle := hrun.chronicle
  refine ⟨fun before e after socket hpast hexchanged => ?_, fun hnodup peer socket howner => ?_⟩
  · have he : e ∈ past := by simp [hpast]
    obtain ⟨peer, hpeer, howner⟩ := hchronicle.opened he (Happening.socket?_of_exchanged hexchanged)
    obtain ⟨table, h, -, hlife⟩ := hchronicle.every peer (List.ne_nil_of_mem (mem_history he hpeer))
    have hexchanges := hlife.exchanges
    rw [hpast, history_split hpeer] at hexchanges
    exact ⟨peer, hpeer, hexchanges.split socket hexchanged⟩
  · have hsome : history peer past ≠ [] := by
      rintro hnone
      rw [hnone] at howner
      cases howner
    obtain ⟨table, h, rfl, hlife⟩ := hchronicle.every peer hsome
    have hlocal := nodup_history hnodup h.peer
    have hpresents := hrun.presents h.peer
    refine ⟨table, hlife.announces, hlife.asks, fun before after hpast => ?_,
      fun before e after hpast hoffered => ?_⟩
    · rw [hchronicle.about_eq_of_subset hnodup howner fun e he => by simp [hpast, he]]
      rw [hpast, history_append] at hlife hlocal hpresents
      exact hlife.written_prefix hlocal hpresents socket
    · have he : e ∈ past := by simp [hpast]
      have hpeer :=
        hchronicle.peer_of_socket hnodup howner he (Happening.socket?_of_offered hoffered)
      rw [hchronicle.about_eq_of_subset hnodup howner fun e he => by simp [hpast, he]]
      rw [hpast, history_split hpeer] at hlife hlocal hpresents
      exact hlife.written_of_offer hlocal hpresents hoffered

/-- When the second socket of the table is offered, all that is to go out by it was written. -/
theorem sent_rehearsed :
    ∃ before e after table, (rehearsed 4).past = before ++ e :: after ∧
      e.happening.offered? = some ⟨2⟩ ∧
      Announces table (history .first (rehearsed 4).past) ∧
      encodeAll (outgoing (rehearsed 4).controller.instanceId table .first (history .first before)
        ⟨2⟩) =
        .ok (writtenBytes (about ⟨2⟩ (happenings before))) := by
  have hoffered : ⟨2⟩ ∈ offeredSockets (happenings (rehearsed 4).past) := by decide +kernel
  have howner : ⟨2⟩ ∈ openedSockets (history .first (rehearsed 4).past) := by decide +kernel
  obtain ⟨table, hannounces, -, -, hwhole⟩ :=
    (rehearsed_run 4).bytes_sent.2 (by decide +kernel) .first ⟨2⟩ howner
  obtain ⟨x, hx, hoffered⟩ := List.mem_filterMap.1 hoffered
  obtain ⟨e, he, rfl⟩ := List.mem_map.1 hx
  obtain ⟨before, after, hpast⟩ := List.append_of_mem he
  exact ⟨before, e, after, table, hpast, hoffered, hannounces,
    (hwhole before e after hpast hoffered).1⟩

end Controller

end ReplicaHandshake
