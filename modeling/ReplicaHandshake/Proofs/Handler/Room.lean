import ReplicaHandshake.Proofs.Connection.Room
import ReplicaHandshake.Proofs.Handler.Buffers

/-!
# Handlers with room

While a handler is at work, all its connections have room or read when they are polled
(`Turn.isRoomy`): only those read that wait for a frame, and who has heard that the stream starts is
not polled any more.
-/

namespace ReplicaHandshake.Handler

variable {h h' : Handler} {hs : List Happening} {table : TableSettings} {n : Nat}

/-- While the handler is at work, its connections have room. -/
def IsRoomy (h : Handler) : Prop :=
  h.AtWork → ∀ c ∈ h.connections, c.IsRoomy

theorem roomy_put {before after : List Connection} {c c' : Connection}
    (hconnections : h.connections = before ++ c :: after) (hroomy : ∀ c ∈ h.connections, c.IsRoomy)
    (hkept : c.IsRoomy → c'.IsRoomy) : ∀ x ∈ (h.put before c' after).connections, x.IsRoomy := by
  intro x hx
  obtain hx | rfl := mem_put hconnections hx
  · exact hroomy x hx
  · exact hkept (hroomy c (mem_of_split hconnections))

theorem Sound.state_of_polls (hsound : h.Sound) {before after : List Connection} {c : Connection}
    (hpolls : h.Polls before) (hconnections : h.connections = before ++ c :: after) :
    c.state ≠ .streamStarted ∧ c.state ≠ .transferred := by
  obtain hphase | ⟨hphase, rfl⟩ := hpolls
  · obtain hstate | hstate | hstate := (hsound.gathers hphase).states c (mem_of_split hconnections)
    all_goals rw [hstate]; exact ⟨nofun, nofun⟩
  · obtain ⟨first, rest, hsplit, hstate, -⟩ := (hsound.requests hphase).states
    rw [hsplit] at hconnections
    cases hconnections
    rw [hstate]
    exact ⟨nofun, nofun⟩

theorem Move.roomy (hmove : Move h hs h') (hsound : h.Sound) (hwork : h'.AtWork) (hpos : 0 < n)
    (hbuffers : ∀ c ∈ h.connections, c.inbound.capacity = n)
    (hroomy : ∀ c ∈ h.connections, c.IsRoomy) :
    ∀ c ∈ h'.connections, c.IsRoomy := by
  have hoffered : ∀ {given left : List Connection} {c c' : Connection} {hs : List Happening}
      {taken : Bool},
      h.Hands given c left → Connection.Offer c hs taken c' →
      ∀ x ∈ (h.put given c' left).connections, x.IsRoomy := by
    intro given left c c' hs taken hhands hoffer
    refine roomy_put hhands.2.2.1 hroomy fun hc => hoffer.roomy (hsound.kept_of_hands hhands) hc ?_
    rwa [hbuffers c (mem_of_split hhands.2.2.1)]
  cases hmove with
  | exchange hpolls hconnections hstep =>
    obtain ⟨hstate, hfree⟩ := hsound.state_of_polls hpolls hconnections
    exact roomy_put hconnections hroomy (hstep.roomy hstate hfree)
  | tableInfo _ hconnections hhear => exact roomy_put hconnections hroomy hhear.roomy
  | @rendezvous h₁ first first' rest _ _ _ hphase _ hconnections hresolves hrequest =>
    have hholds := (hsound.gathers (.inr hphase)).holds first (by simp [hconnections])
    rw [← hresolves.sockets.2] at hconnections hroomy
    exact roomy_put (h := h₁) hconnections hroomy (hrequest.roomy hholds)
  | streamStart _ hconnections hhear => exact roomy_put hconnections hroomy hhear.roomy
  | write hhands hwrite =>
    refine roomy_put hhands.2.2.1 hroomy fun hc => ?_
    cases hwrite with
    | some | none => exact ⟨hc.le, hc.room⟩
  | socketTaken hhands hoffer | socketRefused hhands hoffer => exact hoffered hhands hoffer
  | allConnected | writerTaken | writerRefused | waits | streams => exact hroomy
  | fails => exact absurd hwork (not_atWork_stopping rfl)
  | stopAccepted hphase | stopRefused hphase => exact absurd hwork (not_atWork_stopping hphase)

theorem Turn.isRoomy (hturn : Turn h hs h') (hsound : h.Sound) (hbuffers : h.HasBuffers n)
    (hpos : 0 < n) (hroomy : h.IsRoomy) : h'.IsRoomy := by
  intro hwork'
  have hwork := atWork_of_way hsound (.single hturn) hwork'
  have hcapacity : ∀ c ∈ h.connections, c.inbound.capacity = n :=
    fun c hc => congrArg Prod.fst (hbuffers hwork c hc)
  exact (hturn.move_of_atWork hwork').roomy hsound hwork' hpos hcapacity (hroomy hwork)

theorem Begins.isRoomy {id : InstanceId} {peer : PeerId} {timeout : Duration} {now : Instant}
    (hpos : 0 < n) (hbegins : Begins (new id peer table n timeout now) hs h) : h.IsRoomy := by
  have hnew : ∀ c ∈ (new id peer table n timeout now).connections, c.inbound =
      { capacity := n } := by
    intro c hc
    obtain ⟨_, -, rfl⟩ := List.mem_map.1 hc
    rfl
  intro hwork c hc
  apply Connection.isRoomy_of_room
  rw [hbegins.all_look (fun _ _ => rfl) hnew hwork c hc]
  exact hpos

end ReplicaHandshake.Handler
