import ReplicaHandshake.Proofs.Handler.Life

/-!
# What a handler uses

A handler uses only sockets that were opened to it, and uses none that it has closed or offered to
the multiplexer, taken or not (`Life.uses`).  A socket is its own as long as no two were opened
under one identity, so this is where the network has to keep what it promises.
-/

namespace ReplicaHandshake

/-- What is used has not been offered nor closed before. -/
def UsesItsOwn (past : List Happening) (x : Happening) : Prop :=
  ∀ socket, x.used? = some socket → socket ∉ offeredSockets past ∧ socket ∉ closedSockets past

theorem along_of_still {past hs : List Happening}
    (h : ∀ x ∈ hs, x.Still ∧ UsesItsOwn past x) : Along UsesItsOwn past hs := by
  induction hs generalizing past with
  | nil => trivial
  | cons x hs ih =>
    obtain ⟨⟨hstill, hx⟩, hrest⟩ := List.forall_mem_cons.1 h
    refine ⟨hx, ih fun y hy => ⟨(hrest y hy).1, fun socket hused => ?_⟩⟩
    have hall : ∀ z ∈ [x], z.Still := by simpa using hstill
    rw [offeredSockets_append, closedSockets_append, offeredSockets_of_still hall,
      closedSockets_of_still hall, List.append_nil, List.append_nil]
    exact (hrest y hy).2 socket hused

theorem along_of_unused {past hs : List Happening} (h : ∀ x ∈ hs, x.used? = none) :
    Along UsesItsOwn past hs :=
  along_of_forall fun x hx past socket hused => by simp [h x hx] at hused

theorem Happening.used?_of_socket {x : Happening} (h : x.socket? = none) : x.used? = none := by
  rw [Option.eq_none_iff_forall_ne_some]
  intro socket hused
  simp [socket?_of_used hused] at h

namespace Handler

variable {h h' : Handler} {past hs : List Happening} {table : TableSettings}

/-- Of what was offered nothing is in use. -/
def LetsGo (past : List Happening) (h : Handler) : Prop :=
  ∀ socket ∈ offeredSockets past, ∀ c ∈ h.connections, c.socket ≠ some socket

theorem mem_ownedSockets {c : Connection} {socket : SocketId} (hc : c ∈ h.connections)
    (hsocket : c.socket = some socket) : socket ∈ h.ownedSockets :=
  List.mem_flatMap.2 ⟨c, hc, by simp [Connection.ownedSockets, hsocket]⟩

theorem View.socket (hview : View h hs h') (hsound : h.Sound) {x : Happening} (hx : x ∈ hs)
    {socket : SocketId} (hsocket : x.socket? = some socket) : socket ∈ h.ownedSockets := by
  cases hview with
  | acts _ _ hconnections _ hact hnone =>
    have hc := mem_of_split hconnections
    simp only [List.mem_append] at hx hnone
    rcases hx with (hx | hx) | hx
    · simp [hnone x (.inl hx)] at hsocket
    · exact List.mem_flatMap.2 ⟨_, hc, (hact.socket (hsound.connections _ hc) hx hsocket).2⟩
    · simp [hnone x (.inr hx)] at hsocket
  | goesOn _ _ _ hnone | rests _ _ hnone => simp [hnone x hx] at hsocket
  | ends _ _ htalks hcloses =>
    rcases List.mem_append.1 hx with hx | hx
    · obtain ⟨c, hc, hown⟩ := (htalks x hx).2 socket hsocket
      exact mem_ownedSockets hc hown
    · exact hcloses.socket x hx socket hsocket

theorem not_mem_of_nodup {before after : List Connection} {c d : Connection}
    (hnodup : h.ownedSockets.Nodup) (hconnections : h.connections = before ++ c :: after)
    (hd : d ∈ before ∨ d ∈ after) {socket : SocketId} (hc : socket ∈ c.ownedSockets) :
    socket ∉ d.ownedSockets := by
  intro hown
  rw [ownedSockets, hconnections, List.flatMap_append, List.flatMap_cons, List.nodup_append,
    List.nodup_append] at hnodup
  obtain ⟨-, ⟨-, -, hafter⟩, hbefore⟩ := hnodup
  rcases hd with hd | hd
  · have hmem : socket ∈ before.flatMap Connection.ownedSockets := List.mem_flatMap.2 ⟨d, hd, hown⟩
    exact hbefore socket hmem socket (List.mem_append_left _ hc) rfl
  · exact hafter socket hc socket (List.mem_flatMap.2 ⟨d, hd, hown⟩) rfl

theorem View.letsGo (hview : View h hs h') (hsound' : h'.Sound) (hnodup : h.ownedSockets.Nodup)
    (hfree : LetsGo past h) : LetsGo (past ++ hs) h' := by
  have hover : ¬h'.AtWork → ∀ c ∈ h'.connections, ∀ socket, c.socket ≠ some socket := by
    intro hover c hc socket hsocket
    have hmem := mem_ownedSockets hc hsocket
    simp [ownedSockets_of_over hsound' hover] at hmem
  cases hview with
  | @acts _ before after c c' front hs back _ _ hconnections hconnections' hact hnone =>
    have hfront : offeredSockets front = [] := offeredSockets_of_still fun x hx =>
      Happening.still_of_socket? (hnone x (List.mem_append_left back hx))
    have hback : offeredSockets back = [] := offeredSockets_of_still fun x hx =>
      Happening.still_of_socket? (hnone x (List.mem_append_right front hx))
    intro socket hoffered d hd
    simp only [offeredSockets_append, hfront, hback, List.append_nil, List.nil_append,
      List.mem_append] at hoffered
    have hd' : d = c' ∨ d ∈ before ∨ d ∈ after := by
      simp only [hconnections', List.mem_append, List.mem_cons] at hd
      rcases hd with hd | rfl | hd <;> simp [*]
    have hmem : d ∈ before ∨ d ∈ after → d ∈ h.connections := by
      rintro (hd | hd) <;> simp [hconnections, hd]
    obtain ⟨hkeeps, htalk⟩ | ⟨own, taken, -, rfl, -, hgone, howned, -⟩ := hact.view
    · have hstill := offeredSockets_of_still fun x hx => (htalk x hx).still
      rw [hstill] at hoffered
      have hoffered := hoffered.resolve_right (by simp)
      rcases hd' with rfl | hd'
      · rw [hkeeps.2.1]
        exact hfree socket hoffered c (mem_of_split hconnections)
      · exact hfree socket hoffered d (hmem hd')
    · rcases hd' with rfl | hd'
      · simp [hgone]
      rcases hoffered with hoffered | hoffered
      · exact hfree socket hoffered d (hmem hd')
      · simp only [offeredSockets, List.filterMap_cons, Happening.offered?, List.filterMap_nil,
          List.mem_singleton] at hoffered
        subst hoffered
        intro hsocket
        have hc : socket ∈ c.ownedSockets := by simp [howned]
        exact not_mem_of_nodup hnodup hconnections hd' hc
          (by simp [Connection.ownedSockets, hsocket])
  | goesOn _ _ hconnections hnone =>
    have hstill := offeredSockets_of_still fun x hx => Happening.still_of_socket? (hnone x hx)
    rw [LetsGo, offeredSockets_append, hstill, List.append_nil, hconnections]
    exact hfree
  | ends _ hover' | rests _ hover' => exact fun socket _ c hc => hover hover' c hc socket

theorem View.uses (hview : View h hs h') (hfree : LetsGo past h)
    (hclosed : ∀ socket ∈ h.ownedSockets, socket ∉ closedSockets past) :
    Along UsesItsOwn past hs := by
  have hown : ∀ {c : Connection} {socket : SocketId}, c ∈ h.connections →
      c.socket = some socket → socket ∉ offeredSockets past ∧ socket ∉ closedSockets past := by
    intro c socket hc hsocket
    refine ⟨fun hoffered => hfree socket hoffered c hc hsocket, ?_⟩
    exact hclosed socket (mem_ownedSockets hc hsocket)
  cases hview with
  | @acts _ before after c c' front hs back _ _ hconnections _ hact hnone =>
    have hfront : ∀ x ∈ front, x.socket? = none :=
      fun x hx => hnone x (List.mem_append_left back hx)
    have hstill : ∀ x ∈ front, x.Still := fun x hx => Happening.still_of_socket? (hfront x hx)
    have hsame : offeredSockets (past ++ front) = offeredSockets past ∧
        closedSockets (past ++ front) = closedSockets past := by
      simp [offeredSockets_of_still hstill, closedSockets_of_still hstill]
    refine along_append.2 ⟨along_append.2 ⟨?_, ?_⟩, ?_⟩
    · exact along_of_unused fun x hx => Happening.used?_of_socket (hfront x hx)
    · obtain ⟨-, htalk⟩ | ⟨own, taken, -, rfl, -⟩ := hact.view
      · refine along_of_still fun x hx => ⟨(htalk x hx).still, fun socket hused => ?_⟩
        rw [hsame.1, hsame.2]
        exact hown (mem_of_split hconnections) ((htalk x hx).used hused)
      · exact along_of_unused (by simp [Happening.used?])
    · refine along_of_unused fun x hx => Happening.used?_of_socket ?_
      exact hnone x (List.mem_append_right front hx)
  | goesOn _ _ _ hnone | rests _ _ hnone =>
    exact along_of_unused fun x hx => Happening.used?_of_socket (hnone x hx)
  | ends _ _ htalks hcloses =>
    refine along_append.2 ⟨?_, along_of_unused fun x hx => (hcloses.none_else x hx).2.2.2⟩
    refine along_of_still fun x hx => ⟨(htalks x hx).1, fun socket hused => ?_⟩
    obtain ⟨c, hc, hsocket⟩ := (htalks x hx).2 socket (Happening.socket?_of_used hused)
    exact hown hc hsocket

/-- Where every socket was opened under an identity of its own, no socket is in two places. -/
theorem Life.nodup (hlife : Life table past h) (hnodup : (openedSockets past).Nodup) :
    (h.ownedSockets ++ takenSockets past ++ closedSockets past).Nodup :=
  hlife.sockets.nodup_iff.1 hnodup

theorem Life.nodup_owned (hlife : Life table past h) (hnodup : (openedSockets past).Nodup) :
    h.ownedSockets.Nodup := by
  have hall := hlife.nodup hnodup
  rw [List.append_assoc, List.nodup_append] at hall
  exact hall.1

theorem Life.not_closed (hlife : Life table past h) (hnodup : (openedSockets past).Nodup) :
    ∀ socket ∈ h.ownedSockets, socket ∉ closedSockets past := by
  intro socket howned hclosed
  have hall := hlife.nodup hnodup
  rw [List.append_assoc, List.nodup_append] at hall
  exact hall.2.2 socket howned socket (List.mem_append_right _ hclosed) rfl

/-- Of the sockets that a handler has offered none is in use. -/
theorem Life.letsGo (hlife : Life table past h) :
    (openedSockets past).Nodup → LetsGo past h := by
  refine hlife.invariant ?_ ?_ ?_
  · intro hs h hopened _ socket hoffered
    have hnone : offeredSockets hs = [] :=
      List.filterMap_eq_nil_iff.2 fun x hx => (hopened.overture x hx).sockets.2.1
    simp [hnone] at hoffered
  · intro hs h hrefused _ socket _ c hc
    simp [hrefused.connections] at hc
  · intro past h hs h' hlife ih hturn hnodup
    rw [hturn.openedSockets_eq hlife.sound] at hnodup
    exact (hturn.view hlife.sound).letsGo (hturn.sound hlife.sound) (hlife.nodup_owned hnodup)
      (ih hnodup)

/-- All its life a handler uses only what it has neither offered nor closed. -/
theorem Life.uses (hlife : Life table past h) :
    (openedSockets past).Nodup → Along UsesItsOwn [] past := by
  refine hlife.invariant ?_ ?_ ?_
  · intro hs h hopened _
    exact along_of_unused fun x hx => (hopened.overture x hx).sockets.2.2.2
  · intro hs h hrefused _
    obtain ⟨front, back, rfl, hfront, hcloses, -⟩ := hrefused.happenings
    refine along_of_unused fun x hx => ?_
    rcases List.mem_append.1 hx with hx | hx
    · exact (hfront x hx).sockets.2.2.2
    · exact (hcloses.none_else x hx).2.2.2
  · intro past h hs h' hlife ih hturn hnodup
    rw [hturn.openedSockets_eq hlife.sound] at hnodup
    refine along_append.2 ⟨ih hnodup, ?_⟩
    exact (hturn.view hlife.sound).uses (hlife.letsGo hnodup) (hlife.not_closed hnodup)

/-- Whatever a handler did with a socket, the socket was opened to it. -/
theorem Life.opened (hlife : Life table past h) :
    ∀ x ∈ past, ∀ socket, x.socket? = some socket → socket ∈ openedSockets past := by
  refine hlife.invariant ?_ ?_ ?_
  · intro hs h hopened x hx socket hsocket
    exact mem_openedSockets_of_overture hx (hopened.overture x hx) hsocket
  · intro hs h hrefused x hx socket hsocket
    obtain ⟨front, back, rfl, hfront, hcloses, -⟩ := hrefused.happenings
    rw [openedSockets_append, List.mem_append]
    refine .inl ?_
    rcases List.mem_append.1 hx with hx | hx
    · exact mem_openedSockets_of_overture hx (hfront x hx) hsocket
    · exact hcloses.socket x hx socket hsocket
  · intro past h hs h' hlife ih hturn x hx socket hsocket
    rw [hturn.openedSockets_eq hlife.sound]
    rcases List.mem_append.1 hx with hx | hx
    · exact ih x hx socket hsocket
    · have howned := (hturn.view hlife.sound).socket hlife.sound hx hsocket
      rw [hlife.sockets.mem_iff, List.append_assoc]
      exact List.mem_append_left _ howned

end Handler

end ReplicaHandshake
