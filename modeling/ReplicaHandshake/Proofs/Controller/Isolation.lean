import ReplicaHandshake.Proofs.Controller.Following

/-!
# Tables do not disturb each other

A tick works for a table on behalf of one peer at most: that of its live handler, or of the one that
the tick starts (`Controller.WorksFor`).  What the tick does on behalf of this peer is what it would
do if there were no other table (`Run.projects`).

So two controllers of which a table is the same, up to the numbers of peers, sockets and writers, do
the same for it in a tick in which the same is asked about it, the same sockets of it are closed and
its calls get the same answers; and then it is the same again (`Run.isolates`).  What other tables
there are makes no difference, nor how they fare.
-/

namespace ReplicaHandshake

open Handler Registry

deriving instance DecidableEq for WriteAnswer

instance (c : Call) : DecidableEq c.Answer := by
  cases c <;> exact inferInstanceAs (DecidableEq _)

deriving instance DecidableEq for Happening

deriving instance DecidableEq for Entry

/-- The table whose handler starts. -/
def Happening.started? : Happening → Option String
  | noted (.started tableName _) => some tableName
  | _ => none

namespace Controller

open Ledger

variable {settings settings' : Settings} {c c' d d' : Controller} {now : Instant}
  {past past' entries entries' : List Entry} {t : String} {busy busy' : Bool}

/-! ### What is done for a table -/

/-- A tick works for the table on behalf of this peer: it is that of the live handler, or of one
that the tick starts. -/
def WorksFor (c : Controller) (t : String) (entries : List Entry) (q : PeerId) : Prop :=
  (c.registry.standing t).peer? = some q ∨
    c.nextPeer.number ≤ q.number ∧ (history q entries).head?.bind (·.started?) = some t

instance (c : Controller) (t : String) (entries : List Entry) (q : PeerId) :
    Decidable (c.WorksFor t entries q) :=
  inferInstanceAs (Decidable (_ ∨ _))

/-- What a tick does for the table. -/
def doneFor (c : Controller) (t : String) (entries : List Entry) : List Entry :=
  entries.filter fun e => e.peer.any fun q => c.WorksFor t entries q

/-- The sockets of the table of which a tick hears that they are closed. -/
def closedFor (c : Controller) (t : String) (entries : List Entry) : List SocketId :=
  ((disconnections (happenings entries)).filter fun d => c.WorksFor t entries d.peer).map (·.socket)

/-- The instructions about the table that wait. -/
def askedFor (c : Controller) (t : String) : List Instruction :=
  c.queue.pending.filter (·.tableName = t)

end Controller

namespace Registry

variable {r : Registry} {next p : PeerId} {t : String}

theorem peer?_standing_iff (hsorted : r.Sorted next) {q : PeerId} :
    (r.standing t).peer? = some q ↔ ∃ h ∈ r.live, h.tableName = t ∧ h.peer = q := by
  have hs := r.shows_standing t
  generalize r.standing t = s at hs
  cases hs with
  | absent hnone | parked hnone =>
    constructor
    · rintro ⟨⟩
    · rintro ⟨h, hh, hname, -⟩
      exact absurd hname (hnone h hh)
  | @live h _ _ hh hname =>
    have hlive := mem_live_of_part hh
    constructor
    · intro hpeer
      exact ⟨h, hlive, hname, Option.some.inj hpeer⟩
    · rintro ⟨x, hx, hxname, rfl⟩
      obtain rfl := eq_of_nodup_map hsorted.live_names hlive hx (hxname.trans hname.symm)
      rfl

theorem serves_of_live (hsorted : r.Sorted next) {h : Handler} (hh : h ∈ r.live) :
    r.Serves h.tableName h.peer := by
  intro x hx
  constructor
  · intro hname
    rw [eq_of_nodup_map hsorted.live_names hh hx hname]
  · intro hpeer
    rw [eq_of_nodup_map hsorted.live_peers hh hx hpeer]

theorem serves_of_unissued (hsorted : r.Sorted next) (hnone : ∀ h ∈ r.live, h.tableName ≠ t)
    (hunissued : next.number ≤ p.number) : r.Serves t p := by
  intro h hh
  refine iff_of_false (hnone h hh) ?_
  rintro rfl
  exact Nat.not_lt.2 hunissued (hsorted.live_issued hh)

end Registry

namespace Controller

open Ledger

variable {settings : Settings} {c c₂ c' : Controller} {now : Instant}
  {past entries done reaped counted : List Entry} {t : String} {busy : Bool} {more : List PeerId}
  {p : PeerId}

theorem history_of_absent {r : Registry} (hentries : entries = done ++ (reaped ++ counted))
    (hway : Way Step (c.ledger [] []) done (c₂.ledger more []))
    (hreaps : Reaps c₂.registry reaped r) (hcounted : ∀ e ∈ counted, ∃ m, e = ⟨none, .reported m⟩)
    (hgone : ¬c₂.registry.HasLive p) :
    history p entries = [] := by
  have hdone := (absent_of_way hway hgone).2
  have hreaped : history p reaped = [] := hreaps.each.history_other fun h hh hsame =>
    hgone ⟨h, (List.mem_filter.1 hh).1, hsame⟩
  rw [hentries, history_append, history_append, hdone, hreaped, history_nobody hcounted]
  rfl

/-- A tick works for a table on behalf of the peer whose live handler the table has when
handlers are reaped. -/
theorem worksFor_iff {r : Registry} (hkept : Kept past (c.ledger [] []))
    (hentries : entries = done ++ (reaped ++ counted))
    (hway : Way Step (c.ledger [] []) done (c₂.ledger more []))
    (hpersists : c.registry.Persists c₂.registry) (hreaps : Reaps c₂.registry reaped r)
    (hcounted : ∀ e ∈ counted, ∃ m, e = ⟨none, .reported m⟩) :
    c.WorksFor t entries p ↔ ∃ h ∈ c₂.registry.live, h.tableName = t ∧ h.peer = p := by
  have hord : c.registry.InOrder c.nextPeer := hkept.inOrder
  have hany := any_of_open (open_of_works hway)
  have hord₂ : c₂.registry.InOrder c₂.nextPeer := inOrder_of_way hany hkept.inOrder
  have hchronicle := House.chronicle_of_way (comes_of_way hany hord.atRest).1 hkept.chronicle
  have hbegins : ∀ h ∈ c₂.registry.live, c.nextPeer.number ≤ h.peer.number →
      (history h.peer entries).head?.bind (·.started?) = some h.tableName := by
    intro h hh hunissued
    obtain ⟨table, hlife⟩ := hchronicle.lives h (List.mem_append_left _ hh)
    rw [history_append, hkept.chronicle.unborn h.peer hunissued, List.nil_append] at hlife
    have hannounces := hlife.announces.2
    rw [hentries, history_append, List.head?_append, hannounces, hlife.tableName]
    rfl
  rw [WorksFor, peer?_standing_iff hord.toSorted]
  constructor
  · rintro (⟨h, hh, hname, hpeer⟩ | ⟨hunissued, hstarts⟩)
    · obtain ⟨h', hh', hpeer', hname'⟩ := hpersists h hh
      exact ⟨h', hh', hname'.trans hname, hpeer'.trans hpeer⟩
    · by_cases hlive : c₂.registry.HasLive p
      · obtain ⟨h, hh, rfl⟩ := hlive
        rw [hbegins h hh hunissued] at hstarts
        exact ⟨h, hh, Option.some.inj hstarts, rfl⟩
      · rw [history_of_absent hentries hway hreaps hcounted hlive] at hstarts
        cases hstarts
  · rintro ⟨h, hh, rfl, rfl⟩
    obtain ⟨x, hx, hpeer⟩ | hunissued := hasLive_of_way hway ⟨h, hh, rfl⟩
    · obtain ⟨x', hx', hpeer', hname'⟩ := hpersists x hx
      obtain rfl := eq_of_nodup_map hord₂.live_peers hh hx' (hpeer'.trans hpeer)
      exact .inl ⟨x, hx, hname'.symm, hpeer⟩
    · exact .inr ⟨hunissued, hbegins h hh hunissued⟩

theorem exists_unheard (n : Nat) (ds : List Disconnection) :
    ∃ p : PeerId, n ≤ p.number ∧ ∀ d ∈ ds, d.peer ≠ p := by
  induction ds generalizing n with
  | nil => exact ⟨⟨n⟩, Nat.le_refl n, List.forall_mem_nil _⟩
  | cons d rest ih =>
    obtain ⟨p, hle, hrest⟩ := ih (max n (d.peer.number + 1))
    refine ⟨p, by omega, List.forall_mem_cons.2 ⟨?_, hrest⟩⟩
    rintro rfl
    omega

theorem exists_serves {r : Registry} {next : PeerId} (hsorted : r.Sorted next) (t : String)
    (ds : List Disconnection) :
    ∃ p, r.Serves t p ∧ (∀ q, (∃ h ∈ r.live, h.tableName = t ∧ h.peer = q) → q = p) ∧
      ((∃ h ∈ r.live, h.tableName = t ∧ h.peer = p) ∨ ¬r.HasLive p ∧ ∀ d ∈ ds, d.peer ≠ p) := by
  by_cases hlive : ∃ h ∈ r.live, h.tableName = t
  · obtain ⟨h, hh, rfl⟩ := hlive
    have hserves := serves_of_live hsorted hh
    refine ⟨h.peer, hserves, ?_, .inl ⟨h, hh, rfl, rfl⟩⟩
    rintro _ ⟨x, hx, hname, rfl⟩
    exact (hserves x hx).1 hname
  · have hnone : ∀ h ∈ r.live, h.tableName ≠ t := fun h hh hname => hlive ⟨h, hh, hname⟩
    obtain ⟨p, hunissued, hunheard⟩ := exists_unheard next.number ds
    refine ⟨p, serves_of_unissued hsorted hnone hunissued, ?_, .inr ⟨?_, hunheard⟩⟩
    · rintro _ ⟨x, hx, hname, -⟩
      exact absurd hname (hnone x hx)
    · rintro ⟨x, hx, rfl⟩
      exact Nat.not_lt.2 hunissued (hsorted.live_issued hx)

/-! ### In a tick -/

theorem disconnections_quiet {s : House} (hc : House.Chronicle past s) (hsubset : entries ⊆ past)
    (hquiet : Quiet entries) : disconnections (happenings entries) = [] := by
  refine List.flatMap_eq_nil_iff.2 fun x hx => ?_
  obtain ⟨e, he, rfl⟩ := List.mem_map.1 hx
  by_cases hnone : e.peer = none
  · obtain ⟨m, hm⟩ := hquiet e he hnone
    rw [hm]
    rfl
  · exact hc.unfetched (hsubset he) hnone

/-- Where disconnections are fetched once, and nothing is said else on nobody's behalf but reports,
these are all. -/
theorem disconnections_once {s : House} {ds : List Disconnection} {before after : List Entry}
    (hc : House.Chronicle past s)
    (hsubset : before ++ ⟨none, .answered .fetchDisconnections ds⟩ :: after ⊆ past)
    (hbefore : Quiet before) (hafter : Quiet after) :
    disconnections (happenings (before ++ ⟨none, .answered .fetchDisconnections ds⟩ :: after)) =
      ds := by
  obtain ⟨hfirst, hsecond⟩ := List.append_subset.1 hsubset
  have hnone := disconnections_quiet hc hfirst hbefore
  have hnone' := disconnections_quiet hc (List.cons_subset.1 hsecond).2 hafter
  rw [happenings_append, disconnections_append, hnone, happenings_cons, List.nil_append]
  show ds ++ disconnections (happenings after) = ds
  rw [hnone', List.append_nil]

theorem doneFor_eq (hsame : ∀ q, history q entries ≠ [] → (c.WorksFor t entries q ↔ q = p)) :
    c.doneFor t entries = entries.filter (·.peer = some p) := by
  refine List.filter_congr fun e he => ?_
  cases hpeer : e.peer with
  | none => rfl
  | some q =>
    have hsame := hsame q (List.ne_nil_of_mem (mem_history he hpeer))
    rw [Option.any_some, decide_eq_decide, hsame, Option.some.injEq]

theorem closedFor_eq {ds : List Disconnection} (hfetched : disconnections (happenings entries) = ds)
    (hsame : ∀ d ∈ ds, c.WorksFor t entries d.peer ↔ d.peer = p) :
    c.closedFor t entries = (ds.filter (·.peer = p)).map (·.socket) := by
  rw [closedFor, hfetched]
  exact congrArg _ (List.filter_congr fun d hd => decide_eq_decide.2 (hsame d hd))

/-- A tick for one table is its stages, one after the other. -/
theorem tick_runs {fresh : TableSettings → Handler} {is : List Instruction}
    {sockets : List SocketId} {s s₁ s₂ s₃ : Standing} {es₁ es₂ es₃ : List Entry}
    (hcarried : ((Standing.carryOutAll fresh is).run s).Runs es₁ ((), s₁))
    (hworked : (StateT.run (do
      Standing.hearAll sockets
      Standing.onLive (Handler.poll now)
      modify Standing.promoted) s₁).Runs es₂ ((), s₂))
    (hreaped : (Standing.reap.run s₂).Runs es₃ ((), s₃)) :
    ((Standing.tick fresh now is sockets).run s).Runs (es₁ ++ (es₂ ++ es₃)) ((), s₃) := by
  have hstages : Standing.tick fresh now is sockets = Standing.carryOutAll fresh is >>= fun _ =>
      (do Standing.hearAll sockets
          Standing.onLive (Handler.poll now)
          modify Standing.promoted) >>= fun _ => Standing.reap := by
    simp only [Standing.tick, bind_assoc]
  rw [hstages]
  exact Work.runs_bind.2
    ⟨es₁, (), s₁, _, rfl, hcarried, Work.runs_bind.2 ⟨es₂, (), s₂, es₃, rfl, hworked, hreaped⟩⟩

/-- What a tick does for a table it would do if there were no other. -/
theorem Run.projects (hrun : Run settings past c)
    (hruns : ((Controller.tick now).run c).Runs entries (busy, c')) (t : String) :
    ∃ p es, ((Standing.tick (c.fresh now p) now (c.askedFor t) (c.closedFor t entries)).run
        (c.registry.standing t)).Runs es ((), c'.registry.standing t) ∧
      happenings es = happenings (c.doneFor t entries) ∧
      (∀ e ∈ c.doneFor t entries, e.peer = some p) ∧
      ∀ q ∈ (c.registry.standing t).peer?, q = p := by
  obtain ⟨asked, hticks⟩ := tick_iff.1 hruns
  have hord := hrun.inOrder
  have hkept : Kept past (c.ledger [] []) := ⟨hord, hrun.chronicle⟩
  have hrun' := hrun.tick now hruns
  have hfollows := hticks.follows (t := t) hord
  clear hruns hticks
  cases hfollows with
  | @intro ds carried worked reaped counted r₁ c₂ _ more hcarried hworked hway hreaps hcounted =>
    have hord₂ : c₂.registry.InOrder c₂.nextPeer := inOrder_of_works hway hord
    obtain ⟨p, hserves, honly, hlive⟩ := exists_serves hord₂.toSorted t ds
    obtain ⟨es₁, s₁, hruns₁, hdid₁, hs₁⟩ :=
      hcarried.alone p (hworked.persists.serves hserves) _ (c.registry.shows_standing t)
    obtain ⟨es₂, s₂, hruns₂, hdid₂, hs₂⟩ := hworked.alone p hserves s₁ hs₁
    obtain ⟨es₃, s₃, hruns₃, hdid₃, hs₃⟩ := hreaps.alone hord₂.toSorted hserves hs₂
    have hs' := hs₃.unique hrun'.inOrder.toSorted (shows_standing _ t)
    have hafter : Quiet (worked ++ (reaped ++ counted)) := by
      refine List.forall_mem_append.2
        ⟨hworked.quiet, List.forall_mem_append.2 ⟨quiet_of_isSome hreaps.each.isSome, ?_⟩⟩
      intro e he _
      obtain ⟨m, rfl⟩ := hcounted e he
      exact ⟨m, rfl⟩
    have hfetched :=
      disconnections_once hrun'.chronicle (List.subset_append_right _ _) hcarried.quiet hafter
    have hhistory :
        history p (carried ++ ⟨none, .answered .fetchDisconnections ds⟩ ::
          (worked ++ (reaped ++ counted))) =
          history p carried ++ (history p worked ++ history p reaped) := by
      rw [history_append, ← List.singleton_append, history_append, history_append, history_append,
        history_nobody hcounted, List.append_nil]
      rfl
    generalize hentries : carried ++ ⟨none, .answered .fetchDisconnections ds⟩ ::
      (worked ++ (reaped ++ counted)) =
      entries at *
    have hsplit :
        entries = (carried ++ ⟨none, .answered .fetchDisconnections ds⟩ :: worked) ++
          (reaped ++ counted) := by
      rw [← hentries, List.append_assoc, List.cons_append]
    have hworks : ∀ q, c.WorksFor t entries q ↔ ∃ h ∈ c₂.registry.live, h.tableName = t ∧
        h.peer = q := fun q =>
      worksFor_iff hkept hsplit hway (hcarried.persists.trans hworked.persists) hreaps hcounted
    have hdone : c.doneFor t entries = entries.filter (·.peer = some p) :=
        doneFor_eq fun q hsome => by
      rw [hworks]
      refine ⟨honly q, ?_⟩
      rintro rfl
      exact hlive.resolve_right fun hgone =>
        hsome (history_of_absent hsplit hway hreaps hcounted hgone.1)
    have hclosed : c.closedFor t entries = (ds.filter (·.peer = p)).map (·.socket) := by
      refine closedFor_eq hfetched fun d hd => ?_
      rw [hworks]
      refine ⟨honly _, ?_⟩
      rintro rfl
      exact hlive.resolve_right fun hgone => hgone.2 d hd rfl
    refine ⟨p, es₁ ++ (es₂ ++ es₃), ?_, ?_, ?_, fun q hq => honly q ((hworks q).1 (.inl hq))⟩
    · rw [hclosed, hs']
      exact tick_runs hruns₁ hruns₂ hruns₃
    · rw [hdone, happenings_append, happenings_append, hdid₁, hdid₂, hdid₃, ← hhistory]
      rfl
    · rw [hdone]
      exact fun e he => of_decide_eq_true (List.mem_filter.1 he).2

end Controller

/-! ### In two ticks -/

/-- Two entries on behalf of peers that correspond, the same under other names. -/
def Entry.Alike (π : Pairing) (e e' : Entry) : Prop :=
  ∃ p p', e.peer = some p ∧ e'.peer = some p' ∧ e.happening.Alike (π.renaming p p') e'.happening

/-- Where corresponding calls stand at the same place, they got corresponding answers. -/
def Pairing.Concordant (π : Pairing) (es es' : List Entry) : Prop :=
  ∀ p p', (∀ e ∈ es, e.peer = some p) → (∀ e ∈ es', e.peer = some p') →
    ReplicaHandshake.Concordant (π.renaming p p') (happenings es) (happenings es')

theorem forall₂_entries {π : Pairing} {p p' : PeerId} {es es' : List Entry}
    (hpeers : ∀ e ∈ es, e.peer = some p) (hpeers' : ∀ e ∈ es', e.peer = some p')
    (halike : List.Forall₂ (Happening.Alike (π.renaming p p')) (happenings es) (happenings es')) :
    List.Forall₂ (Entry.Alike π) es es' := by
  rw [happenings, happenings, List.forall₂_map_left_iff, List.forall₂_map_right_iff] at halike
  induction halike with
  | nil => exact .nil
  | cons hentry _ ih =>
    obtain ⟨he, hrest⟩ := List.forall_mem_cons.1 hpeers
    obtain ⟨he', hrest'⟩ := List.forall_mem_cons.1 hpeers'
    exact .cons ⟨p, p', he, he', hentry⟩ (ih hrest hrest')

namespace Controller

/-- Two ticks of controllers of which the table is the same, and in which the outside
treats it the same. -/
structure SameFor (π : Pairing) (t : String) (c : Controller) (entries : List Entry)
    (c' : Controller) (entries' : List Entry) : Prop where
  own : π.own = c.instanceId
  other : π.other = c'.instanceId
  frameBuffer : c'.settings.frameBuffer = c.settings.frameBuffer
  handshakeTimeout : c'.handshakeTimeout = c.handshakeTimeout
  standing : (c.registry.standing t).Alike π (c'.registry.standing t)
  asked : c'.askedFor t = c.askedFor t
  closed : c'.closedFor t entries' = (c.closedFor t entries).map π.socket
  answers : π.Concordant (c.doneFor t entries) (c'.doneFor t entries')

/-- Two ticks in which a table is treated the same do the same for it, whatever other tables there
are; and it stands the same again. -/
theorem Run.isolates {settings settings' : Settings} {c c' d d' : Controller} {now : Instant}
    {t : String} {past past' entries entries' : List Entry} {busy busy' : Bool} {π : Pairing}
    (hrun : Run settings past c) (hrun' : Run settings' past' c')
    (hruns : ((Controller.tick now).run c).Runs entries (busy, d))
    (hruns' : ((Controller.tick now).run c').Runs entries' (busy', d'))
    (hsame : SameFor π t c entries c' entries') :
    (d.registry.standing t).Alike π (d'.registry.standing t) ∧
      List.Forall₂ (Entry.Alike π) (c.doneFor t entries) (c'.doneFor t entries') := by
  obtain ⟨p, es, halone, hdid, hpeers, hserves⟩ := hrun.projects hruns t
  obtain ⟨p', es', halone', hdid', hpeers', hserves'⟩ := hrun'.projects hruns' t
  have hfresh : ∀ table, (c.fresh now p table).Alike (π.renaming p p') (c'.fresh now p' table) := by
    intro table
    have halike := @new_alike (π.renaming p p') table c.settings.frameBuffer c.handshakeTimeout now
    unfold fresh
    rw [hsame.frameBuffer, hsame.handshakeTimeout]
    simpa only [Pairing.renaming, hsame.own, hsame.other] using halike
  have hticks := Standing.tick_alike hfresh now (c.askedFor t) (c.closedFor t entries)
  rw [hsame.asked, hsame.closed] at halone'
  have hanswers := hsame.answers p p' hpeers hpeers'
  rw [← hdid, ← hdid'] at hanswers
  obtain ⟨hdone, -, hstands⟩ :=
    (hticks _ _ (hsame.standing.same hserves hserves')).runs halone halone' hanswers
  rw [hdid, hdid'] at hdone
  exact ⟨hstands.alike, forall₂_entries hpeers hpeers' hdone⟩

section Rehearsal

open Rehearsal

/-- A master that lets everybody wait, and one that lets nobody in. -/
def slowWorld : World where
  network :=
    { masters :=
      [(1, { connect := .pending }), (2, { connect := .failing (.bare .connectionRefused) })] }

def slowOpening : Performance World :=
  (Performance.start? world 0 .small slowWorld).get (by decide +kernel)

/-- A table is to be added whose master lets it wait. -/
def alone : Performance World :=
  slowOpening.goOn world (submit (.add ⟨"t", [⟨"127.0.0.1", 1⟩]⟩))

/-- Before it another table is to be added, whose master does not let it in. -/
def crowded : Performance World :=
  (slowOpening.goOn world (submit (.add ⟨"u", [⟨"127.0.0.1", 2⟩]⟩))).goOn world
    (submit (.add ⟨"t", [⟨"127.0.0.1", 1⟩]⟩))

/-- What happens in the next tick. -/
def nextTick (p : Performance World) : List Entry :=
  (((tick 0).run p.controller).perform world p.outside).2.2

theorem nextTick_runs (p : Performance World) :
    ∃ busy, ((tick 0).run p.controller).Runs (nextTick p)
      (busy, (p.goOn world (tick 0)).controller) :=
  ⟨_, Dialogue.perform_runs world ((tick 0).run p.controller) p.outside⟩

/-- The sockets of the second controller are numbered from two. -/
def shifted : Pairing where
  socket := SocketId.next
  injective := by
    rintro ⟨n⟩ ⟨m⟩ h
    simpa [SocketId.next] using h
  own := 0
  other := 0

/-- What the next tick does for the table, whose handler has this peer and this socket. -/
def waitingFor (p : PeerId) (socket : SocketId) : List Entry :=
  [⟨some p, .noted (.started "t" 1)⟩, ⟨some p, .reported (.phaseEntered "Initializing")⟩,
    ⟨some p, .answered (.openSocket ⟨"127.0.0.1", 1⟩) (.ok socket)⟩,
    ⟨some p, .answered (.pollConnect socket) (.ok .inProgress)⟩]

theorem sameFor_rehearsed :
    SameFor shifted "t" alone.controller (nextTick alone) crowded.controller
      (nextTick crowded) where
  own := by decide +kernel
  other := by decide +kernel
  frameBuffer := by decide +kernel
  handshakeTimeout := by decide +kernel
  standing := by
    have hnone : alone.controller.registry.standing "t" = .absent := by decide +kernel
    have hnone' : crowded.controller.registry.standing "t" = .absent := by decide +kernel
    rw [hnone, hnone']
    exact .absent
  asked := by decide +kernel
  closed := by decide +kernel
  answers := by
    have hdone : alone.controller.doneFor "t" (nextTick alone) = waitingFor ⟨1⟩ ⟨1⟩ := by
      decide +kernel
    have hdone' : crowded.controller.doneFor "t" (nextTick crowded) = waitingFor ⟨2⟩ ⟨2⟩ := by
      decide +kernel
    rw [hdone, hdone']
    intro p p' _ _
    exact concordant_of_alike (.cons (.started _ _) (.cons (.metric _)
      (.cons (.openSocket _ (.ok _)) (.cons (.pollConnect _ _) .nil))))

/-- The other table fails in the same tick, and this one waits as if it were alone. -/
theorem isolates_rehearsed :
    SameFor shifted "t" alone.controller (nextTick alone) crowded.controller (nextTick crowded) ∧
    ((alone.goOn world (tick 0)).controller.registry.standing "t").Alike shifted
      ((crowded.goOn world (tick 0)).controller.registry.standing "t") ∧
    List.Forall₂ (Entry.Alike shifted) (alone.controller.doneFor "t" (nextTick alone))
      (crowded.controller.doneFor "t" (nextTick crowded)) := by
  have hopening : Performance.start? world 0 .small slowWorld = some slowOpening :=
    (Option.some_get _).symm
  have hstart := Performance.of_start? hopening
  have halone : Run .small alone.past alone.controller := Performance.run_submit hstart _
  have hcrowded : Run .small crowded.past crowded.controller :=
    Performance.run_submit (Performance.run_submit hstart _) _
  obtain ⟨busy, hruns⟩ := nextTick_runs alone
  obtain ⟨busy', hruns'⟩ := nextTick_runs crowded
  exact ⟨sameFor_rehearsed, halone.isolates hcrowded hruns hruns' sameFor_rehearsed⟩

end Rehearsal

end Controller

end ReplicaHandshake
