import ReplicaHandshake.Proofs.Controller.Ticks

/-!
# What comes of an instruction

An instruction to add a table begins a handler, or is ignored; an instruction to remove one
stops its live handler, or forgets the one that came to a bad end.  `Controller.CarriesOut` says
which of these it is, and what it makes of the controller; there is nothing else that it can
come to (`carryOut_carriesOut`).
-/

namespace ReplicaHandshake

open Handler Registry

namespace Controller

variable {c c' : Controller} {now : Instant} {i : Instruction} {entries : List Entry}

/-- An instruction is carried out, and this comes of it. -/
inductive CarriesOut (now : Instant) (c : Controller) :
    Instruction → List Entry → Controller → Prop where
  | invalid {table : TableSettings} {f : Failure} : table.validate = .error f →
      CarriesOut now c (.add table) [⟨none, .reported (.instruction "add" "ignored")⟩] c
  | active {table : TableSettings} :
      table.validate = .ok () → c.registry.isActive table.tableName = true →
      CarriesOut now c (.add table) [⟨none, .reported (.instruction "add" "ignored")⟩] c
  | adds {table : TableSettings} {did : List Happening} {h : Handler} :
      table.validate = .ok () → c.registry.isActive table.tableName = false →
      Does Handler.start
        (Handler.new c.instanceId c.nextPeer table c.settings.frameBuffer c.handshakeTimeout now)
          did h →
      CarriesOut now c (.add table)
        (marked c.nextPeer did ++ [⟨none, .reported (.instruction "add" "applied")⟩])
        { c with
          registry := (c.registry.clearDistressed table.tableName).2.insert h
          nextPeer := c.nextPeer.next }
  | stops {h : Handler} {entries : List Entry} {r : Registry} :
      h ∈ c.registry.live →
      Round (Only (·.tableName = h.tableName) (Does stopOnRequest)) c.registry entries r →
      CarriesOut now c (.remove h.tableName)
        (entries ++ [⟨none, .reported (.instruction "remove" "applied")⟩])
        { c with registry := r.markVoluntary h.peer }
  | forgets {tableName : String} : (∀ h ∈ c.registry.live, h.tableName ≠ tableName) →
      CarriesOut now c (.remove tableName)
        [⟨none, .reported (.instruction "remove"
          (if (c.registry.clearDistressed tableName).1 then "applied" else "ignored"))⟩]
        { c with registry := (c.registry.clearDistressed tableName).2 }

theorem stops_of_requests {test : Handler → Bool} {r r' : Registry} (hrest : r.AtRest)
    (hround : Round (Only test (Does stopOnRequest)) r entries r') :
    Round (Only test Stops) r entries r' :=
  hround.mono fun x hx _ _ honly => honly.mono fun hdoes =>
    hdoes.of_always ((stopOnRequest_stops (hrest.live x hx).live).mono fun _ _ _ hdid => hdid.1)

theorem carryOut_add (table : TableSettings) :
    Work.Records (carryOut now (.add table)) c fun entries _ c' =>
      CarriesOut now c (.add table) entries c' := by
  simp only [carryOut, addTable, Work.records_bind, Work.records_get, List.nil_append]
  cases hvalid : table.validate with
  | error f =>
    simp only [Work.records_pure, report_records, Instruction.kind, List.nil_append]
    exact .invalid hvalid
  | ok =>
    simp only
    split
    next hactive =>
      simp only [Work.records_pure, report_records, Instruction.kind, List.nil_append]
      exact .active hvalid hactive
    next hinactive =>
      rw [Bool.not_eq_true] at hinactive
      simp only [Work.records_bind, Work.records_set, Work.records_lift, Work.records_modify,
        Work.records_pure, List.nil_append, List.append_nil]
      refine Dialogue.Records.mono ((always_does Handler.start _).records c.nextPeer) ?_
      rintro _ ⟨_, h⟩ ⟨did, rfl, hdoes⟩
      simp only [if_true, report, Dialogue.records_metric, Instruction.kind]
      exact .adds hvalid hinactive hdoes

theorem carryOut_remove (hord : c.registry.InOrder c.nextPeer) (tableName : String) :
    Work.Records (carryOut now (.remove tableName)) c fun entries _ c' =>
      CarriesOut now c (.remove tableName) entries c' := by
  have hwork : ∀ h ∈ c.registry.live, Work.Always stopOnRequest h fun did peer h' =>
      Does stopOnRequest h did h' ∧ peer = h.peer := by
    intro h hh entries r hruns
    exact ⟨⟨entries, r.1, hruns, rfl⟩,
      (stopOnRequest_stops (hord.atRest.live h hh).live entries r hruns).2⟩
  simp only [carryOut, removeTable, Work.records_bind, onRegistry_records]
  refine (updateLive?_round hwork (pairwise_of_nodup hord.live_names tableName)).mono ?_
  rintro entries stopped r ⟨hround, hfound⟩
  cases stopped with
  | some peer =>
    obtain ⟨h, hh, hname, rfl⟩ := hfound
    obtain rfl := of_decide_eq_true hname
    simp only [Work.records_bind, Work.records_modify, Work.records_pure, report_records,
      List.append_nil]
    exact .stops hh hround
  | none =>
    obtain ⟨rfl, rfl⟩ := hround.eq_of_none hfound
    simp only [Work.records_bind, Work.records_get, Work.records_modify, Work.records_pure,
      report_records, List.nil_append]
    exact .forgets fun h hh heq => hfound h hh (decide_eq_true heq)

/-- Whatever instruction is carried out, this is what comes of it. -/
theorem carryOut_carriesOut (hord : c.registry.InOrder c.nextPeer) (now : Instant)
    (i : Instruction) :
    Work.Records (carryOut now i) c fun entries _ c' => CarriesOut now c i entries c' := by
  cases i with
  | add table => exact carryOut_add table
  | remove tableName => exact carryOut_remove hord tableName

end Controller

end ReplicaHandshake
