import ReplicaHandshake.Proofs.Handler.Life

/-!
# Receipts

A *receipt* is a report about an instruction: that it was accepted, rejected, applied or ignored.
They are up to the controller: no handler gives one, neither when it begins (`Begins.noReceipts`)
nor in its turns (`noReceipts_of_way`).
-/

namespace ReplicaHandshake

/-- Something is reported about an instruction. -/
def Happening.isReceipt : Happening → Bool
  | .reported (.instruction _ _) => true
  | _ => false

/-- Nothing is reported about instructions. -/
def NoReceipts (hs : List Happening) : Prop :=
  ∀ x ∈ hs, x.isReceipt = false

theorem NoReceipts.append {hs hs' : List Happening} (h : NoReceipts hs) (h' : NoReceipts hs') :
    NoReceipts (hs ++ hs') :=
  List.forall_mem_append.2 ⟨h, h'⟩

theorem NoReceipts.cons {x : Happening} {hs : List Happening} (hx : x.isReceipt = false)
    (h : NoReceipts hs) :
    NoReceipts (x :: hs) :=
  List.forall_mem_cons.2 ⟨hx, h⟩

theorem noReceipts_nil : NoReceipts [] :=
  List.forall_mem_nil _

theorem noReceipts_single {x : Happening} (hx : x.isReceipt = false) : NoReceipts [x] :=
  noReceipts_nil.cons hx

/-! ### Connections -/

namespace Connection

variable {c c' : Connection} {hs : List Happening}

theorem noReceipts_of_traffic (h : ∀ x ∈ hs, Traffic c x) : NoReceipts hs := by
  intro x hx
  cases h x hx <;> rfl

theorem Hear.noReceipts {event : ConnectionEvent} (h : Hear c hs event c') : NoReceipts hs := by
  cases h with
  | accept => exact (noReceipts_single rfl).cons rfl

theorem Offer.noReceipts {taken : Bool} (h : Offer c hs taken c') : NoReceipts hs := by
  cases h <;> exact noReceipts_single rfl

end Connection

/-! ### Handlers -/

namespace Handler

variable {h h' : Handler} {hs : List Happening}

theorem Resolves.noReceipts {rows : UInt64} (h : h.Resolves hs rows h') : NoReceipts hs := by
  cases h with
  | absent => exact noReceipts_single rfl
  | present => exact (noReceipts_single rfl).cons rfl

theorem Supplies.noReceipts {tableName : String} {owned : Option TableWriter}
    {start : StartOfReplicationStream} {writer : TableWriter}
    (h : Supplies tableName owned start hs writer) : NoReceipts hs := by
  cases h with
  | kept => exact noReceipts_nil
  | created => exact (noReceipts_single rfl).cons rfl

theorem Fault.noReceipts {f : Failure} (hfault : Fault h hs f h') : NoReceipts hs := by
  cases hfault with
  | timeout => exact noReceipts_nil
  | tableExists => exact noReceipts_single rfl
  | openWriter => exact (noReceipts_single rfl).cons rfl
  | mismatch => exact ((noReceipts_single rfl).cons rfl).cons rfl
  | connection _ _ hfault | handoff _ hfault =>
    exact Connection.noReceipts_of_traffic hfault.traffic.2
  | divergence _ _ hhear => exact hhear.noReceipts
  | createTable _ _ hhear => exact hhear.noReceipts.append (noReceipts_single rfl)
  | request _ _ _ hresolves hrequest =>
    refine hresolves.noReceipts.append ?_
    obtain ⟨-, rfl | ⟨_, rfl, htraffic⟩⟩ := hrequest.traffic
    · exact noReceipts_nil
    · exact (Connection.noReceipts_of_traffic htraffic).cons rfl

theorem noReceipts_stop (h : Handler) : NoReceipts h.stopHappenings := by
  intro x hx
  obtain rfl | hx := mem_stopHappenings hx
  · rfl
  · cases hx <;> rfl

theorem noReceipts_stopFor (h : Handler) (kind : String) : NoReceipts (h.stopForHappenings kind) :=
  h.noReceipts_stop.cons rfl

theorem Move.noReceipts (hmove : Move h hs h') : NoReceipts hs := by
  cases hmove with
  | exchange _ _ hstep => exact Connection.noReceipts_of_traffic hstep.traffic.2
  | tableInfo _ _ hhear => exact hhear.noReceipts
  | allConnected | writerTaken | waits | stopAccepted => exact noReceipts_single rfl
  | rendezvous _ _ _ hresolves hrequest =>
    obtain ⟨-, _, rfl, htraffic⟩ := hrequest.traffic
    exact (hresolves.noReceipts.append
      ((Connection.noReceipts_of_traffic htraffic).cons rfl)).append
      (noReceipts_single rfl)
  | streamStart _ _ hhear hsupplies =>
    exact (hhear.noReceipts.append hsupplies.noReceipts).append (noReceipts_single rfl)
  | writerRefused | streams | stopRefused => exact (noReceipts_single rfl).cons rfl
  | write _ hwrite => exact Connection.noReceipts_of_traffic hwrite.traffic.2
  | socketTaken _ hoffer => exact hoffer.noReceipts
  | socketRefused _ hoffer => exact hoffer.noReceipts.append (noReceipts_single rfl)
  | fails hfault => exact hfault.noReceipts.append (noReceipts_stopFor _ _)

theorem Turn.noReceipts (hturn : Turn h hs h') : NoReceipts hs := by
  cases hturn with
  | move hmove => exact hmove.noReceipts
  | stops => exact h.noReceipts_stop
  | loses => exact noReceipts_stopFor _ _
  | letsGo => exact noReceipts_nil
  | finishes | concludes => exact noReceipts_single rfl

/-- In its turns a handler gives no receipt. -/
theorem noReceipts_of_way (hway : Way Turn h hs h') : NoReceipts hs := by
  induction hway with
  | refl => exact noReceipts_nil
  | tail _ hturn ih => exact ih.append hturn.noReceipts

theorem Opens.noReceipts {cs cs' : List Connection} {f : Option Failure}
    (hopens : Opens cs hs f cs') :
    NoReceipts hs := by
  induction hopens with
  | done => exact noReceipts_nil
  | opened _ _ ih => exact ih.cons rfl
  | refused => exact noReceipts_single rfl

/-- A handler that begins gives no receipt. -/
theorem Begins.noReceipts (hbegins : Begins h hs h') : NoReceipts hs := by
  have hgreetings : NoReceipts h.greetings := (noReceipts_single rfl).cons rfl
  cases hbegins with
  | opens hopens => exact hgreetings.append hopens.noReceipts
  | fails hopens => exact (hgreetings.append hopens.noReceipts).append (noReceipts_stopFor _ _)

end Handler

end ReplicaHandshake
