import ReplicaHandshake.Proofs.Handler.Stopping

/-!
# Setbacks

A *setback* is an answer of the outside that makes a step of a handler fail, or the report of a
failure.  Each piece of work gives up at its first setback: what goes well has none
(`Move.smooth`, `smooth_of_way`), and on the way to a fault nothing is read or written any more
once there was one (`Fault.ceases`).
-/

namespace ReplicaHandshake

/-- Whether a step fails: a socket cannot be opened or does not come to be connected, it has
ended or is lost, the store does not do what it was asked to do, or whatever else is reported
as a failure. -/
def Happening.isSetback : Happening → Bool
  | answered (.openSocket _) (.error _) => true
  | answered (.pollConnect _) answer => !(Connection.isConnected answer).isOk
  | answered (.read _ _) (.ok bs) => bs.1 = []
  | answered (.read _ _) (.error e) => !e.isTransient
  | answered (.write _ _) answer =>
    match answer.result with
    | .ok n => n.1 = 0
    | .error e => e.kind ≠ .wouldBlock
  | answered (.tableExists _) (.error _) => true
  | answered (.openWriter _) (.error _) => true
  | answered (.createTable _ _ _) (.error _) => true
  | reported (.failure _) => true
  | _ => false

/-- There is no setback. -/
def Smooth (hs : List Happening) : Prop :=
  ∀ x ∈ hs, x.isSetback = false

/-- No socket is read or written. -/
def Mute (hs : List Happening) : Prop :=
  ∀ x ∈ hs, x.exchanged? = none

/-- After a setback no socket is read or written. -/
def Ceases (hs : List Happening) : Prop :=
  hs.Pairwise fun x y => x.isSetback → y.exchanged? = none

variable {hs hs' : List Happening} {x : Happening}

theorem Smooth.append (h : Smooth hs) (h' : Smooth hs') : Smooth (hs ++ hs') :=
  List.forall_mem_append.2 ⟨h, h'⟩

theorem smooth_nil : Smooth [] :=
  List.forall_mem_nil _

theorem Smooth.cons (hx : x.isSetback = false) (h : Smooth hs) : Smooth (x :: hs) :=
  List.forall_mem_cons.2 ⟨hx, h⟩

theorem smooth_single (hx : x.isSetback = false) : Smooth [x] :=
  smooth_nil.cons hx

theorem Smooth.failures (h : Smooth hs) : failures hs = [] := by
  refine List.filterMap_eq_nil_iff.2 fun x hx => ?_
  have hsmooth := h x hx
  unfold Happening.failure?
  split
  · cases hsmooth
  · rfl

theorem ceases_cons (h : Mute hs) : Ceases (x :: hs) :=
  List.pairwise_cons.2 ⟨fun y hy _ => h y hy, List.pairwise_of_forall_mem_list fun _ _ y hy _ =>
    h y hy⟩

theorem ceases_nil : Ceases [] :=
  .nil

theorem Ceases.prepend (h' : Ceases hs') (h : Smooth hs) : Ceases (hs ++ hs') := by
  refine List.pairwise_append.2 ⟨?_, h', fun x hx y _ hset => ?_⟩
  · refine List.pairwise_of_forall_mem_list fun x hx y _ hset => ?_
    rw [h x hx] at hset
    cases hset
  · rw [h x hx] at hset
    cases hset

theorem Ceases.append (h : Ceases hs) (h' : Mute hs') : Ceases (hs ++ hs') :=
  List.pairwise_append.2 ⟨h, List.pairwise_of_forall_mem_list fun _ _ y hy _ => h' y hy,
    fun _ _ y hy _ => h' y hy⟩

theorem Smooth.ceases (h : Smooth hs) : Ceases hs := by
  simpa using ceases_nil.prepend h

/-! ### Connections -/

namespace Connection

variable {c c' : Connection} {f : Failure}

theorem Write.smooth (h : Write c hs c') : Smooth hs := by
  cases h with
  | some _ _ hresult => exact smooth_single (by simp [Happening.isSetback, hresult])
  | none _ _ hresult hkind => exact smooth_single (by simp [Happening.isSetback, hresult, hkind])

theorem smooth_of_writes (h : Way Write c hs c') : Smooth hs := by
  induction h with
  | refl => exact smooth_nil
  | tail _ hwrite ih => exact ih.append hwrite.smooth

theorem Step.smooth (h : Step c hs c') : Smooth hs := by
  cases h with
  | write hwrite => exact hwrite.smooth
  | wait _ _ hanswer => exact smooth_single (by rw [Happening.isSetback, hanswer]; rfl)
  | ask _ _ _ hanswer =>
    refine Smooth.cons (by rw [Happening.isSetback, hanswer]; rfl) ?_
    exact (((smooth_single rfl).cons rfl).cons rfl).cons rfl
  | read _ _ hbytes => exact smooth_single (decide_eq_false hbytes)
  | block _ _ htransient => exact smooth_single (by rw [Happening.isSetback, htransient]; rfl)

theorem Hear.smooth {event : ConnectionEvent} (h : Hear c hs event c') : Smooth hs := by
  cases h with
  | accept => exact (smooth_single rfl).cons rfl

theorem Offer.smooth {taken : Bool} (h : Offer c hs taken c') : Smooth hs := by
  cases h <;> exact smooth_single rfl

theorem Request.smooth {r : RequestReplicationStream} (h : Request r c hs c') : Smooth hs := by
  cases h with
  | ask _ _ hwrites => exact ((smooth_of_writes hwrites).cons rfl).cons rfl

/-- A connection ends at its first setback. -/
theorem Fault.ceases (h : Fault c hs f c') : Ceases hs := by
  cases h with
  | frame => exact ceases_nil
  | connect | ask | writeNothing | write | read | ended | refuse =>
    exact ceases_cons (by simp [Mute, Happening.exchanged?])

theorem RequestFault.ceases {r : RequestReplicationStream} (h : RequestFault r c hs f c') :
    Ceases hs := by
  cases h with
  | queue => exact ceases_nil
  | write _ _ hends =>
    obtain ⟨_, _, _, rfl, hwrites, hfault, -⟩ := hends
    exact hfault.ceases.prepend (((smooth_of_writes hwrites).cons rfl).cons rfl)

end Connection

/-! ### Handlers -/

namespace Handler

variable {h h' : Handler} {f : Failure}

theorem Resolves.smooth {rows : UInt64} (h : h.Resolves hs rows h') : Smooth hs := by
  cases h with
  | absent => exact smooth_single rfl
  | present => exact (smooth_single rfl).cons rfl

theorem Supplies.smooth {tableName : String} {owned : Option TableWriter}
    {start : StartOfReplicationStream} {writer : TableWriter}
    (h : Supplies tableName owned start hs writer) : Smooth hs := by
  cases h with
  | kept => exact smooth_nil
  | created => exact (smooth_single rfl).cons rfl

/-- A handler fails at its first setback. -/
theorem Fault.ceases (hfault : Fault h hs f h') : Ceases hs := by
  cases hfault with
  | timeout => exact ceases_nil
  | tableExists | openWriter | mismatch => exact ceases_cons (by simp [Mute, Happening.exchanged?])
  | connection _ _ hfault | handoff _ hfault => exact hfault.ceases
  | divergence _ _ hhear => exact hhear.smooth.ceases
  | request _ _ _ hresolves hrequest => exact hrequest.ceases.prepend hresolves.smooth
  | createTable _ _ hhear => exact (ceases_cons (List.forall_mem_nil _)).prepend hhear.smooth

/-- By a move that does not make the handler fail nothing sets it back. -/
theorem Move.smooth (hmove : Move h hs h') (hphase : h.phase.isHandshaking → h'.phase ≠ .stopping) :
    Smooth hs := by
  cases hmove with
  | exchange _ _ hstep => exact hstep.smooth
  | tableInfo _ _ hhear => exact hhear.smooth
  | rendezvous _ _ _ hresolves hrequest =>
    exact (hresolves.smooth.append hrequest.smooth).append (smooth_single rfl)
  | streamStart _ _ hhear hsupplies =>
    exact (hhear.smooth.append hsupplies.smooth).append (smooth_single rfl)
  | write _ hwrite => exact hwrite.smooth
  | socketTaken _ hoffer => exact hoffer.smooth
  | socketRefused _ hoffer => exact hoffer.smooth.append (smooth_single rfl)
  | allConnected | writerTaken | waits | stopAccepted => exact smooth_single rfl
  | writerRefused | streams | stopRefused => exact (smooth_single rfl).cons rfl
  | fails hfault => exact absurd rfl (hphase hfault.isHandshaking)

/-- A handler that is stopping is not set back, nor is one that does not come to stop. -/
theorem smooth_of_way (hway : Way Move h hs h')
    (hphase : h.phase.isHandshaking → h'.phase ≠ .stopping) :
    Smooth hs := by
  induction hway with
  | refl => exact smooth_nil
  | @tail h₁ h₂ _ _ hway hmove ih =>
    have hbefore : h₁.phase.isHandshaking → h.phase.isHandshaking := fun hlater =>
      Classical.byContradiction fun hover => hover (phase_of_way hway hover ▸ hlater)
    refine (ih fun hhandshaking hstopping => hphase hhandshaking ?_).append
      (hmove.smooth fun hlater => hphase (hbefore hlater))
    rw [hmove.phase_of_over (by rw [hstopping]; decide), hstopping]

end Handler

end ReplicaHandshake
