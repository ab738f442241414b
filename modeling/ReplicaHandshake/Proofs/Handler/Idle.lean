import ReplicaHandshake.Proofs.Connection.Idle
import ReplicaHandshake.Proofs.Handler.Poll

/-!
# Idle polls

A poll of a handler says whether anything happened.  Where it says that nothing did, the handler is
as it was before, and nothing was read, written, taken or let go of (`Idles.rests`).  There is one
exception: in the midst of the handoff bytes may have been written on the connection that is to be
handed over next, and its socket may have been offered and refused (`Idles.lingers`).
-/

namespace ReplicaHandshake

/-! ### Saying that something happened -/

namespace Task

variable {σ α : Type} {s : σ}

/-- If it does not fail, the task says that something happened. -/
def IsBusy (t : Task σ Bool) : Prop :=
  ∀ s, Always t s (fun _ busy _ => busy = true) fun _ _ _ => True

theorem isBusy_pure : IsBusy (pure true : Task σ Bool) :=
  fun _ => always_pure.2 rfl

theorem isBusy_bind {t : Task σ α} {f : α → Task σ Bool} (hf : ∀ a, (f a).IsBusy) :
    IsBusy (t >>= f) := by
  intro s
  rw [always_bind]
  exact always_of_forall (fun _ a s' => hf a s') fun _ _ _ => trivial

theorem isBusy_ite {t t' : Task σ Bool} {p : Prop} [Decidable p] (ht : t.IsBusy) (ht' : t'.IsBusy) :
    IsBusy (if p then t else t') := by
  split
  · exact ht
  · exact ht'

theorem IsBusy.always {t : Task σ Bool} (hbusy : t.IsBusy) {post : List Happening → σ → Prop} :
    Always t s (fun hs busy s' => busy = false → post hs s') fun _ _ _ => True := by
  refine (hbusy s).mono ?_ fun _ _ _ _ => trivial
  rintro hs busy s' rfl hfalse
  cases hfalse

end Task

namespace Handler

variable {h h' : Handler} {hs : List Happening}

/-- What a poll does that says that nothing happened. -/
inductive Idles : Handler → List Happening → Handler → Prop where
  | rests {h : Handler} {hs : List Happening} : Idle hs → Idles h hs h
  | lingers {h : Handler} {hs : List Happening} {given left : List Connection} {c c' : Connection} :
      h.Hands given c left → Connection.Halts c hs c' → Idles h hs (h.put given c' left)

theorem Idles.isInert (hidles : Idles h hs h') : ∀ x ∈ hs, x.IsInert := by
  cases hidles with
  | rests hidle => exact hidle.1
  | lingers _ hhalts => exact hhalts.isInert

theorem Idles.peer_eq (hidles : Idles h hs h') : h'.peer = h.peer := by
  cases hidles <;> rfl

/-- Neither does a handler to which nothing happens change its phase, nor does any of its
connections its state. -/
theorem Idles.states (hidles : Idles h hs h') :
    h'.phase = h.phase ∧ h'.connections.map (·.state) = h.connections.map (·.state) := by
  cases hidles with
  | rests => exact ⟨rfl, rfl⟩
  | lingers hhands hhalts => exact ⟨rfl, by simp [hhands.2.2.1, hhalts.state]⟩

/-- Bytes are written only on the connection that is to be handed over next. -/
theorem Idles.hands (hidles : Idles h hs h') (hwritten : writtenBytes hs ≠ []) :
    ∃ given c left, h.Hands given c left ∧ writtenBytes hs <+: c.outbound.pending := by
  cases hidles with
  | rests hidle => exact absurd hidle.2 hwritten
  | lingers hhands hhalts => exact ⟨_, _, _, hhands, _, hhalts.pending.symm⟩

/-! ### Before the handoff -/

theorem pollConnections_idle (positions : List Nat) : Task.Always (pollConnections positions) h
    (fun hs busy h' => busy = false → Idle hs ∧ h' = h) (fun _ _ _ => True) := by
  induction positions with
  | nil => exact Task.always_pure.2 fun _ => ⟨idle_nil, rfl⟩
  | cons i positions ih =>
    simp only [pollConnections, Task.always_bind, Task.always_get, List.nil_append]
    split
    · have hnoted : Idle [.noted (.absent i)] := idle_single (Happening.isInert_said _) rfl
      simp only [note, Task.always_bind, Task.always_lift, Dialogue.always_note]
      refine ih.mono ?_ fun _ _ _ _ => trivial
      exact fun hs busy h' hidle hbusy => (hidle hbusy).imp_left hnoted.append
    next c hc =>
      obtain ⟨before, after, hconnections, -, hset⟩ := split_at hc
      simp only [Task.always_bind, onConnection_always, hset]
      refine (Connection.poll_idle c).mono ?_ fun _ _ _ _ => trivial
      rintro hs ⟨polling, event⟩ c' hpolled
      cases polling with
      | true =>
        have hrest : Task.IsBusy (do let _ ← pollConnections positions; return true) :=
          Task.isBusy_bind fun _ => Task.isBusy_pure
        simp only [Bool.true_or]
        cases event with
        | none => exact hrest.always
        | some event => exact (Task.isBusy_bind fun _ => hrest).always
      | false =>
        obtain ⟨hidle, rfl, rfl⟩ := hpolled rfl
        rw [put_self hconnections]
        simp only [Task.always_bind, Task.always_pure, Bool.false_or, List.append_nil]
        refine ih.mono ?_ fun _ _ _ _ => trivial
        exact fun hs' busy h' hidle' hbusy => (hidle' hbusy).imp_left hidle.append

/-! ### The handoff -/

theorem handConnections_idle (given : List Connection) {left : List Connection} (hsound : h.Sound)
    (hphase : h.phase = .handingOff) (hwriter : h.writerTransferred = true)
    (hconnections : h.connections = given ++ left) (hgiven : ∀ c ∈ given, c.isTransferred) :
    Task.Always (handConnections (List.range' given.length left.length)) h
      (fun hs handing h' => handing.complete = false → handing.progress = false → Idles h hs h')
      (fun _ _ _ => True) := by
  induction left generalizing given with
  | nil => exact Task.always_pure.2 Bool.noConfusion
  | cons c left ih =>
    have hc : h.connections[given.length]? = some c := by simp [hconnections]
    have hset : ∀ c', { h with connections := h.connections.set given.length c' } =
        h.put given c' left := by
      simp [put, hconnections]
    simp only [List.length_cons, List.range'_succ, handConnections, Task.always_bind,
      Task.always_get, hc, List.nil_append]
    split
    next htransferred =>
      have hmore : ∀ x ∈ given ++ [c], x.isTransferred :=
        List.forall_mem_append.2 ⟨hgiven, by simpa using htransferred⟩
      have hrest := ih (given ++ [c]) (by simpa using hconnections) hmore
      rwa [List.length_append, List.length_singleton] at hrest
    next hfree =>
      rw [Bool.not_eq_true] at hfree
      have hhands : h.Hands given c left := ⟨hphase, hwriter, hconnections, hgiven, hfree⟩
      simp only [Task.always_bind, onConnection_always, hset]
      refine (Connection.tryTransfer_halts (hsound.state_of_hands hhands)
        (hsound.kept_of_hands hhands)).mono ?_
        fun _ _ _ _ => trivial
      rintro hs taken c' htried
      cases taken with
      | true =>
        simp only [if_true, Task.always_bind]
        exact Task.always_of_forall (fun _ _ _ => Task.always_pure.2 fun _ => Bool.noConfusion)
          fun _ _ _ => trivial
      | false =>
        have hhalts := (htried rfl).said (.metric (.handoffRetry "connection"))
        simp only [Bool.false_eq_true, if_false, Task.always_bind, Task.always_lift, report,
          Dialogue.always_metric, Task.always_pure]
        exact fun _ _ => .lingers hhands hhalts

theorem handWriter_idle (hwriter : h.writerTransferred = false) : Task.Always handWriter h
    (fun hs given h' => given = false → Idle hs ∧ h' = h) fun _ _ _ => True := by
  simp only [handWriter, hwriter, Bool.false_eq_true, if_false, Task.always_bind, Task.always_get,
    List.nil_append]
  cases h.writer with
  | none => simp
  | some writer =>
    simp only [Dialogue.offerWriter, Dialogue.call, Task.always_bind, Task.always_lift,
      Dialogue.always_ask, Dialogue.always_done]
    intro taken
    cases taken with
    | true => simp
    | false =>
      simp only [Bool.false_eq_true, if_false, Task.always_bind, Task.always_lift, report,
        Dialogue.always_metric, Task.always_pure]
      refine fun _ => ⟨⟨?_, rfl⟩, trivial⟩
      simpa using ⟨⟨rfl, rfl, rfl, rfl, rfl⟩, Happening.isInert_said _⟩

theorem pollHandoff_idle {now : Instant} (hsound : h.Sound) (hphase : h.phase = .handingOff) :
    Task.Always (pollHandoff now) h (fun hs busy h' => busy = false → Idles h hs h')
      (fun _ _ _ => True) := by
  have hstreams : Task.IsBusy (do
      enter .streaming; let h ← get; report
        (.handshakeDuration h.tableName (h.elapsed now)); return true) :=
    Task.isBusy_bind fun _ => Task.isBusy_bind fun _ => Task.isBusy_bind fun _ => Task.isBusy_pure
  simp only [pollHandoff, Task.always_bind, Task.always_get, List.nil_append]
  cases hwriter : h.writerTransferred with
  | true =>
    have hhand := handConnections_idle [] hsound hphase hwriter (List.nil_append _).symm (by simp)
    rw [List.length_nil, ← List.range_eq_range'] at hhand
    simp only [handWriter, hwriter, if_true, Task.always_bind, Task.always_get, Task.always_pure,
      List.nil_append, Bool.not_true, Bool.false_eq_true, if_false]
    refine hhand.mono ?_ fun _ _ _ _ => trivial
    intro hs handing h₁ hidles
    cases hcomplete : handing.complete with
    | false => simpa using hidles hcomplete
    | true => exact hstreams.always
  | false =>
    refine (handWriter_idle hwriter).mono ?_ fun _ _ _ _ => trivial
    intro hs given h₁ hidle
    cases given with
    | false =>
      obtain ⟨hnothing, rfl⟩ := hidle rfl
      simpa using Idles.rests hnothing
    | true =>
      refine Task.IsBusy.always (Task.isBusy_bind fun _ => Task.isBusy_bind fun handing => ?_)
      cases handing.complete with
      | false => exact Task.isBusy_pure
      | true => exact hstreams

/-! ### Polls -/

theorem advance_idle {now : Instant} (hphase : h.phase ≠ .handingOff) :
    Task.Always (advance now) h (fun hs busy h' => busy = false → Idle hs ∧ h' = h)
      (fun _ _ _ => True) := by
  have hlast : ∀ busy : Bool, busy = true → Task.IsBusy (do
      if (← get).phase = .handingOff then
        let moved ← pollHandoff now
        return busy || moved
      return busy) := by
    rintro _ rfl
    exact Task.isBusy_bind fun _ => Task.isBusy_ite
      (Task.isBusy_bind fun _ => Task.isBusy_pure) Task.isBusy_pure
  simp only [advance, Task.always_bind, Task.always_get, List.nil_append]
  by_cases hconnected : (h.phase = .initializing && h.connections.all (·.hasRequestedTableInfo)) =
    true
  · simp only [hconnected, if_true, Bool.true_or]
    refine Task.IsBusy.always (Task.isBusy_bind fun _ => Task.isBusy_bind fun _ => ?_)
    exact Task.isBusy_ite (Task.isBusy_bind fun _ => hlast true rfl) (hlast true rfl)
  rw [Bool.not_eq_true] at hconnected
  simp only [hconnected, Bool.false_eq_true, if_false]
  refine Task.always_bind.2 (Task.always_get.2 ?_)
  by_cases hagreed : (h.phase = .awaitingRendezvous && h.allReady) = true
  · simp only [hagreed, if_true]
    exact Task.IsBusy.always (Task.isBusy_bind fun _ => hlast true rfl)
  · rw [Bool.not_eq_true] at hagreed
    simp only [hagreed, hphase, Bool.false_eq_true, if_false, Task.always_bind, Task.always_get,
      Task.always_pure, List.append_nil]
    exact fun _ => ⟨idle_nil, trivial⟩

theorem pollHandshake_idle {now : Instant} (hsound : h.Sound) :
    Task.Always (pollHandshake now) h (fun hs busy h' => busy = false → Idles h hs h')
      (fun _ _ _ => True) := by
  simp only [pollHandshake, Task.always_bind, Task.always_get, List.nil_append]
  by_cases hphase : h.phase = .handingOff
  · simp only [hphase, if_true]
    exact pollHandoff_idle hsound hphase
  · simp only [hphase, if_false]
    split
    · exact Task.always_throw.2 trivial
    rw [Task.always_bind]
    refine (pollConnections_idle _).mono ?_ fun _ _ _ _ => trivial
    intro hs busy h₁ hpolled
    cases busy with
    | true => exact (Task.isBusy_bind fun _ => Task.isBusy_pure).always
    | false =>
      obtain ⟨hidle, rfl⟩ := hpolled rfl
      simp only [Task.always_bind, Task.always_pure, Bool.false_or, List.append_nil]
      refine (advance_idle hphase).mono ?_ fun _ _ _ _ => trivial
      intro hs' busy h₂ hadvanced hfalse
      obtain ⟨hidle', rfl⟩ := hadvanced hfalse
      exact .rests (hidle.append hidle')

theorem pollStopping_idle :
    Work.Always pollStopping h fun hs busy h' => busy = false → Idle hs ∧ h' = h := by
  simp only [pollStopping, Work.always_bind, Work.always_get, List.nil_append]
  split
  · exact Work.always_pure.2 fun _ => ⟨idle_nil, rfl⟩
  simp only [Dialogue.stopPeer, Dialogue.call, Work.always_bind, Work.always_lift,
    Dialogue.always_ask, Dialogue.always_done]
  intro accepted
  cases accepted with
  | true => simp
  | false =>
    have hasked : Idle [.answered (.stopPeer h.peer) false] :=
      idle_single ⟨rfl, rfl, rfl, rfl, rfl⟩ rfl
    have hsaid : Idle [.reported (.handoffRetry "stop")] :=
      idle_single (Happening.isInert_said _) rfl
    simpa [report] using hasked.append hsaid

/-- A poll that says that nothing happened leaves the handler as it was, except for the connection
that is to be handed over next. -/
theorem poll_idles {now : Instant} (hsound : h.Sound) :
    Work.Always (poll now) h fun hs busy h' => busy = false → Idles h hs h' := by
  simp only [poll, Work.always_bind, Work.always_get, List.nil_append]
  split
  · simp only [Work.always_bind, Task.always_perform]
    refine (pollHandshake_idle hsound).mono ?_ ?_
    · intro hs busy h' hidles
      simpa using hidles
    · intro hs f h' _
      simp only [Work.always_pure, Bool.true_eq_false, false_implies]
      exact fun _ _ _ => trivial
  split
  · refine pollStopping_idle.mono fun hs busy h' hidle hfalse => ?_
    obtain ⟨hnothing, rfl⟩ := hidle hfalse
    exact .rests hnothing
  · exact Work.always_pure.2 fun _ => .rests idle_nil

end Handler

end ReplicaHandshake
