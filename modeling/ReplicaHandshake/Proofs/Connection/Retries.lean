import ReplicaHandshake.Proofs.Connection.Custody
import ReplicaHandshake.Proofs.Connection.Idle

/-!
# Attempts that are to be made again

An attempt to hand a connection over that comes to nothing is to be made again, and the handler
reports it.  Where the connection owns its socket and is able to write what it has still to write,
such an attempt has one reason: the multiplexer refused the socket, or a call that writes would have
had to wait (`tryTransfer_due`).

`Due n hs` says that of all reasons among these happenings every one but for `n` has been reported.
-/

namespace ReplicaHandshake

namespace Happening

/-- The target that was reported to be offered again, or asked again. -/
def retried? : Happening → Option String
  | reported (.handoffRetry target) => some target
  | _ => none

/-- The target that the multiplexer refused: an offer, or to let go. -/
def refused? : Happening → Option String
  | answered (.offerWriter _ _ _) false => some "writer"
  | answered (.offerSocket _ _) false => some "connection"
  | answered (.stopPeer _) false => some "stop"
  | _ => none

/-- Whether a call that writes would have had to wait. -/
def isBlocked : Happening → Bool
  | answered (.write _ _) answer =>
    match answer.result with
    | .ok _ => false
    | .error e => e.kind = .wouldBlock
  | _ => false

end Happening

/-- The targets that were reported to be tried again, as often as they were. -/
def retries (hs : List Happening) : List String :=
  hs.filterMap (·.retried?)

/-- The targets that the multiplexer refused, as often as it did. -/
def refusals (hs : List Happening) : List String :=
  hs.filterMap (·.refused?)

@[simp] theorem retries_append (past hs : List Happening) :
    retries (past ++ hs) = retries past ++ retries hs :=
  List.filterMap_append

@[simp] theorem refusals_append (past hs : List Happening) :
    refusals (past ++ hs) = refusals past ++ refusals hs :=
  List.filterMap_append

/-- So many of the reasons why a connection is to be handed over again are not reported yet: a
refusal, or a call that would have had to wait. -/
def Due (n : Nat) (hs : List Happening) : Prop :=
  (retries hs).count "connection" + n = (refusals hs).count "connection" + hs.countP (·.isBlocked)

variable {n m : Nat} {hs hs' : List Happening}

theorem due_nil : Due 0 [] :=
  rfl

theorem Due.append (h : Due n hs) (h' : Due m hs') : Due (n + m) (hs ++ hs') := by
  unfold Due at *
  rw [retries_append, refusals_append, List.count_append, List.count_append, List.countP_append]
  omega

theorem Due.reported (h : Due 1 hs) : Due 0 (hs ++ [.reported (.handoffRetry "connection")]) := by
  have hreport : (retries [.reported (.handoffRetry "connection")]).count "connection" = 1 := rfl
  unfold Due at *
  rw [retries_append, refusals_append, List.count_append, List.count_append,
    List.countP_append, hreport]
  exact h

namespace Connection

variable {c : Connection}

/-- Where bytes are left, the last call that wrote would have had to wait, and no other one. -/
theorem drain_due (socket : SocketId) (pending : Bytes) :
    (OutboundBuffer.drain (Dialogue.write socket) pending).Always fun hs r =>
      match r.1 with
      | .ok _ => Due (if r.2 = [] then 0 else 1) hs
      | .error _ => Due 0 hs := by
  induction hn : pending.length using Nat.strongRecOn generalizing pending with
  | ind n ih =>
    unfold OutboundBuffer.drain
    split
    · exact Dialogue.always_done.2 due_nil
    next hsome =>
      rw [Dialogue.always_bind]
      refine Dialogue.always_call.2 fun answer => ?_
      cases hr : answer.result with
      | error e =>
        by_cases he : e.kind = .wouldBlock
        · simp [he, hsome, Due, retries, refusals, Happening.retried?, Happening.refused?,
            Happening.isBlocked, hr]
        · simp [he, Due, retries, refusals, Happening.retried?, Happening.refused?,
            Happening.isBlocked, hr]
      | ok k =>
        have hwritten : Due 0 [.answered (.write socket pending) answer] := by
          simp [Due, retries, refusals, Happening.retried?, Happening.refused?, Happening.isBlocked,
            hr]
        obtain ⟨_ | k, hk⟩ := k
        · exact Dialogue.always_done.2 hwritten
        · have hlt : (pending.drop (k + 1)).length < n := by
            rw [List.length_drop]
            omega
          refine (ih _ hlt _ rfl).mono ?_
          rintro hs ⟨result, left⟩ hrest
          cases result <;> simpa using hwritten.append hrest

theorem flush_due (hwrites : c.socket = none → c.outbound.pending = []) :
    Task.Always flush c (fun hs _ c' => Due (if c'.outbound.pending = [] then 0 else 1) hs)
      (fun hs _ _ => Due 0 hs) := by
  simp only [flush, Task.always_bind, Task.always_get, List.nil_append]
  split
  next hnone => simpa [hnone] using due_nil
  next hsome =>
    split
    next hsocket => exact absurd (hwrites hsocket) hsome
    next socket _ =>
      simp only [Dialogue.flush, OutboundBuffer.flush, Task.always_bind, Task.always_lift,
        Dialogue.always_bind, Dialogue.pure_eq, Dialogue.always_done, List.append_nil]
      refine (drain_due socket c.outbound.pending).mono ?_
      rintro hs ⟨result, pending⟩ hdue
      rw [Task.always_set]
      cases result <;> simpa using hdue

/-- The connection has not offered its socket yet, or there was nothing left to
write when it did. -/
def CanWrite (c : Connection) : Prop :=
  c.pendingHandoff = none ∨ c.socket = none ∧ c.outbound.pending = []

/-- A connection keeps its socket as long as it has bytes to write. -/
theorem Act.canWrite {c' : Connection} (hact : Act c hs c') (hwrites : c.CanWrite) :
    c'.CanWrite := by
  have hnone : ∀ {socket : SocketId}, c.socket = some socket → c.pendingHandoff = none := by
    intro socket hsocket
    refine hwrites.resolve_right fun hgone => ?_
    cases hsocket.symm.trans hgone.1
  cases hact with
  | step hstep =>
    cases hstep with
    | write hwrite => cases hwrite <;> exact .inl (hnone ‹_›)
    | wait _ hsocket | ask _ _ hsocket | read hsocket | block hsocket => exact .inl (hnone hsocket)
  | hear hholds hhear => exact .inl ((hhear.talk hholds).1.2.2.trans hholds.2.2)
  | request hholds hrequest => exact .inl ((hrequest.talk hholds).1.2.2.trans hholds.2.2)
  | @offer _ _ taken hkept hoffer =>
    have hsame := congrArg (·.pending) hoffer.outbound_eq
    obtain ⟨_, -, -, hpending, -, -, hafter⟩ := hoffer.spec hkept
    cases taken with
    | true => exact .inl hafter.2.2.2
    | false =>
      obtain ⟨_, -, hsocket, -⟩ := hafter.2.1
      exact .inr ⟨hsocket, hsame.trans hpending⟩

/-- An attempt to hand the connection over comes to nothing for one reason: a call that writes would
have had to wait, or the multiplexer refused the socket. -/
theorem tryTransfer_due (hstate : c.state = .ready ∨ c.state = .streamStarted)
    (hkept : c.Holds ∨ c.Refused) (hwrites : c.CanWrite) :
    Task.Always tryTransfer c (fun hs taken _ => Due (if taken then 0 else 1) hs)
      (fun hs _ _ => Due 0 hs) := by
  have hpending : c.socket = none → c.outbound.pending = [] := by
    intro hnone
    obtain ⟨hid, hsocket, -⟩ | ⟨handoff, -, -, hsome⟩ := hkept
    · rw [← hsocket, hnone] at hid
      cases hid
    · refine (hwrites.resolve_left fun hgone => ?_).2
      cases hgone.symm.trans hsome
  rcases hstate with h | h
  all_goals
    have hopen : c.hasRequestedTableInfo := by simp [hasRequestedTableInfo, h]
    simp only [tryTransfer, h, Task.always_bind, Task.always_get, List.nil_append]
    refine ((flush_always hopen).and (flush_due hpending)).mono ?_ fun _ _ _ h => h.2
    rintro hs _ c₁ ⟨hway, hdue⟩
    by_cases hpending : c₁.outbound.pending = []
    case neg => simpa [hpending] using hdue
    rw [if_pos hpending] at hdue
    have hkept₁ : c₁.Holds ∨ c₁.Refused := by
      rw [eq_of_writes hway]
      exact hkept
    obtain ⟨socket, rest, -, htake, -⟩ := takeHandoff_eq hkept₁
    have hrefused : Due 1 [.answered (.offerSocket c₁.peer ⟨socket, c₁.held⟩) false] := rfl
    have htaken : Due 0 [.answered (.offerSocket c₁.peer ⟨socket, c₁.held⟩) true] := rfl
    simpa [hpending, htake, Dialogue.offerSocket, Dialogue.call] using
      And.intro (hdue.append hrefused) (hdue.append htaken)

end Connection

end ReplicaHandshake
