/-!
# Ways

A step relation `step : σ → List ε → σ → Prop` says how a state may change and what is left behind.
`Way step s hs s'` says that `s` comes to `s'` by steps that together leave `hs` behind.  What every
step keeps, every way keeps (`Way.invariant`).
-/

namespace ReplicaHandshake

/-- Any number of steps. -/
inductive Way {σ ε : Type} (step : σ → List ε → σ → Prop) : σ → List ε → σ → Prop where
  | refl (s : σ) : Way step s [] s
  | tail {s s' s'' : σ} {hs hs' : List ε} :
      Way step s hs s' → step s' hs' s'' → Way step s (hs ++ hs') s''

namespace Way

variable {σ ε : Type} {step : σ → List ε → σ → Prop} {s s' s'' : σ} {hs hs' : List ε}

theorem single (h : step s hs s') : Way step s hs s' :=
  (refl s).tail h

theorem trans (h : Way step s hs s') (h' : Way step s' hs' s'') : Way step s (hs ++ hs') s'' := by
  induction h' with
  | refl => simpa using h
  | tail _ hstep ih =>
    rw [← List.append_assoc]
    exact ih.tail hstep

theorem head (h : step s hs s') (h' : Way step s' hs' s'') : Way step s (hs ++ hs') s'' :=
  (single h).trans h'

theorem mono {step' : σ → List ε → σ → Prop} (hstep : ∀ s hs s', step s hs s' → step' s hs s')
    (h : Way step s hs s') : Way step' s hs s' := by
  induction h with
  | refl => exact .refl _
  | tail _ h ih => exact ih.tail (hstep _ _ _ h)

/-- A relation between the past and the state that every step keeps is kept on every way. -/
theorem invariant {I : List ε → σ → Prop}
    (hstep : ∀ past s hs s', I past s → step s hs s' → I (past ++ hs) s')
    (h : Way step s hs s') {past : List ε} (hI : I past s) : I (past ++ hs) s' := by
  induction h with
  | refl => simpa using hI
  | tail _ h ih =>
    rw [← List.append_assoc]
    exact hstep _ _ _ _ ih h

end Way

end ReplicaHandshake
