import Mathlib.Data.Nat.Notation

/-!
# Endless runs

A system with a step for every event and an event for every moment.  A safety property is an
invariant of the states.  A liveness property says that something holds again and again, or from
some moment on; its proof gives a rank that falls as long as it does not hold.

Nothing here depends on what the states and the events are.
-/

namespace A2aAgentLayer.Lib.Timeline

variable {σ ε : Type*} (step : σ → ε → σ) (initial : σ) (events : ℕ → ε)

/-- The state before the `n`-th event. -/
def stateAt : ℕ → σ
  | 0 => initial
  | n + 1 => step (stateAt n) (events n)

variable {step initial events}

/-- An invariant that the events of the timeline preserve holds at every moment. -/
theorem always {Inv : σ → Prop} (init : Inv initial)
    (next : ∀ s n, Inv s → Inv (step s (events n))) : ∀ n, Inv (stateAt step initial events n)
  | 0 => init
  | n + 1 => next _ n (always init next n)

/-- A relation that is reflexive, transitive and respected by every step relates a state to every
later one. -/
theorem later {R : σ → σ → Prop} (refl : ∀ s, R s s) (trans : ∀ a b c, R a b → R b c → R a c)
    (next : ∀ s e, R s (step s e)) {n m : ℕ} (h : n ≤ m) :
    R (stateAt step initial events n) (stateAt step initial events m) := by
  induction h with
  | refl => exact refl _
  | step _ ih => exact trans _ _ _ ih (next _ _)

/-- **Progress.**  What is reached, or comes nearer, from every moment is reached from every moment.
-/
theorem eventually_of_rank {Done : ℕ → Prop} (rank : ℕ → ℕ)
    (progress : ∀ n, ¬ Done n → ∃ m, n ≤ m ∧ (Done m ∨ rank m < rank n)) (n : ℕ) :
    ∃ m, n ≤ m ∧ Done m := by
  induction h : rank n using Nat.strongRecOn generalizing n with
  | ind k ih =>
      by_cases hdone : Done n
      · exact ⟨n, Nat.le_refl n, hdone⟩
      obtain ⟨m, hnm, hm | hlt⟩ := progress n hdone
      · exact ⟨m, hnm, hm⟩
      · obtain ⟨m', hmm', hm'⟩ := ih (rank m) (h ▸ hlt) m rfl
        exact ⟨m', Nat.le_trans hnm hmm', hm'⟩

end A2aAgentLayer.Lib.Timeline
