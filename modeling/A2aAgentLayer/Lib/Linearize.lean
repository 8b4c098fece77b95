import A2aAgentLayer.Lib.Run
import Mathlib.Data.List.Pairwise

/-!
# Calls that take effect at one moment

A sequential object answers one operation after another.  Calls on a concurrent object overlap; an
order of operations explains them if the sequential object, asked in that order, gives the answers
that were given and ends in the state that is there (`Explains`).  A concurrent object is explained
along every run if each of its steps either leaves state and order alone or is one operation of the
sequential object (`explains_run`).

Nothing here depends on what the operations do.
-/

namespace A2aAgentLayer.Lib.Linearize

open A2aAgentLayer.Lib.Run

variable {σ α ρ : Type*}

/-- An operation with its answer, and the call that it was for, if there was one. -/
structure Entry (α ρ : Type*) where
  call : Option ℕ
  operation : α
  answer : ρ

/-- Where no two elements are read as the same value, an element is known by what it is read as. -/
theorem eq_of_nodup_filterMap {f : α → Option ρ} {l : List α} (h : (l.filterMap f).Nodup)
    {a b : α} (ha : a ∈ l) (hb : b ∈ l) {v : ρ} (hfa : f a = some v) (hfb : f b = some v) :
    a = b := by
  by_contra hne
  have hsymm : Std.Symm fun x y => ∀ u, f x = some u → ∀ w, f y = some w → u ≠ w :=
    ⟨fun x y hxy u hu w hw => (hxy w hw u hu).symm⟩
  exact (List.pairwise_filterMap.mp h).forall ha hb hne v hfa v hfb rfl

variable (apply : σ → α → ρ × σ)

/-- Asked for the operations one after another, the object gives the answers and ends in a state. -/
inductive Explains (s : σ) : List (Entry α ρ) → σ → Prop
  | nil : Explains s [] s
  | snoc {t u : σ} {order : List (Entry α ρ)} (before : Explains s order t) (entry : Entry α ρ)
      (answer : apply t entry.operation = (entry.answer, u)) : Explains s (order ++ [entry]) u

/-- The answers that a call got. -/
def answersOf (i : ℕ) (order : List (Entry α ρ)) : List ρ :=
  order.filterMap fun entry => if entry.call = some i then some entry.answer else none

theorem answersOf_append (i : ℕ) (order later : List (Entry α ρ)) :
    answersOf i (order ++ later) = answersOf i order ++ answersOf i later := List.filterMap_append

theorem answersOf_concat (i : ℕ) (order : List (Entry α ρ)) (entry : Entry α ρ) :
    answersOf i (order ++ [entry])
      = answersOf i order ++ if entry.call = some i then [entry.answer] else [] := by
  rw [answersOf_append]
  refine congrArg (answersOf i order ++ ·) ?_
  by_cases hcall : entry.call = some i <;> simp [answersOf, hcall]

/-- A step of a concurrent object: nothing that others could see, or one operation. -/
inductive TakesEffect (s : σ) (order : List (Entry α ρ)) : σ → List (Entry α ρ) → Prop
  | silent : TakesEffect s order s order
  | operation (entry : Entry α ρ) {t : σ} (answer : apply s entry.operation = (entry.answer, t)) :
      TakesEffect s order t (order ++ [entry])

theorem TakesEffect.explains {apply : σ → α → ρ × σ} {s₀ s t : σ} {order after : List (Entry α ρ)}
    (h : TakesEffect apply s order t after) (before : Explains apply s₀ order s) :
    Explains apply s₀ after t := by
  cases h with
  | silent => exact before
  | operation entry answer => exact before.snoc entry answer

theorem TakesEffect.grows {apply : σ → α → ρ × σ} {s t : σ} {order after : List (Entry α ρ)}
    (h : TakesEffect apply s order t after) : order <+: after := by
  cases h with
  | silent => exact List.prefix_rfl
  | operation entry _ => exact List.prefix_append _ _

variable {S ε : Type*} {step : S → ε → Option S} {shared : S → σ} {order : S → List (Entry α ρ)}

/-- **A concurrent object each of whose steps takes effect at once is explained by its order.** -/
theorem explains_run {I : S → Prop} {apply : σ → α → ρ × σ}
    (keeps : ∀ s e t, I s → step s e = some t → I t)
    (takes : ∀ s e t, I s → step s e = some t →
      TakesEffect apply (shared s) (order s) (shared t) (order t))
    {es : List ε} {s t : S} (hs : I s) (h : run step s es = some t) {s₀ : σ}
    (before : Explains apply s₀ (order s) (shared s)) :
    Explains apply s₀ (order t) (shared t) := by
  have hnext : ∀ s e t, I s ∧ Explains apply s₀ (order s) (shared s) → step s e = some t →
      I t ∧ Explains apply s₀ (order t) (shared t) := fun s e t hs hstep =>
    ⟨keeps s e t hs.1 hstep, (takes s e t hs.1 hstep).explains hs.2⟩
  exact (run_invariant step hnext ⟨hs, before⟩ h).2

end A2aAgentLayer.Lib.Linearize
