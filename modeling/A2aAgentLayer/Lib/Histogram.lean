import Mathlib.Algebra.BigOperators.Group.List.Basic
import Mathlib.Algebra.Order.Field.Rat
import Mathlib.Data.List.Induction
import A2aAgentLayer.Lib.KeyedFold

/-!
# Histograms

A histogram has one series for each label set: how many values were observed, their sum, and for
every bucket how many of them do not exceed its bound.  Whatever the order of the observations, a
series is what its own values make of it.

Nothing here depends on what the labels are.
-/

namespace A2aAgentLayer.Lib.Histogram

open A2aAgentLayer.Lib.KeyedFold

structure Series where
  count : ℕ
  sum : ℚ
  upTo : List ℕ
  deriving DecidableEq

variable (buckets : List ℚ)

def Series.empty : Series := ⟨0, 0, buckets.map fun _ => 0⟩

def Series.observe (series : Series) (value : ℚ) : Series where
  count := series.count + 1
  sum := series.sum + value
  upTo := List.zipWith (fun bound n => if value ≤ bound then n + 1 else n) buckets series.upTo

/-- The series of some values. -/
def Series.of (values : List ℚ) : Series where
  count := values.length
  sum := values.sum
  upTo := buckets.map fun bound => values.countP fun value => decide (value ≤ bound)

theorem Series.of_concat (values : List ℚ) (value : ℚ) :
    Series.of buckets (values ++ [value]) = (Series.of buckets values).observe buckets value := by
  have hbucket : ∀ bound, (values ++ [value]).countP (fun x => decide (x ≤ bound))
      = if value ≤ bound then values.countP (fun x => decide (x ≤ bound)) + 1
        else values.countP fun x => decide (x ≤ bound) := by
    intro bound
    rw [List.countP_append, List.countP_singleton]
    by_cases hvalue : value ≤ bound
    · rw [if_pos (decide_eq_true hvalue), if_pos hvalue]
    · rw [if_neg (by simpa using hvalue), if_neg hvalue, Nat.add_zero]
  simp only [Series.of, Series.observe, List.length_append, List.length_singleton, List.sum_append,
    List.sum_singleton, hbucket, List.zipWith_map_right, List.zipWith_self]

variable {κ : Type*} [DecidableEq κ]

/-- What a list of observations, each a label set and a value, makes of a fresh histogram. -/
def observed (observations : List (κ × ℚ)) : κ → Series :=
  observations.foldl (apply Prod.fst fun series o => series.observe buckets o.2)
    fun _ => Series.empty buckets

/-- **A series is made of the values observed under its labels.** -/
theorem observed_eq (observations : List (κ × ℚ)) (labels : κ) :
    observed buckets observations labels
      = Series.of buckets ((eventsOf Prod.fst labels observations).map Prod.snd) := by
  rw [observed, foldl_update_apply]
  generalize eventsOf Prod.fst labels observations = own
  induction own using List.reverseRecOn with
  | nil => rfl
  | append_singleton own o ih =>
      rw [List.foldl_concat, ih, List.map_append, List.map_singleton, Series.of_concat]

theorem count_observed (observations : List (κ × ℚ)) (labels : κ) :
    (observed buckets observations labels).count = (observations.map Prod.fst).count labels := by
  rw [observed_eq]
  show ((eventsOf Prod.fst labels observations).map Prod.snd).length = _
  rw [List.length_map, eventsOf, ← List.countP_eq_length_filter, List.count, List.countP_map]
  rfl

end A2aAgentLayer.Lib.Histogram
