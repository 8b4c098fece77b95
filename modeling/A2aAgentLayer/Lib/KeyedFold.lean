import Mathlib.Data.List.Basic
import Mathlib.Logic.Function.Basic

/-!
# Histories over a total map

A history of events, each of which rewrites the value under its own key, takes a total map to one
whose value under a key depends on the events of that key alone (`foldl_update_apply`).

Nothing here depends on what the keys, the values and the events are.
-/

namespace A2aAgentLayer.Lib.KeyedFold

variable {κ ν ε : Type*} [DecidableEq κ] (key : ε → κ) (write : ν → ε → ν)

/-- One event. -/
def apply (m : κ → ν) (e : ε) : κ → ν := Function.update m (key e) (write (m (key e)) e)

/-- The events of a key. -/
def eventsOf (k : κ) (es : List ε) : List ε := es.filter fun e => decide (key e = k)

theorem mem_eventsOf {k : κ} {es : List ε} {e : ε} :
    e ∈ eventsOf key k es ↔ e ∈ es ∧ key e = k := by
  rw [eventsOf, List.mem_filter, decide_eq_true_eq]

theorem eventsOf_append (k : κ) (es fs : List ε) :
    eventsOf key k (es ++ fs) = eventsOf key k es ++ eventsOf key k fs := List.filter_append ..

theorem eventsOf_singleton (k : κ) (e : ε) :
    eventsOf key k [e] = if key e = k then [e] else [] := by
  rw [eventsOf, List.filter_singleton]
  split_ifs with h <;> simp [h]

/-- **The value under a key is what the events of the key make of it.** -/
theorem foldl_update_apply (es : List ε) (m : κ → ν) (k : κ) :
    es.foldl (apply key write) m k = (eventsOf key k es).foldl write (m k) := by
  induction es generalizing m with
  | nil => rfl
  | cons e es ih =>
      rw [List.foldl_cons, ih, eventsOf, eventsOf, List.filter_cons]
      by_cases hkey : key e = k
      · rw [if_pos (decide_eq_true hkey), List.foldl_cons, apply, ← hkey, Function.update_self]
      · rw [if_neg (by simpa using hkey), apply, Function.update_of_ne (Ne.symm hkey)]

/-- The first of a list of writes to a free value stays, if what it writes takes no further ones. -/
theorem foldl_eq_of_first {write : ν → ε → ν} {start : ν} {P : ν → Prop}
    (stays : ∀ v e, P v → write v e = v) (first : ∀ e, P (write start e)) :
    ∀ es : List ε, es.foldl write start = (es.head?.map (write start)).getD start
  | [] => rfl
  | e :: es => by
      have hstays : ∀ fs : List ε, fs.foldl write (write start e) = write start e := by
        intro fs
        induction fs with
        | nil => rfl
        | cons f fs ih => rw [List.foldl_cons, stays _ _ (first e), ih]
      exact hstays es

end A2aAgentLayer.Lib.KeyedFold
