import Mathlib.Data.List.Infix

/-!
# Replacing every match of a pattern

A global replacement walks through a text from the left, replaces the match that begins at the
current place, if there is one, and goes on behind it.  Every match is longer than what replaces it,
so a replacement either shortens the text or leaves it as it is, and a list of replacements leaves a
text as it is exactly when none of them has a match in it (`replaceEach_eq_self_iff`).

`scan_induction` goes through a text as a replacement does: over one unit, or over one match.
-/

namespace A2aAgentLayer.Lib.TextReplace

variable {α : Type*}

/-- A pattern, as the length of its match at the front of a text, and what replaces it. -/
structure Replacement (α : Type*) where
  matchAt : List α → Option ℕ
  value : List α
  shrinks : ∀ s n, matchAt s = some n → value.length < n ∧ n ≤ s.length

/-- The text from a place on, where the first `skip` units still belong to a match. -/
def replaceFrom (r : Replacement α) : ℕ → List α → List α
  | _, [] => []
  | skip + 1, _ :: s => replaceFrom r skip s
  | 0, u :: s =>
      match r.matchAt (u :: s) with
      | none => u :: replaceFrom r 0 s
      | some n => r.value ++ replaceFrom r (n - 1) s

def replaceAll (r : Replacement α) (s : List α) : List α := replaceFrom r 0 s

/-- One replacement after another. -/
def replaceEach (rs : List (Replacement α)) (s : List α) : List α :=
  rs.foldl (fun s r => replaceAll r s) s

/-- No match begins anywhere in the text. -/
def Unmatched (r : Replacement α) (s : List α) : Prop := ∀ t, t <:+ s → r.matchAt t = none

theorem unmatched_cons {r : Replacement α} {u : α} {s : List α} :
    Unmatched r (u :: s) ↔ r.matchAt (u :: s) = none ∧ Unmatched r s := by
  constructor
  · intro h
    exact ⟨h _ List.suffix_rfl, fun t ht => h t (ht.trans (List.suffix_cons u s))⟩
  · rintro ⟨hhead, htail⟩ t ht
    rcases List.suffix_cons_iff.mp ht with rfl | ht
    · exact hhead
    · exact htail t ht

/-! ### One match at a time -/

variable {r : Replacement α}

theorem replaceFrom_eq (r : Replacement α) (skip : ℕ) (s : List α) :
    replaceFrom r skip s = replaceAll r (s.drop skip) := by
  induction s generalizing skip with
  | nil =>
      rw [List.drop_nil]
      cases skip <;> rfl
  | cons u s ih =>
      cases skip with
      | zero => rfl
      | succ skip => exact ih skip

theorem replaceAll_of_none {u : α} {s : List α} (h : r.matchAt (u :: s) = none) :
    replaceAll r (u :: s) = u :: replaceAll r s := by
  rw [replaceAll, replaceFrom, h]
  rfl

theorem matchAt_nil (r : Replacement α) : r.matchAt [] = none := by
  cases h : r.matchAt [] with
  | none => rfl
  | some n =>
      obtain ⟨hvalue, hn⟩ := r.shrinks _ _ h
      rw [List.length_nil] at hn
      omega

theorem replaceAll_of_match {s : List α} {n : ℕ} (h : r.matchAt s = some n) :
    replaceAll r s = r.value ++ replaceAll r (s.drop n) := by
  obtain ⟨hvalue, -⟩ := r.shrinks _ _ h
  cases s with
  | nil =>
      rw [matchAt_nil] at h
      cases h
  | cons u s =>
      obtain ⟨k, rfl⟩ : ∃ k, n = k + 1 := ⟨n - 1, by omega⟩
      rw [replaceAll, replaceFrom, h]
      show r.value ++ replaceFrom r (k + 1 - 1) s = _
      rw [Nat.add_sub_cancel, replaceFrom_eq, List.drop_succ_cons]

theorem unmatched_nil (r : Replacement α) : Unmatched r [] := by
  intro t ht
  rw [List.suffix_nil.mp ht]
  exact matchAt_nil r

/-- Induction along a scan: over a unit at which no match begins, or over a whole match. -/
theorem scan_induction {motive : List α → Prop} (r : Replacement α) (nil : motive [])
    (unit : ∀ u s, r.matchAt (u :: s) = none → motive s → motive (u :: s))
    (found : ∀ s n, r.matchAt s = some n → motive (s.drop n) → motive s) (s : List α) :
    motive s := by
  induction hlen : s.length using Nat.strong_induction_on generalizing s with
  | _ k ih =>
      cases s with
      | nil => exact nil
      | cons u s =>
          rw [List.length_cons] at hlen
          cases h : r.matchAt (u :: s) with
          | none => exact unit u s h (ih s.length (by omega) s rfl)
          | some n =>
              obtain ⟨hvalue, -⟩ := r.shrinks _ _ h
              refine found _ n h (ih _ ?_ _ rfl)
              rw [List.length_drop, List.length_cons]
              omega

/-! ### Lengths -/

theorem length_replaceAll_le (r : Replacement α) (s : List α) :
    (replaceAll r s).length ≤ s.length := by
  induction s using scan_induction r with
  | nil => exact le_refl _
  | unit u s hnone ih =>
      rw [replaceAll_of_none hnone]
      exact Nat.succ_le_succ ih
  | found s n hmatch ih =>
      obtain ⟨hvalue, hn⟩ := r.shrinks _ _ hmatch
      rw [List.length_drop] at ih
      rw [replaceAll_of_match hmatch, List.length_append]
      omega

theorem replaceAll_of_unmatched {s : List α} (h : Unmatched r s) : replaceAll r s = s := by
  induction s using scan_induction r with
  | nil => rfl
  | unit u s hnone ih => rw [replaceAll_of_none hnone, ih (unmatched_cons.mp h).2]
  | found s n hmatch _ =>
      rw [h s List.suffix_rfl] at hmatch
      cases hmatch

/-- A match anywhere makes the text shorter. -/
theorem length_replaceAll_lt {s : List α} (h : ¬ Unmatched r s) :
    (replaceAll r s).length < s.length := by
  induction s using scan_induction r with
  | nil => exact absurd (unmatched_nil r) h
  | unit u s hnone ih =>
      have htail : ¬ Unmatched r s := fun ht => h (unmatched_cons.mpr ⟨hnone, ht⟩)
      rw [replaceAll_of_none hnone]
      exact Nat.succ_lt_succ (ih htail)
  | found s n hmatch _ =>
      obtain ⟨hvalue, hn⟩ := r.shrinks _ _ hmatch
      have hrest := length_replaceAll_le r (s.drop n)
      rw [List.length_drop] at hrest
      rw [replaceAll_of_match hmatch, List.length_append]
      omega

theorem length_replaceEach_le (rs : List (Replacement α)) (s : List α) :
    (replaceEach rs s).length ≤ s.length := by
  induction rs generalizing s with
  | nil => exact le_refl _
  | cons r rs ih => exact (ih (replaceAll r s)).trans (length_replaceAll_le r s)

/-- Replacements that do not make a text shorter have no match in it. -/
theorem unmatched_of_length {rs : List (Replacement α)} {s : List α}
    (h : s.length ≤ (replaceEach rs s).length) : ∀ r ∈ rs, Unmatched r s := by
  induction rs with
  | nil => simp
  | cons r rs ih =>
      have hle : (replaceEach (r :: rs) s).length ≤ (replaceAll r s).length :=
        length_replaceEach_le rs (replaceAll r s)
      have hfirst : Unmatched r s := by
        by_contra hmatch
        have hlt := length_replaceAll_lt hmatch
        omega
      rw [List.forall_mem_cons]
      refine ⟨hfirst, ih ?_⟩
      have hrest : s.length ≤ (replaceEach rs (replaceAll r s)).length := h
      rwa [replaceAll_of_unmatched hfirst] at hrest

/-- **A list of replacements changes nothing exactly when none of them has a match.** -/
theorem replaceEach_eq_self_iff {rs : List (Replacement α)} {s : List α} :
    replaceEach rs s = s ↔ ∀ r ∈ rs, Unmatched r s := by
  constructor
  · intro h
    exact unmatched_of_length (congrArg List.length h).ge
  · intro h
    induction rs with
    | nil => rfl
    | cons r rs ih =>
        rw [List.forall_mem_cons] at h
        show replaceEach rs (replaceAll r s) = s
        rw [replaceAll_of_unmatched h.1]
        exact ih h.2

end A2aAgentLayer.Lib.TextReplace
