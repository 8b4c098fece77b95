import Mathlib.Data.List.Count

/-!
# Patterns with a wildcard

A pattern is a list in which one symbol, the star, is a wildcard.  `Fits` says that a list comes out
of the pattern when each star is replaced by some list of allowed symbols and every other symbol
stands for itself.

Forbidding symbols inside the stars can be told from counts alone: a list that fits a pattern fits
it without any forbidden symbol in a star exactly when it has as many of them as the pattern.
-/

namespace A2aAgentLayer.Lib.Glob

variable {α : Type*}

/-- The second list arises from the first when each star is replaced by some list of allowed
symbols. -/
inductive Fits (star : α) (allowed : α → Prop) : List α → List α → Prop where
  | nil : Fits star allowed [] []
  | literal {a : α} {p v : List α} : a ≠ star → Fits star allowed p v →
      Fits star allowed (a :: p) (a :: v)
  | star {p v : List α} (w : List α) : (∀ a ∈ w, allowed a) → Fits star allowed p v →
      Fits star allowed (star :: p) (w ++ v)

variable {star : α} {allowed : α → Prop}

theorem fits_nil_iff {v : List α} : Fits star allowed [] v ↔ v = [] := by
  constructor
  · intro h
    cases h
    rfl
  · rintro rfl
    exact .nil

theorem fits_literal_iff {a : α} (ha : a ≠ star) {p v : List α} :
    Fits star allowed (a :: p) v ↔ ∃ rest, v = a :: rest ∧ Fits star allowed p rest := by
  constructor
  · intro h
    cases h with
    | literal _ h => exact ⟨_, rfl, h⟩
    | star w _ _ => exact absurd rfl ha
  · rintro ⟨rest, rfl, h⟩
    exact .literal ha h

theorem fits_star_iff {p v : List α} :
    Fits star allowed (star :: p) v ↔
      ∃ w rest, v = w ++ rest ∧ (∀ a ∈ w, allowed a) ∧ Fits star allowed p rest := by
  constructor
  · intro h
    cases h with
    | literal hne _ => exact absurd rfl hne
    | star w hw h => exact ⟨w, _, rfl, hw, h⟩
  · rintro ⟨w, rest, rfl, hw, h⟩
    exact .star w hw h

theorem Fits.mono {allowed' : α → Prop} (hle : ∀ a, allowed a → allowed' a) {p v : List α}
    (h : Fits star allowed p v) : Fits star allowed' p v := by
  induction h with
  | nil => exact .nil
  | literal ha _ ih => exact .literal ha ih
  | star w hw _ ih => exact .star w (fun a ha => hle a (hw a ha)) ih

/-- A prefix without stars stays in place. -/
theorem fits_append_iff {lead : List α} (hlead : ∀ a ∈ lead, a ≠ star) {p v : List α} :
    Fits star allowed (lead ++ p) (lead ++ v) ↔ Fits star allowed p v := by
  induction lead with
  | nil => rfl
  | cons a lead ih =>
      rw [List.forall_mem_cons] at hlead
      rw [List.cons_append, List.cons_append, fits_literal_iff hlead.1, ← ih hlead.2]
      constructor
      · rintro ⟨rest, hrest, h⟩
        rw [(List.cons.inj hrest).2]
        exact h
      · intro h
        exact ⟨_, rfl, h⟩

/-- A star alone takes any list of allowed symbols. -/
theorem fits_star_alone_iff {v : List α} :
    Fits star allowed [star] v ↔ ∀ a ∈ v, allowed a := by
  rw [fits_star_iff]
  constructor
  · rintro ⟨w, rest, rfl, hw, h⟩
    rw [fits_nil_iff.mp h, List.append_nil]
    exact hw
  · intro h
    exact ⟨v, [], (List.append_nil v).symm, h, .nil⟩

/-! ### Counting forbidden symbols -/

section Count

variable (forbidden : α → Bool)

/-- What fits has every symbol of the pattern. -/
theorem Fits.countP_le (hstar : forbidden star = false) {p v : List α}
    (h : Fits star allowed p v) : p.countP forbidden ≤ v.countP forbidden := by
  induction h with
  | nil => exact Nat.le_refl _
  | @literal a p v _ _ ih =>
      rw [List.countP_cons, List.countP_cons]
      omega
  | @star p v w _ _ ih =>
      rw [List.countP_cons_of_neg (by simp [hstar]), List.countP_append]
      omega

/-- **Stars without forbidden symbols, by counting.** -/
theorem Fits.avoids_iff (hstar : forbidden star = false) {p v : List α}
    (h : Fits star allowed p v) :
    Fits star (fun a => allowed a ∧ forbidden a = false) p v
      ↔ v.countP forbidden = p.countP forbidden := by
  constructor
  · intro hav
    clear h
    induction hav with
    | nil => rfl
    | @literal a p v _ _ ih => rw [List.countP_cons, List.countP_cons, ih]
    | @star p v w hw _ ih =>
        have hnone : w.countP forbidden = 0 :=
          List.countP_eq_zero.mpr fun a ha => by simp [(hw a ha).2]
        rw [List.countP_cons_of_neg (by simp [hstar]), List.countP_append, hnone, ih, Nat.zero_add]
  · intro hcount
    induction h with
    | nil => exact .nil
    | @literal a p v ha _ ih =>
        rw [List.countP_cons, List.countP_cons] at hcount
        exact .literal ha (ih (by omega))
    | @star p v w hw hv ih =>
        rw [List.countP_cons_of_neg (by simp [hstar]), List.countP_append] at hcount
        have hle := hv.countP_le forbidden hstar
        have hnone : w.countP forbidden = 0 := by omega
        refine .star w (fun a ha => ⟨hw a ha, ?_⟩) (ih (by omega))
        simpa using List.countP_eq_zero.mp hnone a ha

end Count

end A2aAgentLayer.Lib.Glob
