import A2aAgentLayer.Lib.Glob
import A2aAgentLayer.Policies.Evaluator

/-!
# What the wildcards match

The regular expression of a pattern translates `*` to `.*`, and `.` matches every unit but the line
terminators.  So a pattern matches the values that come out of it when its stars are replaced by
strings without line terminators (`matchAtoms_iff`).  The pattern `*` alone is handled apart and
matches everything.
-/

namespace A2aAgentLayer.Policies.Wildcards

open A2aAgentLayer.Lib.Utf16 A2aAgentLayer.Lib.Glob A2aAgentLayer.Policies.Evaluator

def star : CodeUnit := unit '*'

/-- The value is the pattern with each `*` replaced by some string. -/
def IsGlob (pattern value : JsString) : Prop := Fits star (fun _ => True) pattern value

/-- The number of line terminators. -/
def lineTerminators (s : JsString) : ℕ := s.countP isLineTerminator

/-! ### The regular expression -/

theorem afterDots_iff {test : JsString → Bool} {value : JsString} :
    afterDots test value = true ↔ ∃ w rest, value = w ++ rest
      ∧ (∀ u ∈ w, isLineTerminator u = false) ∧ test rest = true := by
  induction value with
  | nil =>
      rw [afterDots]
      constructor
      · intro h
        exact ⟨[], [], rfl, nofun, h⟩
      · rintro ⟨w, rest, hnil, -, h⟩
        obtain ⟨rfl, rfl⟩ := List.append_eq_nil_iff.mp hnil.symm
        exact h
  | cons u value ih =>
      rw [afterDots, Bool.or_eq_true, Bool.and_eq_true, Bool.not_eq_true', ih]
      constructor
      · rintro (h | ⟨hu, w, rest, rfl, hw, h⟩)
        · exact ⟨[], u :: value, rfl, nofun, h⟩
        · exact ⟨u :: w, rest, rfl, List.forall_mem_cons.mpr ⟨hu, hw⟩, h⟩
      · rintro ⟨w, rest, hsplit, hw, h⟩
        cases w with
        | nil =>
            rw [List.nil_append] at hsplit
            exact .inl (hsplit ▸ h)
        | cons v w =>
            obtain ⟨rfl, rfl⟩ := List.cons.inj hsplit
            rw [List.forall_mem_cons] at hw
            exact .inr ⟨hw.1, w, rest, rfl, hw.2, h⟩

/-- **The anchored match.**  The stars stand for strings without line terminators. -/
theorem matchAtoms_iff {pattern value : JsString} :
    matchAtoms (atoms pattern) value = true
      ↔ Fits star (fun u => True ∧ isLineTerminator u = false) pattern value := by
  induction pattern generalizing value with
  | nil =>
      rw [fits_nil_iff]
      show value.isEmpty = true ↔ value = []
      exact List.isEmpty_iff
  | cons u pattern ih =>
      by_cases hu : u = star
      · subst hu
        rw [fits_star_iff]
        show afterDots (matchAtoms (atoms pattern)) value = true ↔ _
        rw [afterDots_iff]
        simp only [ih, true_and]
      · have hatoms : atoms (u :: pattern) = .literal u :: atoms pattern := by
          show (if u = star then Atom.dotStar else .literal u) :: atoms pattern = _
          rw [if_neg hu]
        rw [fits_literal_iff hu, hatoms]
        cases value with
        | nil => simp [matchAtoms]
        | cons v value =>
            rw [matchAtoms, Bool.and_eq_true, beq_iff_eq, ih]
            constructor
            · rintro ⟨rfl, h⟩
              exact ⟨value, rfl, h⟩
            · rintro ⟨rest, hcons, h⟩
              obtain ⟨rfl, rfl⟩ := List.cons.inj hcons
              exact ⟨rfl, h⟩

/-- A pattern other than `*` matches what it generates without line terminators in its stars. -/
theorem matchWildcard_iff {pattern value : JsString} :
    matchWildcard pattern value = true ↔ pattern = [star]
      ∨ IsGlob pattern value ∧ lineTerminators value = lineTerminators pattern := by
  have hstar : isLineTerminator star = false := by decide
  rw [matchWildcard]
  split_ifs with hone
  · exact iff_of_true rfl (.inl hone)
  · rw [matchAtoms_iff]
    constructor
    · intro h
      have hglob : IsGlob pattern value := h.mono fun _ _ => trivial
      exact .inr ⟨hglob, (hglob.avoids_iff isLineTerminator hstar).mp h⟩
    · rintro (halone | ⟨hglob, hcount⟩)
      · exact absurd halone hone
      · exact (hglob.avoids_iff isLineTerminator hstar).mpr hcount

theorem isGlob_star (value : JsString) : IsGlob [star] value :=
  fits_star_alone_iff.mpr fun _ _ => trivial

/-- **When wildcard matching is glob matching.**  On a pattern and a value the two agree exactly
when the pattern is `*`, or the value does not come out of the pattern, or it has as many line
terminators as the pattern.  So a prefix followed by `*` covers the values with that prefix that
have no line terminator behind it. -/
theorem matchWildcard_glob_iff (pattern value : JsString) :
    ((matchWildcard pattern value = true ↔ IsGlob pattern value)
        ↔ pattern = [star] ∨ ¬ IsGlob pattern value
          ∨ lineTerminators value = lineTerminators pattern)
      ∧ ∀ lead rest : JsString, pattern = lead ++ [star] → value = lead ++ rest → lead ≠ [] →
        star ∉ lead →
        (matchWildcard pattern value = true ↔ ∀ u ∈ rest, isLineTerminator u = false) := by
  refine ⟨?_, ?_⟩
  · rw [matchWildcard_iff]
    by_cases hone : pattern = [star]
    · subst hone
      simp [isGlob_star]
    · tauto
  · rintro lead rest rfl rfl hne hlead
    have hstars : ∀ u ∈ lead, u ≠ star := fun u hu heq => hlead (heq ▸ hu)
    have hglob : IsGlob (lead ++ [star]) (lead ++ rest) :=
      (fits_append_iff hstars).mpr (isGlob_star rest)
    have hone : lead ++ [star] ≠ [star] := by
      intro h
      exact hne (List.append_left_eq_self.mp h)
    have hcount : lineTerminators (lead ++ rest) = lineTerminators (lead ++ [star])
        ↔ rest.countP isLineTerminator = 0 := by
      have hstar : [star].countP isLineTerminator = 0 := by decide
      simp only [lineTerminators, List.countP_append, hstar]
      omega
    rw [matchWildcard_iff, or_iff_right hone, and_iff_right hglob, hcount, List.countP_eq_zero]
    simp only [Bool.not_eq_true]

/-! A deny rule for a prefix, and a session that has it. -/

def denySecrets : PolicyRuleset where
  allowlist := some [js "*"]
  denylist := none
  accessRules := some [⟨.deny, [js "*"], none, some [js "secret-*"]⟩]

/-- The session `secret-\n1` begins with `secret-`, and the deny rule does not apply to it. -/
theorem newline_escapes :
    (∃ rest, js "secret-\n1" = js "secret-" ++ rest)
      ∧ IsGlob (js "secret-*") (js "secret-\n1")
      ∧ matchWildcard (js "secret-*") (js "secret-\n1") = false
      ∧ evaluatePolicyAccess denySecrets ⟨js "did:prom:guest", js "invoke", js "secret-\n1"⟩
          = ⟨true, "subject on allowlist"⟩ := by
  have hlead : ∀ u ∈ js "secret-", u ≠ star := by
    intro u hu
    have hnone : ((js "secret-").all fun u => u != star) = true := by decide
    simpa using List.all_eq_true.mp hnone u hu
  refine ⟨⟨js "\n1", by decide⟩, ?_, by decide, by decide⟩
  have hfits : IsGlob (js "secret-" ++ [star]) (js "secret-" ++ js "\n1") :=
    (fits_append_iff hlead).mpr (isGlob_star _)
  exact hfits

end A2aAgentLayer.Policies.Wildcards
