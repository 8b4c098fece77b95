import A2aAgentLayer.Common.HtmlEntities

/-!
# Sanitized text

The passes of `stripHtml` run once each.  A later pass can make what an earlier one has taken out:
entities are read when the tags are gone, and a deletion puts together what stood on its two sides.

`Settles` says of a string, before it is sanitized, that this does not happen.  What comes out of
such a string is clean, and it is the same when it is sanitized again; what comes out of any other
string has something left in it.
-/

namespace A2aAgentLayer.Common.SanitizedText

open A2aAgentLayer.Lib.Utf16 A2aAgentLayer.Lib.JsText A2aAgentLayer.Lib.TextReplace
open A2aAgentLayer.Lib.TextPieces A2aAgentLayer.Lib.JsonTree A2aAgentLayer.Lib.JsObject
open A2aAgentLayer.Lib.JsonRewrite A2aAgentLayer.Common.FieldValidators
open A2aAgentLayer.Common.SanitizePipe A2aAgentLayer.Common.HtmlEntities

/-! ### Strings -/

/-- One of the three entities. -/
def IsEntity (m : JsString) : Prop := m ∈ [js "&lt;", js "&gt;", js "&amp;"]

/-- No tag, no `javascript:` and no inline event handler. -/
def NoMarkup (s : JsString) : Prop := ∀ m, IsTag m ∨ IsScheme m ∨ IsHandler m → ¬ m <:+: s

/-- The text outside the tags, with its entities read. -/
def readText (s : JsString) : JsString := readEntities (outside tag s)

/-- Nothing is made while the string is sanitized.

Outside the tags no `<` or `&lt;` stands before a `>` or `&gt;`, and no `&amp;` in front of the rest
of an entity.  In the text that is read then, no entity and no `javascript:` goes across the place
of a `javascript:`; and without these, no entity, `javascript:` or handler goes across the place of
a handler. -/
structure Settles (s : JsString) : Prop where
  noBrackets : ∀ left ∈ [js "<", js "&lt;"], ∀ right ∈ [js ">", js "&gt;"],
    ∀ a b c, outside tag s ≠ a ++ (left ++ (b ++ (right ++ c)))
  noAmp : ∀ rest ∈ [js "lt;", js "gt;", js "amp;"], ¬ js "&amp;" ++ rest <:+: outside tag s
  noneAcrossScheme : ∀ m, IsEntity m ∨ IsScheme m → ¬ Across m (pieces scheme (readText s))
  noneAcrossHandler : ∀ m, IsEntity m ∨ IsScheme m ∨ IsHandler m →
    ¬ Across m (pieces handler (outside scheme (readText s)))

/-! ### The passes -/

theorem stripHtml_eq (s : JsString) :
    stripHtml s = outside handler (outside scheme (readText s)) := by
  show replaceAll handler (replaceAll scheme (replaceEach [ltPass, gtPass, ampPass]
    (replaceAll tag s))) = _
  rw [replaceEach_entities, replaceAll_eq_outside matchesAre_tag rfl,
    replaceAll_eq_outside matchesAre_scheme rfl, replaceAll_eq_outside matchesAre_handler rfl]
  rfl

/-! ### The units of matching texts -/

theorem eq_of_lower_eq {u v : CodeUnit} (h : lower u = v) (hv : isLower v = false) : u = v := by
  by_cases hu : isUpper u = true
  · have hnat := toNat_lower u
    have hrange := isUpper_iff.mp hu
    rw [h, if_pos hu] at hnat
    have hlow : isLower v = true := isLower_iff.mpr (by omega)
    rw [hlow] at hv
    cases hv
  · rw [← h, lower_eq_self_iff.mpr (Bool.eq_false_iff.mpr hu)]

theorem isSpace_of_lower {u : CodeUnit} (h : isLower (lower u) = true) : isSpace u = false := by
  have hrange := isLower_iff.mp h
  rw [toNat_lower] at hrange
  split_ifs at hrange with hu
  · have hupper := isUpper_iff.mp hu
    exact isSpace_of_visible (by omega) (by omega)
  · exact isSpace_of_visible (by omega) (by omega)

theorem isWord_of_lower {u : CodeUnit} (h : isLower (lower u) = true) : isWord u = true := by
  by_cases hu : isUpper u = true
  · rw [isWord, hu, Bool.or_true, Bool.true_or, Bool.true_or]
  · rw [lower_eq_self_iff.mpr (Bool.eq_false_iff.mpr hu)] at h
    rw [isWord, h, Bool.true_or, Bool.true_or, Bool.true_or]

theorem scheme_avoids {c : CodeUnit} (hc : lower c ∉ js "javascript:") {m : JsString}
    (h : IsScheme m) : c ∉ m := by
  intro hmem
  refine hc ?_
  rw [← h]
  exact List.mem_map_of_mem hmem

theorem handler_avoids {c : CodeUnit} (hword : isWord c = false) (hspace : isSpace c = false)
    (hequals : c ≠ unit '=') {m : JsString} (h : IsHandler m) : c ∉ m := by
  obtain ⟨o, n, word, spaces, rfl, ho, hn, -, hw, hs⟩ := h
  have hletter : ∀ u, isLower (lower u) = true → c ≠ u := by
    rintro u hu rfl
    rw [isWord_of_lower hu] at hword
    cases hword
  simp only [List.mem_cons, List.mem_append, List.not_mem_nil, or_false, not_or]
  refine ⟨hletter o (by rw [ho]; decide), hletter n (by rw [hn]; decide), fun hmem => ?_,
    fun hmem => ?_, hequals⟩
  · rw [hw c hmem] at hword
    cases hword
  · rw [hs c hmem] at hspace
    cases hspace

theorem getLast?_scheme {m : JsString} (h : IsScheme m) : m.getLast? = some (unit ':') := by
  have hlast := congrArg List.getLast? h
  rw [List.getLast?_map] at hlast
  have hcolon : (js "javascript:").getLast? = some (unit ':') := by decide
  obtain ⟨u, hu, hlower⟩ := Option.map_eq_some_iff.mp (hlast.trans hcolon)
  rw [hu, eq_of_lower_eq hlower (by decide)]

theorem getLast?_handler {m : JsString} (h : IsHandler m) : m.getLast? = some (unit '=') := by
  obtain ⟨o, n, word, spaces, rfl, -⟩ := h
  have hsplit : o :: n :: (word ++ (spaces ++ [unit '=']))
      = (o :: n :: (word ++ spaces)) ++ [unit '='] := by simp
  rw [hsplit, List.getLast?_concat]

/-- No text that a pass looks for is empty or has white space at an end. -/
theorem trimmed_of_ends {m : JsString} {u v : CodeUnit} (hu : m.head? = some u)
    (hv : m.getLast? = some v) (hspace : isSpace u = false) (hspace' : isSpace v = false) :
    m ≠ [] ∧ Trimmed m := by
  refine ⟨fun h => ?_, fun h => ?_, fun h => ?_⟩
  · rw [h] at hu
    cases hu
  · rw [List.head?_eq_some_head h, Option.some.injEq] at hu
    rw [hu, hspace]
  · rw [List.getLast?_eq_some_getLast h, Option.some.injEq] at hv
    rw [hv, hspace']

theorem trimmed_tag {m : JsString} (h : IsTag m) : m ≠ [] ∧ Trimmed m := by
  obtain ⟨b, -, rfl⟩ := h
  refine trimmed_of_ends (u := unit '<') (v := unit '>') rfl ?_ (by decide) (by decide)
  rw [← List.cons_append, List.getLast?_concat]

theorem trimmed_entity {m : JsString} (h : IsEntity m) : m ≠ [] ∧ Trimmed m := by
  have hends : ∀ m ∈ [js "&lt;", js "&gt;", js "&amp;"],
      m.head? = some (unit '&') ∧ m.getLast? = some (unit ';') := by decide
  obtain ⟨hhead, hlast⟩ := hends m h
  exact trimmed_of_ends hhead hlast (by decide) (by decide)

theorem trimmed_scheme {m : JsString} (h : IsScheme m) : m ≠ [] ∧ Trimmed m := by
  have hhead := congrArg List.head? h
  rw [List.head?_map] at hhead
  have hletter : (js "javascript:").head? = some (unit 'j') := by decide
  obtain ⟨u, hu, hlower⟩ := Option.map_eq_some_iff.mp (hhead.trans hletter)
  exact trimmed_of_ends hu (getLast?_scheme h) (isSpace_of_lower (by rw [hlower]; decide))
    (by decide)

theorem trimmed_handler {m : JsString} (h : IsHandler m) : m ≠ [] ∧ Trimmed m := by
  have hlast := getLast?_handler h
  obtain ⟨o, n, word, spaces, rfl, ho, -⟩ := h
  exact trimmed_of_ends rfl hlast (isSpace_of_lower (by rw [ho]; decide)) (by decide)

/-! ### What the deletions keep -/

theorem entity_split {m : JsString} (h : IsEntity m) :
    ∃ x, m = x ++ [unit ';'] ∧ unit ':' ∉ x ∧ unit '=' ∉ x := by
  have hsplit : ∀ m ∈ [js "&lt;", js "&gt;", js "&amp;"], m = m.dropLast ++ [unit ';']
      ∧ unit ':' ∉ m.dropLast ∧ unit '=' ∉ m.dropLast := by decide
  exact ⟨m.dropLast, hsplit m h⟩

theorem entity_outside_scheme {m s : JsString} (h : IsEntity m) (hinside : m <:+: s) :
    m <:+: outside scheme s := by
  obtain ⟨x, rfl, hx, -⟩ := entity_split h
  rw [← replaceAll_eq_outside matchesAre_scheme rfl]
  exact infix_replaceAll matchesAre_scheme (fun m hm => getLast?_scheme hm) hx
    (fun m hm => scheme_avoids (by decide) hm) hinside

theorem outside_handler {m s : JsString} (h : IsEntity m ∨ IsScheme m) (hinside : m <:+: s) :
    m <:+: outside handler s := by
  rw [← replaceAll_eq_outside matchesAre_handler rfl]
  have hlast : ∀ m, IsHandler m → m.getLast? = some (unit '=') := fun m hm => getLast?_handler hm
  rcases h with h | h
  · obtain ⟨x, rfl, -, hx⟩ := entity_split h
    exact infix_replaceAll matchesAre_handler hlast hx
      (fun m hm => handler_avoids (by decide) (by decide) (by decide) hm) hinside
  · have hsplit := List.dropLast_append_getLast? _ (getLast?_scheme h)
    have hopen : unit '=' ∉ m.dropLast := fun hmem =>
      scheme_avoids (by decide) h (List.mem_of_mem_dropLast hmem)
    rw [← hsplit] at hinside ⊢
    exact infix_replaceAll matchesAre_handler hlast hopen
      (fun m hm => handler_avoids (by decide) (by decide) (by decide) hm) hinside

/-- A `<` in front of a `>`, as a part of the text that need not be in one piece. -/
theorem unmatched_tag_iff_sublist {s : JsString} :
    Unmatched tag s ↔ ¬ [unit '<', unit '>'].Sublist s := by
  rw [unmatched_tag_iff]
  constructor
  · intro h hsub
    obtain ⟨x, y, rfl, hx, hy⟩ := List.cons_sublist_iff.mp hsub
    obtain ⟨a, b, rfl⟩ := List.append_of_mem hx
    obtain ⟨b', c, rfl⟩ := List.append_of_mem (List.singleton_sublist.mp hy)
    exact h a (b ++ b') c (by simp)
  · rintro h a b c rfl
    refine h (List.Sublist.trans ?_ (List.sublist_append_right a _))
    exact (List.singleton_sublist.mpr (List.mem_append_right b (List.mem_cons_self ..))).cons_cons _

/-- Tags neither come nor go with deletions that have no bracket. -/
theorem unmatched_tag_outside {r : Replacement CodeUnit} {P : JsString → Prop}
    (h : MatchesAre r P) (hvalue : r.value = [])
    (hP : ∀ m, P m → unit '<' ∉ m ∧ unit '>' ∉ m) {s : JsString} :
    Unmatched tag (outside r s) ↔ Unmatched tag s := by
  let bracket : CodeUnit → Bool := fun u => u == unit '<' || u == unit '>'
  have hself : [unit '<', unit '>'].filter bracket = [unit '<', unit '>'] := rfl
  have hbrackets : ∀ t : JsString, [unit '<', unit '>'].Sublist t ↔
      [unit '<', unit '>'].Sublist (t.filter bracket) := fun t =>
    ⟨fun hsub => hself ▸ hsub.filter bracket, fun hsub => hsub.trans List.filter_sublist⟩
  have hnone : ∀ t n, r.matchAt t = some n → (t.take n).filter bracket = [] := by
    intro t n hmatch
    obtain ⟨hlt, hgt⟩ := hP _ ((h t n).mp hmatch).2
    refine List.filter_eq_nil_iff.mpr fun u hu hbracket => ?_
    simp only [bracket, Bool.or_eq_true, beq_iff_eq] at hbracket
    rcases hbracket with rfl | rfl
    · exact hlt hu
    · exact hgt hu
  rw [unmatched_tag_iff_sublist, unmatched_tag_iff_sublist, hbrackets (outside r s), hbrackets s,
    ← replaceAll_eq_outside h hvalue, filter_replaceAll bracket (by rw [hvalue]; rfl) hnone]

/-! ### When a string settles -/

/-- What none of the passes finds anything in. -/
theorem clean_iff {s : JsString} : Clean s ↔ Trimmed s ∧ Unmatched tag s ∧
    ∀ m, (IsEntity m ∨ IsScheme m) ∨ IsHandler m → ¬ m <:+: s := by
  constructor
  · intro h
    refine ⟨h.trimmed, unmatched_tag_iff.mpr h.noTag, ?_⟩
    rintro m ((hm | hm) | hm)
    · exact h.noEntity m hm
    · exact matchesAre_scheme.unmatched_iff.mp (unmatched_scheme_iff.mpr h.noScheme) m hm
    · exact matchesAre_handler.unmatched_iff.mp (unmatched_handler_iff.mpr h.noHandler) m hm
  · rintro ⟨htrimmed, htag, h⟩
    exact
      { trimmed := htrimmed
        noTag := unmatched_tag_iff.mp htag
        noEntity := fun m hm => h m (.inl (.inl hm))
        noScheme := unmatched_scheme_iff.mp
          (matchesAre_scheme.unmatched_iff.mpr fun m hm => h m (.inl (.inr hm)))
        noHandler := unmatched_handler_iff.mp
          (matchesAre_handler.unmatched_iff.mpr fun m hm => h m (.inr hm)) }

/-- Trimming neither makes nor takes out what the passes look for. -/
theorem clean_trim_iff {s : JsString} : Clean (trim s) ↔ Unmatched tag s ∧
    ∀ m, (IsEntity m ∨ IsScheme m) ∨ IsHandler m → ¬ m <:+: s := by
  have hmarks : ∀ m, (IsEntity m ∨ IsScheme m) ∨ IsHandler m → (m <:+: trim s ↔ m <:+: s) := by
    rintro m ((hm | hm) | hm)
    · exact infix_trim_iff (trimmed_entity hm).1 (trimmed_entity hm).2
    · exact infix_trim_iff (trimmed_scheme hm).1 (trimmed_scheme hm).2
    · exact infix_trim_iff (trimmed_handler hm).1 (trimmed_handler hm).2
  have htags : Unmatched tag (trim s) ↔ Unmatched tag s := by
    rw [matchesAre_tag.unmatched_iff, matchesAre_tag.unmatched_iff]
    exact forall₂_congr fun m hm =>
      not_congr (infix_trim_iff (trimmed_tag hm).1 (trimmed_tag hm).2)
  rw [clean_iff, and_iff_right (trimmed_trim s), htags]
  exact and_congr_right' (forall₂_congr fun m hm => not_congr (hmarks m hm))

theorem unmatched_tag_readText {s : JsString} : Unmatched tag (readText s) ↔
    ∀ left ∈ [js "<", js "&lt;"], ∀ right ∈ [js ">", js "&gt;"],
      ∀ a b c, outside tag s ≠ a ++ (left ++ (b ++ (right ++ c))) := by
  have hread := not_congr (tag_readEntities_iff (s := outside tag s))
  push Not at hread
  rw [unmatched_tag_iff]
  exact hread

theorem no_entity_readText {s : JsString} : (∀ m, IsEntity m → ¬ m <:+: readText s) ↔
    ∀ rest ∈ [js "lt;", js "gt;", js "amp;"], ¬ js "&amp;" ++ rest <:+: outside tag s := by
  have hlt : js "&lt;" <:+: readText s ↔ js "&amp;" ++ js "lt;" <:+: outside tag s :=
    infix_readEntities_iff (by decide : (js "&lt;", unit '<') ∈ entities) rfl
  have hgt : js "&gt;" <:+: readText s ↔ js "&amp;" ++ js "gt;" <:+: outside tag s :=
    infix_readEntities_iff (by decide : (js "&gt;", unit '>') ∈ entities) rfl
  have hamp : js "&amp;" <:+: readText s ↔ js "&amp;" ++ js "amp;" <:+: outside tag s :=
    infix_readEntities_iff (by decide : (js "&amp;", unit '&') ∈ entities) rfl
  simp only [IsEntity, List.forall_mem_cons, List.not_mem_nil, false_imp_iff, implies_true,
    and_true, hlt, hgt, hamp]

/-- **A string is clean once it is sanitized exactly when it settles.** -/
theorem clean_sanitizeString_iff {s : JsString} : Clean (sanitizeString s) ↔ Settles s := by
  have hscheme := outside_lacks_iff (s := readText s) matchesAre_scheme
    (fun m hm => hm.elim (fun h => (trimmed_entity h).1) fun h => (trimmed_scheme h).1)
    fun m hm => entity_outside_scheme hm
  have hhandler := outside_lacks_iff (s := outside scheme (readText s)) matchesAre_handler
    (fun m hm => hm.elim (fun h => h.elim (fun h => (trimmed_entity h).1)
      fun h => (trimmed_scheme h).1) fun h => (trimmed_handler h).1)
    fun m hm => outside_handler hm
  have hnoBracket : ∀ m, IsScheme m → unit '<' ∉ m ∧ unit '>' ∉ m := fun m hm =>
    ⟨scheme_avoids (by decide) hm, scheme_avoids (by decide) hm⟩
  have hnoBracket' : ∀ m, IsHandler m → unit '<' ∉ m ∧ unit '>' ∉ m := fun m hm =>
    ⟨handler_avoids (by decide) (by decide) (by decide) hm,
      handler_avoids (by decide) (by decide) (by decide) hm⟩
  rw [sanitizeString, clean_trim_iff, stripHtml_eq, hhandler, hscheme,
    unmatched_tag_outside matchesAre_handler rfl hnoBracket',
    unmatched_tag_outside matchesAre_scheme rfl hnoBracket, unmatched_tag_readText,
    no_entity_readText]
  constructor
  · rintro ⟨hbrackets, ⟨hamp, hacross⟩, hacross'⟩
    exact ⟨hbrackets, hamp, hacross, fun m hm => hacross' m (or_assoc.mpr hm)⟩
  · intro h
    exact ⟨h.noBrackets, ⟨h.noAmp, h.noneAcrossScheme⟩,
      fun m hm => h.noneAcrossHandler m (or_assoc.mp hm)⟩

/-- What the claim of the pipe asks of a sanitized string is that it is clean. -/
theorem noMarkup_and_stable_iff {s : JsString} :
    NoMarkup s ∧ sanitizeString s = s ↔ Clean s := by
  rw [sanitizeString_eq_self_iff, and_iff_right_iff_imp]
  intro h
  obtain ⟨-, htag, hmarks⟩ := clean_iff.mp h
  rintro m (hm | hm | hm)
  · exact matchesAre_tag.unmatched_iff.mp htag m hm
  · exact hmarks m (.inl (.inr hm))
  · exact hmarks m (.inr hm)

end A2aAgentLayer.Common.SanitizedText
