import A2aAgentLayer.Common.SanitizePipe

/-!
# Reading entities

The sanitizing pipe undoes `&lt;`, `&gt;` and `&amp;` in three passes.  Because `&amp;` comes last,
the passes together read the text once from the left (`replaceEach_entities`): what an entity stands
for is not read again.

So an entity is left where `&amp;` stood in front of the rest of one, and a `<` or `>` in the result
was one before, or an entity for one.
-/

namespace A2aAgentLayer.Common.HtmlEntities

open A2aAgentLayer.Lib.Utf16 A2aAgentLayer.Lib.TextReplace A2aAgentLayer.Lib.TextPieces
open A2aAgentLayer.Common.SanitizePipe

/-- The entities and what they stand for. -/
def entities : List (JsString × CodeUnit) :=
  [(js "&lt;", unit '<'), (js "&gt;", unit '>'), (js "&amp;", unit '&')]

/-- The entity at the front of a text. -/
def entityAt (s : JsString) : Option (JsString × CodeUnit) :=
  entities.find? fun e => e.1.isPrefixOf s

/-- The text from a place on, where the first `skip` units still belong to an entity. -/
def readFrom : ℕ → JsString → JsString
  | _, [] => []
  | skip + 1, _ :: s => readFrom skip s
  | 0, u :: s =>
      match entityAt (u :: s) with
      | none => u :: readFrom 0 s
      | some e => e.2 :: readFrom (e.1.length - 1) s

/-- The text with each entity read once. -/
def readEntities (s : JsString) : JsString := readFrom 0 s

example : readEntities (js "1 &lt; 2 &amp;amp; &amp;lt;") = js "1 < 2 &amp; &lt;" := by decide

/-! ### One entity at a time -/

theorem entityAt_eq_none {s : JsString} : entityAt s = none ↔ ∀ e ∈ entities, ¬ e.1 <+: s := by
  simp only [entityAt, List.find?_eq_none, List.isPrefixOf_iff_prefix]

theorem readEntities_unit {u : CodeUnit} {s : JsString} (h : ∀ e ∈ entities, ¬ e.1 <+: u :: s) :
    readEntities (u :: s) = u :: readEntities s := by
  rw [readEntities, readFrom, entityAt_eq_none.mpr h]
  rfl

theorem readEntities_entity {e : JsString × CodeUnit} (he : e ∈ entities) (s : JsString) :
    readEntities (e.1 ++ s) = e.2 :: readEntities s := by
  simp only [entities, List.mem_cons, List.not_mem_nil, or_false] at he
  rcases he with rfl | rfl | rfl
  · rfl
  · rfl
  · rfl

/-- Induction along the reading: over a unit at which no entity begins, or over an entity. -/
theorem reading_induction {motive : JsString → Prop} (nil : motive [])
    (unit : ∀ u s, (∀ e ∈ entities, ¬ e.1 <+: u :: s) → motive s → motive (u :: s))
    (entity : ∀ e ∈ entities, ∀ s, motive s → motive (e.1 ++ s)) (s : JsString) : motive s := by
  have hpos : ∀ e ∈ entities, 0 < e.1.length := by decide
  induction hlen : s.length using Nat.strong_induction_on generalizing s with
  | _ k ih =>
      by_cases hentity : ∃ e ∈ entities, e.1 <+: s
      · obtain ⟨e, he, t, rfl⟩ := hentity
        rw [List.length_append] at hlen
        have hshort := hpos e he
        exact entity e he t (ih t.length (by omega) t rfl)
      · cases s with
        | nil => exact nil
        | cons u s =>
            rw [List.length_cons] at hlen
            exact unit u s (fun e he h => hentity ⟨e, he, h⟩) (ih s.length (by omega) s rfl)

theorem entity_shape {e : JsString × CodeUnit} (he : e ∈ entities) :
    ∃ rest, e.1 = unit '&' :: rest ∧ ∀ c ∈ [unit '<', unit '>', unit '&'], c ∉ rest := by
  have hfree : ∀ rest ∈ [js "lt;", js "gt;", js "amp;"],
      unit '<' ∉ rest ∧ unit '>' ∉ rest ∧ unit '&' ∉ rest := by decide
  simp only [List.forall_mem_cons, List.not_mem_nil, false_imp_iff, implies_true, and_true]
    at hfree ⊢
  simp only [entities, List.mem_cons, List.not_mem_nil, or_false] at he
  rcases he with rfl | rfl | rfl
  · exact ⟨js "lt;", rfl, hfree.1⟩
  · exact ⟨js "gt;", rfl, hfree.2.1⟩
  · exact ⟨js "amp;", rfl, hfree.2.2⟩

/-- A unit other than `&` is read as itself. -/
theorem readEntities_plain {u : CodeUnit} (hu : u ≠ unit '&') (s : JsString) :
    readEntities (u :: s) = u :: readEntities s := by
  refine readEntities_unit fun e he h => ?_
  obtain ⟨rest, hrest, -⟩ := entity_shape he
  rw [hrest, List.cons_prefix_cons] at h
  exact hu h.1.symm

/-! ### Three passes are one reading -/

section Passes

variable {text value rest : JsString} {hlt : value.length < text.length}

theorem literal_none_iff {s : JsString} :
    (literal text value hlt).matchAt s = none ↔ ¬ text <+: s := by
  show literalAt text s = none ↔ _
  rw [literalAt]
  by_cases htake : s.take text.length = text
  · rw [if_pos htake]
    exact iff_of_false nofun (not_not_intro (List.prefix_iff_eq_take.mpr htake.symm))
  · rw [if_neg htake]
    exact iff_of_true rfl fun h => htake (List.prefix_iff_eq_take.mp h).symm

theorem replaceAll_literal_self (s : JsString) :
    replaceAll (literal text value hlt) (text ++ s)
      = value ++ replaceAll (literal text value hlt) s := by
  rw [replaceAll_of_match ((matchesAre_literal hlt).matchAt_text rfl s), List.drop_left]
  rfl

/-- A pass goes over a text without `&`. -/
theorem replaceAll_literal_append (htext : text = unit '&' :: rest) {x : JsString}
    (hx : unit '&' ∉ x) (s : JsString) :
    replaceAll (literal text value hlt) (x ++ s) = x ++ replaceAll (literal text value hlt) s := by
  induction x with
  | nil => rfl
  | cons u x ih =>
      rw [List.mem_cons, not_or] at hx
      have hnone : (literal text value hlt).matchAt (u :: (x ++ s)) = none := by
        rw [literal_none_iff, htext, List.cons_prefix_cons]
        exact fun h => hx.1 h.1
      rw [List.cons_append, replaceAll_of_none hnone, ih hx.2, List.cons_append]

/-- A pass goes over another entity. -/
theorem replaceAll_literal_other (htext : text = unit '&' :: rest) {x : JsString}
    (hx : unit '&' ∉ x) (hlen : text.length ≤ x.length + 1)
    (hother : text ≠ (unit '&' :: x).take text.length) (s : JsString) :
    replaceAll (literal text value hlt) (unit '&' :: x ++ s)
      = unit '&' :: x ++ replaceAll (literal text value hlt) s := by
  have hnone : (literal text value hlt).matchAt (unit '&' :: (x ++ s)) = none := by
    rw [literal_none_iff, List.prefix_iff_eq_take, ← List.cons_append,
      List.take_append_of_le_length (by exact hlen)]
    exact hother
  rw [List.cons_append, replaceAll_of_none hnone, replaceAll_literal_append htext hx,
    List.cons_append]

/-- A pass makes no entity that was not there. -/
theorem replaceAll_literal_unit (htext : text = unit '&' :: rest) {u : CodeUnit} {s t : JsString}
    (hnone : ¬ text <+: u :: s) (hrest : rest <+: t → rest <+: s) :
    replaceAll (literal text value hlt) (u :: t)
      = u :: replaceAll (literal text value hlt) t := by
  refine replaceAll_of_none (literal_none_iff.mpr fun h => hnone ?_)
  rw [htext, List.cons_prefix_cons] at h ⊢
  exact ⟨h.1, hrest h.2⟩

end Passes

theorem lt_shorter : (js "<").length < (js "&lt;").length := by decide

theorem gt_shorter : (js ">").length < (js "&gt;").length := by decide

theorem amp_shorter : (js "&").length < (js "&amp;").length := by decide

/-- `.replace(/&lt;/g, '<')`. -/
def ltPass : Replacement CodeUnit := literal (js "&lt;") (js "<") lt_shorter

/-- `.replace(/&gt;/g, '>')`. -/
def gtPass : Replacement CodeUnit := literal (js "&gt;") (js ">") gt_shorter

/-- `.replace(/&amp;/g, '&')`. -/
def ampPass : Replacement CodeUnit := literal (js "&amp;") (js "&") amp_shorter

theorem passes_unit {u : CodeUnit} {s : JsString} (hnone : ∀ e ∈ entities, ¬ e.1 <+: u :: s) :
    replaceEach [ltPass, gtPass, ampPass] (u :: s)
      = u :: replaceEach [ltPass, gtPass, ampPass] s := by
  show replaceAll ampPass (replaceAll gtPass (replaceAll ltPass (u :: s)))
    = u :: replaceAll ampPass (replaceAll gtPass (replaceAll ltPass s))
  simp only [entities, List.forall_mem_cons, List.not_mem_nil, false_imp_iff, implies_true,
    and_true] at hnone
  -- the rest of an entity holds no bracket, so an earlier pass has not made it
  have hlt : ∀ m, unit '<' ∉ m → m <+: replaceAll ltPass s → m <+: s := fun _ hm =>
    prefix_of_prefix_replaceAll rfl hm
  have hgt : ∀ m, unit '>' ∉ m → m <+: replaceAll gtPass (replaceAll ltPass s) →
      m <+: replaceAll ltPass s := fun _ hm => prefix_of_prefix_replaceAll rfl hm
  have hltPass : replaceAll ltPass (u :: s) = u :: replaceAll ltPass s :=
    replaceAll_literal_unit (rfl : js "&lt;" = unit '&' :: js "lt;") hnone.1 id
  have hgtPass : replaceAll gtPass (u :: replaceAll ltPass s)
      = u :: replaceAll gtPass (replaceAll ltPass s) :=
    replaceAll_literal_unit (rfl : js "&gt;" = unit '&' :: js "gt;") hnone.2.1
      (hlt _ (by decide))
  have hampPass : replaceAll ampPass (u :: replaceAll gtPass (replaceAll ltPass s))
      = u :: replaceAll ampPass (replaceAll gtPass (replaceAll ltPass s)) :=
    replaceAll_literal_unit (rfl : js "&amp;" = unit '&' :: js "amp;") hnone.2.2
      fun h => hlt _ (by decide) (hgt _ (by decide) h)
  rw [hltPass, hgtPass, hampPass]

theorem passes_entity {e : JsString × CodeUnit} (he : e ∈ entities) (s : JsString) :
    replaceEach [ltPass, gtPass, ampPass] (e.1 ++ s)
      = e.2 :: replaceEach [ltPass, gtPass, ampPass] s := by
  show replaceAll ampPass (replaceAll gtPass (replaceAll ltPass (e.1 ++ s)))
    = e.2 :: replaceAll ampPass (replaceAll gtPass (replaceAll ltPass s))
  have hlt : js "&lt;" = unit '&' :: js "lt;" := rfl
  have hgt : js "&gt;" = unit '&' :: js "gt;" := rfl
  have hamp : js "&amp;" = unit '&' :: js "amp;" := rfl
  simp only [entities, List.mem_cons, List.not_mem_nil, or_false] at he
  rcases he with rfl | rfl | rfl
  · have hltPass : replaceAll ltPass (js "&lt;" ++ s) = js "<" ++ replaceAll ltPass s :=
      replaceAll_literal_self s
    have hgtPass (t) : replaceAll gtPass (js "<" ++ t) = js "<" ++ replaceAll gtPass t :=
      replaceAll_literal_append hgt (by decide) t
    have hampPass (t) : replaceAll ampPass (js "<" ++ t) = js "<" ++ replaceAll ampPass t :=
      replaceAll_literal_append hamp (by decide) t
    rw [hltPass, hgtPass, hampPass]
    rfl
  · have hltPass : replaceAll ltPass (js "&gt;" ++ s) = js "&gt;" ++ replaceAll ltPass s := by
      rw [hgt]
      exact replaceAll_literal_other hlt (by decide) (by decide) (by decide) s
    have hgtPass (t) : replaceAll gtPass (js "&gt;" ++ t) = js ">" ++ replaceAll gtPass t :=
      replaceAll_literal_self t
    have hampPass (t) : replaceAll ampPass (js ">" ++ t) = js ">" ++ replaceAll ampPass t :=
      replaceAll_literal_append hamp (by decide) t
    rw [hltPass, hgtPass, hampPass]
    rfl
  · have hltPass : replaceAll ltPass (js "&amp;" ++ s) = js "&amp;" ++ replaceAll ltPass s := by
      rw [hamp]
      exact replaceAll_literal_other hlt (by decide) (by decide) (by decide) s
    have hgtPass (t) : replaceAll gtPass (js "&amp;" ++ t)
        = js "&amp;" ++ replaceAll gtPass t := by
      rw [hamp]
      exact replaceAll_literal_other hgt (by decide) (by decide) (by decide) t
    have hampPass (t) : replaceAll ampPass (js "&amp;" ++ t) = js "&" ++ replaceAll ampPass t :=
      replaceAll_literal_self t
    rw [hltPass, hgtPass, hampPass]
    rfl

/-- **The three passes read every entity once.** -/
theorem replaceEach_entities (s : JsString) :
    replaceEach [ltPass, gtPass, ampPass] s = readEntities s := by
  induction s using reading_induction with
  | nil => rfl
  | unit u s hnone ih => rw [passes_unit hnone, ih, readEntities_unit hnone]
  | entity e he s ih => rw [passes_entity he, ih, readEntities_entity he]

/-! ### What the reading makes -/

theorem readEntities_append_plain {x : JsString} (hx : unit '&' ∉ x) (s : JsString) :
    readEntities (x ++ s) = x ++ readEntities s := by
  induction x with
  | nil => rfl
  | cons u x ih =>
      rw [List.mem_cons, not_or] at hx
      rw [List.cons_append, readEntities_plain (Ne.symm hx.1), ih hx.2, List.cons_append]

/-- A text falls apart in front of a bracket or `&`. -/
theorem readEntities_append {c : CodeUnit} (hc : c ∈ [unit '<', unit '>', unit '&'])
    (a b : JsString) : readEntities (a ++ c :: b) = readEntities a ++ readEntities (c :: b) := by
  induction a using reading_induction with
  | nil => rfl
  | unit u a hnone ih =>
      have hnone' : ∀ e ∈ entities, ¬ e.1 <+: u :: (a ++ c :: b) := by
        intro e he h
        obtain ⟨rest, hrest, hfree⟩ := entity_shape he
        rcases List.prefix_or_prefix_of_prefix h (List.prefix_append (u :: a) (c :: b)) with
          hshort | ⟨d, hd⟩
        · exact hnone e he hshort
        · -- the entity would go on with `c`
          rw [← hd, ← List.cons_append, List.prefix_append_right_inj] at h
          cases d with
          | nil => exact hnone e he (by rw [← hd, List.append_nil])
          | cons x d =>
              obtain ⟨rfl, -⟩ := List.cons_prefix_cons.mp h
              rw [hrest, List.cons_append, List.cons.injEq] at hd
              refine hfree x hc ?_
              rw [← hd.2]
              exact List.mem_append_right a (List.mem_cons_self ..)
      rw [List.cons_append, readEntities_unit hnone', readEntities_unit hnone, ih,
        List.cons_append]
  | entity e he a ih =>
      rw [List.append_assoc, readEntities_entity he, readEntities_entity he, ih, List.cons_append]

/-- A text read at some place: a bracket, or an entity. -/
theorem readEntities_append_read {left : JsString} {c : CodeUnit}
    (h : left = [c] ∧ c ∈ [unit '<', unit '>'] ∨ (left, c) ∈ entities) (a b : JsString) :
    readEntities (a ++ (left ++ b)) = readEntities a ++ c :: readEntities b := by
  rcases h with ⟨rfl, hc⟩ | he
  · have hmem : c ∈ [unit '<', unit '>', unit '&'] := by
      simp only [List.mem_cons, List.not_mem_nil, or_false] at hc ⊢
      tauto
    have hplain : c ≠ unit '&' := by
      rintro rfl
      exact absurd hc (by decide)
    rw [List.singleton_append, readEntities_append hmem, readEntities_plain hplain]
  · have hread := readEntities_entity he b
    obtain ⟨rest, hrest, -⟩ := entity_shape he
    simp only at hread hrest
    rw [← hread, hrest, List.cons_append, readEntities_append (by decide)]

/-- Where a unit of the result comes from. -/
theorem readEntities_eq_append {s x y : JsString} {c : CodeUnit}
    (h : readEntities s = x ++ c :: y) :
    ∃ a left b, s = a ++ (left ++ b) ∧ readEntities b = y
      ∧ ((left = [c] ∧ ∀ e ∈ entities, ¬ e.1 <+: c :: b) ∨ (left, c) ∈ entities) := by
  induction s using reading_induction generalizing x with
  | nil => exact absurd h.symm (List.append_ne_nil_of_right_ne_nil _ (List.cons_ne_nil c y))
  | unit u s hnone ih =>
      rw [readEntities_unit hnone] at h
      cases x with
      | nil =>
          obtain ⟨rfl, hy⟩ := List.cons.inj h
          exact ⟨[], [u], s, rfl, hy, .inl ⟨rfl, hnone⟩⟩
      | cons v x =>
          obtain ⟨rfl, hy⟩ := List.cons.inj h
          obtain ⟨a, left, b, rfl, hb⟩ := ih hy
          exact ⟨u :: a, left, b, rfl, hb⟩
  | entity e he s ih =>
      rw [readEntities_entity he] at h
      cases x with
      | nil =>
          obtain ⟨rfl, hy⟩ := List.cons.inj h
          exact ⟨[], e.1, s, rfl, hy, .inr he⟩
      | cons v x =>
          obtain ⟨rfl, hy⟩ := List.cons.inj h
          obtain ⟨a, left, b, rfl, hb⟩ := ih hy
          exact ⟨e.1 ++ a, left, b, by rw [List.append_assoc], hb⟩

theorem prefix_of_prefix_readEntities {m : JsString}
    (hm : ∀ c ∈ [unit '<', unit '>', unit '&'], c ∉ m) {s : JsString}
    (h : m <+: readEntities s) : m <+: s := by
  induction m generalizing s with
  | nil => exact List.nil_prefix
  | cons c m ih =>
      have hm' : ∀ x ∈ [unit '<', unit '>', unit '&'], x ∉ m := fun x hx hmem =>
        hm x hx (List.mem_cons_of_mem c hmem)
      induction s using reading_induction with
      | nil => exact h
      | unit u s hnone _ =>
          rw [readEntities_unit hnone, List.cons_prefix_cons] at h
          exact List.cons_prefix_cons.mpr ⟨h.1, ih hm' h.2⟩
      | entity e he s _ =>
          have hread : ∀ e ∈ entities, e.2 ∈ [unit '<', unit '>', unit '&'] := by decide
          rw [readEntities_entity he, List.cons_prefix_cons] at h
          exact absurd (h.1 ▸ List.mem_cons_self ..) (hm _ (hread e he))

/-- **An entity is left exactly where `&amp;` stands in front of the rest of one.** -/
theorem infix_readEntities_iff {e : JsString × CodeUnit} (he : e ∈ entities) {rest : JsString}
    (hrest : e.1 = unit '&' :: rest) {s : JsString} :
    e.1 <:+: readEntities s ↔ js "&amp;" ++ rest <:+: s := by
  have hfree : ∀ c ∈ [unit '<', unit '>', unit '&'], c ∉ rest := by
    obtain ⟨rest', hrest', hfree⟩ := entity_shape he
    rw [hrest, List.cons.injEq] at hrest'
    rw [hrest'.2]
    exact hfree
  have hamp : (js "&amp;", unit '&') ∈ entities := by decide
  constructor
  · rintro ⟨x, y, h⟩
    rw [hrest, List.append_assoc, List.cons_append] at h
    obtain ⟨a, left, b, rfl, hb, hleft⟩ := readEntities_eq_append h.symm
    have hstart : rest <+: b := prefix_of_prefix_readEntities hfree (hb ▸ List.prefix_append rest y)
    rcases hleft with ⟨rfl, hnone⟩ | hleft
    · refine absurd ?_ (hnone e he)
      rw [hrest, List.cons_prefix_cons]
      exact ⟨rfl, hstart⟩
    · have honly : ∀ e ∈ entities, e.2 = unit '&' → e.1 = js "&amp;" := by decide
      obtain rfl : left = js "&amp;" := honly _ hleft rfl
      obtain ⟨c, rfl⟩ := hstart
      exact ⟨a, c, by simp only [List.append_assoc]⟩
  · rintro ⟨a, c, rfl⟩
    have hsplit : a ++ (js "&amp;" ++ rest) ++ c = a ++ (js "&amp;" ++ (rest ++ c)) := by
      simp only [List.append_assoc]
    rw [hsplit, readEntities_append_read (.inr hamp),
      readEntities_append_plain (hfree _ (by decide)), hrest]
    exact ⟨readEntities a, readEntities c, by simp⟩

/-- **A tag in the result was a tag with brackets or entities for them.** -/
theorem tag_readEntities_iff {s : JsString} :
    (∃ a b c, readEntities s = a ++ unit '<' :: (b ++ unit '>' :: c)) ↔
      ∃ left ∈ [js "<", js "&lt;"], ∃ right ∈ [js ">", js "&gt;"],
        ∃ a b c, s = a ++ (left ++ (b ++ (right ++ c))) := by
  constructor
  · rintro ⟨x, y, z, h⟩
    obtain ⟨a, left, b, rfl, hb, hleft⟩ := readEntities_eq_append h
    obtain ⟨a', right, b', rfl, -, hright⟩ := readEntities_eq_append hb
    have hlt : ∀ e ∈ entities, e.2 = unit '<' → e.1 = js "&lt;" := by decide
    have hgt : ∀ e ∈ entities, e.2 = unit '>' → e.1 = js "&gt;" := by decide
    refine ⟨left, ?_, right, ?_, a, a', b', rfl⟩
    · rcases hleft with ⟨rfl, -⟩ | he
      · exact List.mem_cons_self ..
      · obtain rfl : left = js "&lt;" := hlt _ he rfl
        exact List.mem_cons_of_mem _ (List.mem_singleton_self _)
    · rcases hright with ⟨rfl, -⟩ | he
      · exact List.mem_cons_self ..
      · obtain rfl : right = js "&gt;" := hgt _ he rfl
        exact List.mem_cons_of_mem _ (List.mem_singleton_self _)
  · rintro ⟨left, hleft, right, hright, a, b, c, rfl⟩
    have hleft' : left = [unit '<'] ∧ unit '<' ∈ [unit '<', unit '>']
        ∨ (left, unit '<') ∈ entities := by
      simp only [List.mem_cons, List.not_mem_nil, or_false] at hleft
      rcases hleft with rfl | rfl
      · exact .inl ⟨rfl, by decide⟩
      · exact .inr (by decide)
    have hright' : right = [unit '>'] ∧ unit '>' ∈ [unit '<', unit '>']
        ∨ (right, unit '>') ∈ entities := by
      simp only [List.mem_cons, List.not_mem_nil, or_false] at hright
      rcases hright with rfl | rfl
      · exact .inl ⟨rfl, by decide⟩
      · exact .inr (by decide)
    exact ⟨readEntities a, readEntities b, readEntities c, by
      rw [readEntities_append_read hleft', readEntities_append_read hright']⟩

end A2aAgentLayer.Common.HtmlEntities
