import Mathlib.Data.List.Infix

/-!
# Splitting texts at delimiters

A text put together around a delimiter can be split again when the delimiter cannot occur in front
of it.  When it can, the other ways to split are known: a delimiter whose first symbol does not
return within it never overlaps itself, so it occurs once more inside the left part or inside the
right part.  Texts joined without a delimiter split wherever a piece can change sides.
-/

namespace A2aAgentLayer.Lib.Delimiter

variable {α : Type*}

/-- **Splitting at the first occurrence of a symbol.** -/
theorem append_cons_inj {d : α} {x x' y y' : List α} (hx : d ∉ x) (hx' : d ∉ x')
    (h : x ++ d :: y = x' ++ d :: y') : x = x' ∧ y = y' := by
  induction x generalizing x' with
  | nil =>
      cases x' with
      | nil => exact ⟨rfl, (List.cons.inj h).2⟩
      | cons a x' =>
          obtain ⟨rfl, -⟩ := List.cons.inj h
          exact absurd (List.mem_cons_self ..) hx'
  | cons a x ih =>
      cases x' with
      | nil =>
          obtain ⟨rfl, -⟩ := List.cons.inj h
          exact absurd (List.mem_cons_self ..) hx
      | cons a' x' =>
          obtain ⟨rfl, htail⟩ := List.cons.inj h
          obtain ⟨rfl, rfl⟩ := ih (fun hm => hx (List.mem_cons_of_mem _ hm))
            (fun hm => hx' (List.mem_cons_of_mem _ hm)) htail
          exact ⟨rfl, rfl⟩

/-- The first occurrence of a symbol, by what stands on either side of it. -/
theorem idxOf?_eq_some_iff_append [BEq α] [LawfulBEq α] {d : α} {xs : List α} {i : ℕ} :
    xs.idxOf? d = some i
      ↔ ∃ before after, xs = before ++ d :: after ∧ d ∉ before ∧ before.length = i := by
  induction xs generalizing i with
  | nil => simp
  | cons x xs ih =>
      rw [List.idxOf?_cons]
      by_cases hx : (x == d) = true
      · rw [if_pos hx, Option.some.injEq]
        rw [beq_iff_eq] at hx
        subst hx
        constructor
        · rintro rfl
          exact ⟨[], xs, rfl, List.not_mem_nil, rfl⟩
        · rintro ⟨before, after, hsplit, hnot, rfl⟩
          cases before with
          | nil => rfl
          | cons b before =>
              obtain ⟨rfl, -⟩ := List.cons.inj hsplit
              exact absurd List.mem_cons_self hnot
      · rw [if_neg hx, Option.map_eq_some_iff]
        rw [beq_iff_eq] at hx
        constructor
        · rintro ⟨j, hj, rfl⟩
          obtain ⟨before, after, rfl, hnot, rfl⟩ := ih.mp hj
          refine ⟨x :: before, after, rfl, ?_, rfl⟩
          rw [List.mem_cons, not_or]
          exact ⟨fun h => hx h.symm, hnot⟩
        · rintro ⟨before, after, hsplit, hnot, rfl⟩
          cases before with
          | nil => exact absurd (List.cons.inj hsplit).1 hx
          | cons b before =>
              rw [List.mem_cons, not_or] at hnot
              exact ⟨before.length, ih.mpr ⟨before, after, (List.cons.inj hsplit).2, hnot.2, rfl⟩,
                rfl⟩

/-- The pieces between the separators do not hold one. -/
theorem notMem_of_mem_splitOn [BEq α] [LawfulBEq α] {d : α} {xs piece : List α}
    (h : piece ∈ xs.splitOn d) : d ∉ piece := by
  induction xs generalizing piece with
  | nil =>
      rw [List.splitOn_nil, List.mem_singleton] at h
      rw [h]
      exact List.not_mem_nil
  | cons x xs ih =>
      rw [List.splitOn_cons_eq_if_modifyHead] at h
      split_ifs at h with hx
      · rcases List.mem_cons.mp h with rfl | hrest
        · exact List.not_mem_nil
        · exact ih hrest
      · cases hsplit : xs.splitOn d with
        | nil => exact absurd hsplit (List.splitOn_ne_nil d xs)
        | cons first pieces =>
            rw [hsplit] at h ih
            rcases List.mem_cons.mp h with rfl | hrest
            · rw [List.mem_cons, not_or]
              exact ⟨fun heq => hx (by rw [heq, beq_self_eq_true]), ih (List.mem_cons_self ..)⟩
            · exact ih (List.mem_cons_of_mem _ hrest)

/-- A further occurrence of the delimiter stands behind the first one. -/
theorem delimiter_behind {d : α} {rest x y y' : List α} (hd : d ∉ rest)
    (h : d :: rest ++ y = x ++ (d :: rest ++ y')) :
    x = [] ∧ y = y' ∨ ∃ m, x = d :: rest ++ m ∧ y = m ++ (d :: rest ++ y') := by
  cases x with
  | nil => exact .inl ⟨rfl, List.append_cancel_left h⟩
  | cons a x =>
      obtain ⟨rfl, htail⟩ := List.cons.inj h
      rcases List.append_eq_append_iff.mp htail with ⟨m, rfl, hy⟩ | ⟨m, hrest, hm⟩
      · exact .inr ⟨m, rfl, hy⟩
      · cases m with
        | nil =>
            rw [List.append_nil] at hrest
            exact .inr ⟨[], by rw [hrest, List.append_nil], by simpa using hm.symm⟩
        | cons b m =>
            obtain ⟨rfl, -⟩ := List.cons.inj hm
            exact absurd (hrest ▸ List.mem_append_right x (List.mem_cons_self ..)) hd

/-- **The splits at a delimiter.**  Two splits of one text are the same, or one has the delimiter
inside its left part and the other inside its right part. -/
theorem delimiter_splits {d : α} {rest x x' y y' : List α} (hd : d ∉ rest)
    (h : x ++ (d :: rest ++ y) = x' ++ (d :: rest ++ y')) :
    (x = x' ∧ y = y')
      ∨ (∃ m, x' = x ++ (d :: rest ++ m) ∧ y = m ++ (d :: rest ++ y'))
      ∨ ∃ m, x = x' ++ (d :: rest ++ m) ∧ y' = m ++ (d :: rest ++ y) := by
  rcases List.append_eq_append_iff.mp h with ⟨a, rfl, htail⟩ | ⟨a, rfl, htail⟩
  · rcases delimiter_behind hd htail with ⟨rfl, rfl⟩ | ⟨m, rfl, hy⟩
    · exact .inl ⟨(List.append_nil x).symm, rfl⟩
    · exact .inr (.inl ⟨m, rfl, hy⟩)
  · rcases delimiter_behind hd htail with ⟨rfl, rfl⟩ | ⟨m, rfl, hy⟩
    · exact .inl ⟨List.append_nil x', rfl⟩
    · exact .inr (.inr ⟨m, rfl, hy⟩)

/-- **The splits without a delimiter.**  Two different splits of one text differ by a piece that the
one has at the end of its left part and the other at the front of its right part. -/
theorem append_eq_append_iff_of_ne {x x' y y' : List α} (hne : (x, y) ≠ (x', y')) :
    x ++ y = x' ++ y' ↔
      ∃ m ≠ [], (x' = x ++ m ∧ y = m ++ y') ∨ (x = x' ++ m ∧ y' = m ++ y) := by
  constructor
  · intro h
    rcases List.append_eq_append_iff.mp h with ⟨m, hx, hy⟩ | ⟨m, hx, hy⟩
    · refine ⟨m, ?_, .inl ⟨hx, hy⟩⟩
      rintro rfl
      exact hne (by rw [hx, hy, List.append_nil, List.nil_append])
    · refine ⟨m, ?_, .inr ⟨hx, hy⟩⟩
      rintro rfl
      exact hne (by rw [hx, hy, List.append_nil, List.nil_append])
  · rintro ⟨m, -, ⟨rfl, rfl⟩ | ⟨rfl, rfl⟩⟩
    · rw [List.append_assoc]
    · rw [List.append_assoc]

end A2aAgentLayer.Lib.Delimiter
