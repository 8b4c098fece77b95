import A2aAgentLayer.Lib.TextReplace

/-!
# What stands between the matches

A global replacement finds matches that do not overlap.  `pieces` are the parts of the text before,
between and behind them, and `outside` is what they make when they are put together, which is the
text with its matches deleted.

A text inside `outside` is inside one of the pieces or goes across a place where something was
deleted (`infix_outside_iff`).  When the matches are the texts with some property, whatever follows
them (`MatchesAre`), no piece has a match of its own.

`replaceAll_append` says when the two parts of a text can be treated apart, and `infix_replaceAll`
which texts a replacement leaves in place.
-/

namespace A2aAgentLayer.Lib.TextPieces

open A2aAgentLayer.Lib.TextReplace

variable {α : Type*} {r : Replacement α} {P : List α → Prop}

/-! ### Pieces -/

/-- The pieces from a place on, where the first `skip` units still belong to a match. -/
def piecesFrom (r : Replacement α) : ℕ → List α → List (List α)
  | _, [] => [[]]
  | skip + 1, _ :: s => piecesFrom r skip s
  | 0, u :: s =>
      match r.matchAt (u :: s) with
      | none => (piecesFrom r 0 s).modifyHead (u :: ·)
      | some n => [] :: piecesFrom r (n - 1) s

/-- The parts of a text that the matches leave. -/
def pieces (r : Replacement α) (s : List α) : List (List α) := piecesFrom r 0 s

/-- The text without its matches. -/
def outside (r : Replacement α) (s : List α) : List α := (pieces r s).flatten

theorem piecesFrom_eq (r : Replacement α) (skip : ℕ) (s : List α) :
    piecesFrom r skip s = pieces r (s.drop skip) := by
  induction s generalizing skip with
  | nil =>
      rw [List.drop_nil]
      cases skip <;> rfl
  | cons u s ih =>
      cases skip with
      | zero => rfl
      | succ skip => exact ih skip

theorem pieces_of_none {u : α} {s : List α} (h : r.matchAt (u :: s) = none) :
    pieces r (u :: s) = (pieces r s).modifyHead (u :: ·) := by
  rw [pieces, piecesFrom, h]
  rfl

theorem pieces_of_match {s : List α} {n : ℕ} (h : r.matchAt s = some n) :
    pieces r s = [] :: pieces r (s.drop n) := by
  obtain ⟨hvalue, -⟩ := r.shrinks _ _ h
  cases s with
  | nil =>
      rw [matchAt_nil] at h
      cases h
  | cons u s =>
      obtain ⟨k, rfl⟩ : ∃ k, n = k + 1 := ⟨n - 1, by omega⟩
      rw [pieces, piecesFrom, h]
      show [] :: piecesFrom r (k + 1 - 1) s = _
      rw [Nat.add_sub_cancel, piecesFrom_eq, List.drop_succ_cons]

/-- A match begins where a text with the property begins, and is that text. -/
def MatchesAre (r : Replacement α) (P : List α → Prop) : Prop :=
  ∀ s n, r.matchAt s = some n ↔ n ≤ s.length ∧ P (s.take n)

theorem MatchesAre.matchAt_append_iff (h : MatchesAre r P) {x : List α} {n : ℕ}
    (hn : n ≤ x.length) (y : List α) : r.matchAt (x ++ y) = some n ↔ r.matchAt x = some n := by
  have hn' : n ≤ (x ++ y).length := by
    rw [List.length_append]
    omega
  rw [h, h, List.take_append_of_le_length hn, and_iff_right hn, and_iff_right hn']

theorem MatchesAre.matchAt_append (h : MatchesAre r P) {x : List α} {n : ℕ}
    (hmatch : r.matchAt x = some n) (y : List α) : r.matchAt (x ++ y) = some n :=
  (h.matchAt_append_iff ((h x n).mp hmatch).1 y).mpr hmatch

theorem MatchesAre.matchAt_text (h : MatchesAre r P) {m : List α} (hm : P m) (c : List α) :
    r.matchAt (m ++ c) = some m.length := by
  rw [h, List.take_left]
  exact ⟨by rw [List.length_append]; omega, hm⟩

/-- **A text has no match exactly when none of the matching texts is in it.** -/
theorem MatchesAre.unmatched_iff (h : MatchesAre r P) {s : List α} :
    Unmatched r s ↔ ∀ m, P m → ¬ m <:+: s := by
  constructor
  · rintro hs m hm ⟨a, c, rfl⟩
    have hnone := hs (m ++ c) ⟨a, by rw [List.append_assoc]⟩
    rw [h.matchAt_text hm] at hnone
    cases hnone
  · intro hs t ht
    cases hmatch : r.matchAt t with
    | none => rfl
    | some n =>
        have hinside : t.take n <:+: s := (List.take_prefix n t).isInfix.trans ht.isInfix
        exact absurd hinside (hs _ ((h t n).mp hmatch).2)

/-- The first piece begins the text, the others are inside it, and none of them has a match. -/
theorem exists_pieces (h : MatchesAre r P) (s : List α) :
    ∃ p ps, pieces r s = p :: ps ∧ p <+: s ∧ Unmatched r p
      ∧ ∀ q ∈ ps, q <:+: s ∧ Unmatched r q := by
  induction s using scan_induction r with
  | nil => exact ⟨[], [], rfl, List.prefix_refl _, unmatched_nil r, nofun⟩
  | unit u s hnone ih =>
      obtain ⟨p, ps, heq, ⟨c, rfl⟩, hp, hps⟩ := ih
      refine ⟨u :: p, ps, by rw [pieces_of_none hnone, heq]; rfl, ⟨c, rfl⟩, ?_,
        fun q hq => ⟨(hps q hq).1.trans (List.suffix_cons u _).isInfix, (hps q hq).2⟩⟩
      refine unmatched_cons.mpr ⟨?_, hp⟩
      cases hmatch : r.matchAt (u :: p) with
      | none => rfl
      | some n =>
          have hlonger := h.matchAt_append hmatch c
          rw [List.cons_append, hnone] at hlonger
          cases hlonger
  | found s n hmatch ih =>
      obtain ⟨p, ps, heq, hstart, hp, hps⟩ := ih
      have hdrop : s.drop n <:+: s := (List.drop_suffix n s).isInfix
      refine ⟨[], p :: ps, by rw [pieces_of_match hmatch, heq], List.nil_prefix, unmatched_nil r,
        ?_⟩
      rw [List.forall_mem_cons]
      exact ⟨⟨hstart.isInfix.trans hdrop, hp⟩,
        fun q hq => ⟨(hps q hq).1.trans hdrop, (hps q hq).2⟩⟩

theorem infix_of_mem_pieces (h : MatchesAre r P) {s p : List α} (hp : p ∈ pieces r s) :
    p <:+: s := by
  obtain ⟨q, qs, heq, hstart, -, hqs⟩ := exists_pieces h s
  rw [heq, List.mem_cons] at hp
  rcases hp with rfl | hp
  · exact hstart.isInfix
  · exact (hqs p hp).1

theorem unmatched_of_mem_pieces (h : MatchesAre r P) {s p : List α} (hp : p ∈ pieces r s) :
    Unmatched r p := by
  obtain ⟨q, qs, heq, -, hq, hqs⟩ := exists_pieces h s
  rw [heq, List.mem_cons] at hp
  rcases hp with rfl | hp
  · exact hq
  · exact (hqs p hp).2

theorem flatten_modifyHead {u : α} {ps : List (List α)} (h : ps ≠ []) :
    (ps.modifyHead (u :: ·)).flatten = u :: ps.flatten := by
  obtain ⟨p, ps, rfl⟩ := List.exists_cons_of_ne_nil h
  rfl

/-- **A replacement by nothing leaves what stands outside the matches.** -/
theorem replaceAll_eq_outside (h : MatchesAre r P) (hvalue : r.value = []) (s : List α) :
    replaceAll r s = outside r s := by
  rw [outside]
  induction s using scan_induction r with
  | nil => rfl
  | unit u s hnone ih =>
      have hne : pieces r s ≠ [] := by
        obtain ⟨p, ps, heq, -⟩ := exists_pieces h s
        rw [heq]
        exact List.cons_ne_nil p ps
      rw [replaceAll_of_none hnone, pieces_of_none hnone, flatten_modifyHead hne, ih]
  | found s n hmatch ih =>
      rw [replaceAll_of_match hmatch, pieces_of_match hmatch, hvalue, List.flatten_cons, ih]

/-! ### Across the places of deletion -/

/-- The text begins at the end of one piece and goes on with what the later ones make. -/
def Across (m : List α) (ps : List (List α)) : Prop :=
  ∃ before p after left right, ps = before ++ p :: after ∧ m = left ++ right ∧ left ≠ []
    ∧ right ≠ [] ∧ left <:+ p ∧ right <+: after.flatten

theorem infix_flatten_iff {m : List α} (hm : m ≠ []) (ps : List (List α)) :
    m <:+: ps.flatten ↔ (∃ p ∈ ps, m <:+: p) ∨ Across m ps := by
  induction ps with
  | nil =>
      rw [List.flatten_nil, List.infix_nil]
      refine iff_of_false hm ?_
      rintro (⟨p, hp, -⟩ | ⟨before, p, after, -, -, hps, -⟩)
      · cases hp
      · exact List.append_ne_nil_of_right_ne_nil _ (List.cons_ne_nil p after) hps.symm
  | cons q qs ih =>
      rw [List.flatten_cons, List.infix_append_iff_ne_nil, ih]
      constructor
      · rintro (h | (⟨p, hp, h⟩ | ⟨before, p, after, left, right, rfl, h⟩) |
          ⟨left, right, hleft, hright, rfl, hq, hqs⟩)
        · exact .inl ⟨q, List.mem_cons_self .., h⟩
        · exact .inl ⟨p, List.mem_cons_of_mem q hp, h⟩
        · exact .inr ⟨q :: before, p, after, left, right, rfl, h⟩
        · exact .inr ⟨[], q, qs, left, right, rfl, rfl, hleft, hright, hq, hqs⟩
      · rintro (⟨p, hp, h⟩ | ⟨before, p, after, left, right, hps, hm, hleft, hright, hp, hafter⟩)
        · rcases List.mem_cons.mp hp with rfl | hp
          · exact .inl h
          · exact .inr (.inl (.inl ⟨p, hp, h⟩))
        · cases before with
          | nil =>
              obtain ⟨rfl, rfl⟩ := List.cons.inj hps
              exact .inr (.inr ⟨left, right, hleft, hright, hm, hp, hafter⟩)
          | cons b before =>
              obtain ⟨rfl, rfl⟩ := List.cons.inj hps
              exact .inr (.inl (.inr
                ⟨before, p, after, left, right, rfl, hm, hleft, hright, hp, hafter⟩))

/-- **Inside a piece, or across a deletion.** -/
theorem infix_outside_iff {m : List α} (hm : m ≠ []) (s : List α) :
    m <:+: outside r s ↔ (∃ p ∈ pieces r s, m <:+: p) ∨ Across m (pieces r s) :=
  infix_flatten_iff hm (pieces r s)

/-- **What a deletion can make.**  Texts that a deletion leaves where they are, and the deleted
ones, are missing behind it exactly when the former were missing before and none goes across a place
of deletion. -/
theorem outside_lacks_iff (h : MatchesAre r P) {Q : List α → Prop} {s : List α}
    (hne : ∀ m, Q m ∨ P m → m ≠ []) (hkeep : ∀ m, Q m → m <:+: s → m <:+: outside r s) :
    (∀ m, Q m ∨ P m → ¬ m <:+: outside r s) ↔
      (∀ m, Q m → ¬ m <:+: s) ∧ ∀ m, Q m ∨ P m → ¬ Across m (pieces r s) := by
  constructor
  · intro hout
    exact ⟨fun m hm hinside => hout m (.inl hm) (hkeep m hm hinside),
      fun m hm hacross => hout m hm ((infix_outside_iff (hne m hm) s).mpr (.inr hacross))⟩
  · rintro ⟨hbefore, hnone⟩ m hm hinside
    rcases (infix_outside_iff (hne m hm) s).mp hinside with ⟨p, hp, hpiece⟩ | hacross
    · rcases hm with hm | hm
      · exact hbefore m hm (hpiece.trans (infix_of_mem_pieces h hp))
      · exact h.unmatched_iff.mp (unmatched_of_mem_pieces h hp) m hm hpiece
    · exact hnone m hm hacross

/-! ### Parts of a text that are treated apart -/

/-- When no match that begins in the first part reaches into the second, the parts do not meet. -/
theorem replaceAll_append (h : MatchesAre r P) {a b : List α}
    (hstay : ∀ t, t <:+ a → t ≠ [] → ∀ n, r.matchAt (t ++ b) = some n → n ≤ t.length) :
    replaceAll r (a ++ b) = replaceAll r a ++ replaceAll r b := by
  induction a using scan_induction r with
  | nil => rfl
  | unit u a hnone ih =>
      have htail := ih fun t ht => hstay t (ht.trans (List.suffix_cons u a))
      have hnone' : r.matchAt (u :: (a ++ b)) = none := by
        cases hmatch : r.matchAt (u :: (a ++ b)) with
        | none => rfl
        | some n =>
            have hle := hstay (u :: a) List.suffix_rfl (List.cons_ne_nil u a) n hmatch
            have hshort := (h.matchAt_append_iff hle b).mp hmatch
            rw [hnone] at hshort
            cases hshort
      rw [List.cons_append, replaceAll_of_none hnone', replaceAll_of_none hnone, htail,
        List.cons_append]
  | found a n hmatch ih =>
      have hle := (r.shrinks _ _ hmatch).2
      have htail := ih fun t ht => hstay t (ht.trans (List.drop_suffix n a))
      rw [replaceAll_of_match (h.matchAt_append hmatch b), replaceAll_of_match hmatch,
        List.drop_append_of_le_length hle, htail, List.append_assoc]

/-- A text falls apart at a unit that no match contains. -/
theorem replaceAll_append_cons (h : MatchesAre r P) {c : α} (hc : ∀ m, P m → c ∉ m)
    (a b : List α) : replaceAll r (a ++ c :: b) = replaceAll r a ++ c :: replaceAll r b := by
  have hreach : ∀ t n, r.matchAt (t ++ c :: b) = some n → n ≤ t.length := by
    intro t n hmatch
    by_contra hlong
    refine hc _ ((h _ n).mp hmatch).2 ?_
    obtain ⟨k, hk⟩ : ∃ k, n - t.length = k + 1 := ⟨n - t.length - 1, by omega⟩
    rw [List.take_append, hk, List.mem_append]
    exact .inr (List.mem_cons_self ..)
  have hnone : r.matchAt (c :: b) = none := by
    cases hmatch : r.matchAt (c :: b) with
    | none => rfl
    | some n =>
        have hle := hreach [] n hmatch
        have hpos := (r.shrinks _ _ hmatch).1
        rw [List.length_nil] at hle
        omega
  rw [replaceAll_append h fun t _ _ n hmatch => hreach t n hmatch, replaceAll_of_none hnone]

/-- A text without the unit that ends every match stays as it is, behind any other text. -/
theorem replaceAll_append_open (h : MatchesAre r P) {stop : α}
    (hstop : ∀ m, P m → m.getLast? = some stop) {t : List α} (ht : stop ∉ t) (a : List α) :
    replaceAll r (a ++ t) = replaceAll r a ++ t := by
  have hunmatched : Unmatched r t := h.unmatched_iff.mpr fun m hm hinside =>
    ht (hinside.subset (List.mem_of_getLast? (hstop m hm)))
  rw [replaceAll_append h, replaceAll_of_unmatched hunmatched]
  intro x _ _ n hmatch
  by_contra hlong
  obtain ⟨hlen, hm⟩ := (h _ n).mp hmatch
  rw [List.length_append] at hlen
  have hne : t.take (n - x.length) ≠ [] := by
    rw [← List.length_pos_iff, List.length_take]
    omega
  have hlast := hstop _ hm
  rw [List.take_append, List.getLast?_append_of_ne_nil _ hne] at hlast
  exact ht (List.mem_of_mem_take (List.mem_of_getLast? hlast))

/-- **A text that no match can touch is still there after the replacement.** -/
theorem infix_replaceAll (h : MatchesAre r P) {stop : α} (hstop : ∀ m, P m → m.getLast? = some stop)
    {m : List α} {c : α} (hm : stop ∉ m) (hc : ∀ x, P x → c ∉ x) {s : List α}
    (hinside : m ++ [c] <:+: s) : m ++ [c] <:+: replaceAll r s := by
  obtain ⟨a, b, rfl⟩ := hinside
  have hsplit : a ++ (m ++ [c]) ++ b = (a ++ m) ++ c :: b := by
    simp only [List.append_assoc, List.cons_append, List.nil_append]
  rw [hsplit, replaceAll_append_cons h hc, replaceAll_append_open h hstop hm]
  exact ⟨replaceAll r a, replaceAll r b, by
    simp only [List.append_assoc, List.cons_append, List.nil_append]⟩

/-- Units that are in no match and not in what replaces one keep their order. -/
theorem filter_replaceAll (p : α → Bool) (hvalue : r.value.filter p = [])
    (hmatch : ∀ s n, r.matchAt s = some n → (s.take n).filter p = []) (s : List α) :
    (replaceAll r s).filter p = s.filter p := by
  induction s using scan_induction r with
  | nil => rfl
  | unit u s hnone ih =>
      rw [replaceAll_of_none hnone, List.filter_cons, List.filter_cons, ih]
  | found s n hfound ih =>
      have hsplit : s.filter p = (s.take n).filter p ++ (s.drop n).filter p := by
        rw [← List.filter_append, List.take_append_drop]
      rw [replaceAll_of_match hfound, List.filter_append, hvalue, ih, hsplit, hmatch s n hfound]

/-- What begins the result without the unit that replaces the matches begins the text. -/
theorem prefix_of_prefix_replaceAll {v : α} (hvalue : r.value = [v]) {m : List α} (hm : v ∉ m)
    {s : List α} (h : m <+: replaceAll r s) : m <+: s := by
  induction m generalizing s with
  | nil => exact List.nil_prefix
  | cons c m ih =>
      rw [List.mem_cons, not_or] at hm
      cases s with
      | nil => exact h
      | cons u s =>
          cases hmatch : r.matchAt (u :: s) with
          | none =>
              rw [replaceAll_of_none hmatch, List.cons_prefix_cons] at h
              exact List.cons_prefix_cons.mpr ⟨h.1, ih hm.2 h.2⟩
          | some n =>
              rw [replaceAll_of_match hmatch, hvalue, List.singleton_append,
                List.cons_prefix_cons] at h
              exact absurd h.1.symm hm.1

end A2aAgentLayer.Lib.TextPieces
