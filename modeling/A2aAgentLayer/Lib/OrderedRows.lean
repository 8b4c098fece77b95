import Mathlib.Data.List.Sort
import Mathlib.Data.List.Perm.Subperm
import Mathlib.Order.Lattice
import Mathlib.Tactic.Ring

/-!
# Pages of an ordered query

A query with `ORDER BY key DESC` answers with some arrangement of its rows that descends by the key
(`Ordered`); which of them is open where keys are equal.  `page` is what `LIMIT` and `OFFSET` cut
out of it, and `readPages` collects the pages up to the first empty one.

Rows of one key stand at the places from `ahead` up to `through`, in every arrangement
(`place_of_key`).  So pages of several answers fit together exactly when no key lies on two pages
(`pages_perm_iff`).
-/

namespace A2aAgentLayer.Lib.OrderedRows

variable {α κ : Type*} [LinearOrder κ]

/-- An answer to a query over `rows` with `ORDER BY key DESC`. -/
structure Ordered (key : α → κ) (rows : List α) where
  list : List α
  perm : list.Perm rows
  sorted : list.Pairwise (fun a b => key b ≤ key a)

/-- `LIMIT limit OFFSET index * limit`. -/
def page (limit index : ℕ) (l : List α) : List α := (l.drop (index * limit)).take limit

/-- What a reader has who asks for page after page, until one is empty. -/
def readPages (ask : ℕ → List α) : ℕ → ℕ → Option (List α)
  | 0, _ => none
  | fuel + 1, number =>
      if (ask number).isEmpty then some []
      else (readPages ask fuel (number + 1)).map (ask number ++ ·)

/-- The rows that stand before those of the key in every answer. -/
def ahead (key : α → κ) (rows : List α) (k : κ) : ℕ := rows.countP (fun r => k < key r)

/-- The rows up to the last one of the key. -/
def through (key : α → κ) (rows : List α) (k : κ) : ℕ := rows.countP (fun r => k ≤ key r)

/-- All rows of a key lie on one page. -/
def OnOnePage (limit : ℕ) (key : α → κ) (rows : List α) : Prop :=
  ∀ r ∈ rows, ahead key rows (key r) / limit = (through key rows (key r) - 1) / limit

instance (limit : ℕ) (key : α → κ) (rows : List α) : Decidable (OnOnePage limit key rows) :=
  inferInstanceAs (Decidable (∀ r ∈ rows, _))

/-! ### Where the rows of a key stand -/

theorem length_page (limit index : ℕ) (l : List α) :
    (page limit index l).length = min limit (l.length - index * limit) := by
  rw [page, List.length_take, List.length_drop]

theorem Ordered.getElem_le {key : α → κ} {rows : List α} (a : Ordered key rows) {i j : ℕ}
    (hij : i ≤ j) (hj : j < a.list.length) : key a.list[j] ≤ key a.list[i] := by
  rcases Nat.lt_or_eq_of_le hij with h | h
  · exact List.pairwise_iff_getElem.mp a.sorted i j (by omega) hj h
  · subst h
    exact le_refl _

/-- In every answer a row stands behind those of greater keys and before the end of its own. -/
theorem place_of_key {key : α → κ} {rows : List α} (a : Ordered key rows) {i : ℕ}
    (hi : i < a.list.length) :
    ahead key rows (key a.list[i]) ≤ i ∧ i < through key rows (key a.list[i]) := by
  have hsplit : ∀ (p : α → Bool) (n : ℕ),
      rows.countP p = (a.list.take n).countP p + (a.list.drop n).countP p := by
    intro p n
    rw [← List.countP_append, List.take_append_drop, a.perm.countP_eq]
  constructor
  · have hbehind : (a.list.drop i).countP (fun r => key a.list[i] < key r) = 0 := by
      rw [List.countP_eq_zero]
      intro r hr hlt
      obtain ⟨j, hj, rfl⟩ := List.getElem_of_mem hr
      rw [List.getElem_drop, decide_eq_true_eq] at hlt
      rw [List.length_drop] at hj
      exact absurd hlt (not_lt.mpr (a.getElem_le (Nat.le_add_right i j) (by omega)))
    have hfront := List.countP_le_length (p := fun r => decide (key a.list[i] < key r))
      (l := a.list.take i)
    rw [ahead, hsplit _ i, hbehind, Nat.add_zero]
    exact le_trans hfront (List.length_take_le i a.list)
  · have hfront : (a.list.take (i + 1)).countP (fun r => key a.list[i] ≤ key r) = i + 1 := by
      have hlen : (a.list.take (i + 1)).length = i + 1 := by
        rw [List.length_take]
        omega
      have hall : (a.list.take (i + 1)).countP (fun r => decide (key a.list[i] ≤ key r))
          = (a.list.take (i + 1)).length := by
        rw [List.countP_eq_length]
        intro r hr
        obtain ⟨j, hj, rfl⟩ := List.getElem_of_mem hr
        rw [List.getElem_take, decide_eq_true_eq]
        exact a.getElem_le (by omega) hi
      rw [hall, hlen]
    rw [through, hsplit _ (i + 1), hfront]
    omega

/-! ### Pages that fit together -/

/-- Where each row's page is known from the row, a page is a selection of the rows. -/
theorem page_eq_filter {limit : ℕ} (pageOf : α → ℕ) {l : List α}
    (h : ∀ (i : ℕ) (hi : i < l.length), pageOf l[i] = i / limit) (hlimit : 0 < limit) (index : ℕ) :
    page limit index l = l.filter (fun r => pageOf r = index) := by
  have hsplit : l = l.take (index * limit) ++ (page limit index l
      ++ (l.drop (index * limit)).drop limit) := by
    rw [page, List.take_append_drop, List.take_append_drop]
  have hfront : (l.take (index * limit)).filter (fun r => pageOf r = index) = [] := by
    rw [List.filter_eq_nil_iff]
    intro r hr hpage
    obtain ⟨i, hi, rfl⟩ := List.getElem_of_mem hr
    rw [List.length_take] at hi
    rw [List.getElem_take, decide_eq_true_eq, h, Nat.div_eq_iff hlimit] at hpage
    omega
  have hback : ((l.drop (index * limit)).drop limit).filter (fun r => pageOf r = index) = [] := by
    rw [List.filter_eq_nil_iff]
    intro r hr hpage
    rw [List.drop_drop] at hr
    obtain ⟨i, hi, rfl⟩ := List.getElem_of_mem hr
    rw [List.length_drop] at hi
    rw [List.getElem_drop, decide_eq_true_eq, h _ (by omega), Nat.div_eq_iff hlimit] at hpage
    omega
  have hmiddle : (page limit index l).filter (fun r => pageOf r = index) = page limit index l := by
    rw [List.filter_eq_self]
    intro r hr
    obtain ⟨i, hi, rfl⟩ := List.getElem_of_mem hr
    rw [length_page] at hi
    simp only [page, List.getElem_take, List.getElem_drop, decide_eq_true_eq]
    rw [h _ (by omega), Nat.div_eq_iff hlimit]
    omega
  conv_rhs => rw [hsplit, List.filter_append, List.filter_append, hfront, hback, hmiddle]
  simp

/-- Rows grouped by a number below `count`. -/
theorem flatMap_filter_perm (pageOf : α → ℕ) (rows : List α) (count : ℕ) :
    ((List.range count).flatMap fun index => rows.filter (fun r => pageOf r = index)).Perm
      (rows.filter (fun r => pageOf r < count)) := by
  induction count with
  | zero => simp
  | succ count ih =>
      rw [List.range_succ, List.flatMap_append, List.flatMap_singleton]
      have hsplit := List.filter_append_perm (fun r => decide (pageOf r < count))
        (rows.filter (fun r => pageOf r < count + 1))
      rw [List.filter_filter, List.filter_filter] at hsplit
      refine List.Perm.trans (List.Perm.append ?_ ?_) hsplit
      · refine ih.trans (List.Perm.of_eq (List.filter_congr ?_))
        intro r _
        rw [Bool.eq_iff_iff]
        simp only [decide_eq_true_eq, Bool.and_eq_true]
        omega
      · refine List.Perm.of_eq (List.filter_congr ?_)
        intro r _
        rw [Bool.eq_iff_iff]
        simp only [decide_eq_true_eq, Bool.and_eq_true, Bool.not_eq_true', decide_eq_false_iff_not]
        omega

/-- Pages of several answers hold every row once when no key lies on two pages. -/
theorem pages_perm_of_onOnePage {limit : ℕ} {key : α → κ} {rows : List α} (hlimit : 0 < limit)
    (hpage : OnOnePage limit key rows) (answers : ℕ → Ordered key rows) {count : ℕ}
    (hcount : rows.length ≤ count * limit) :
    ((List.range count).flatMap fun index => page limit index (answers index).list).Perm rows := by
  have hplace : ∀ (a : Ordered key rows) (i : ℕ) (hi : i < a.list.length),
      ahead key rows (key a.list[i]) / limit = i / limit := by
    intro a i hi
    have hmem : a.list[i] ∈ rows := a.perm.mem_iff.mp (List.getElem_mem hi)
    have hbounds := place_of_key a hi
    have hle := Nat.div_le_div_right (c := limit) hbounds.1
    have hge := Nat.div_le_div_right (c := limit) (Nat.le_sub_one_of_lt hbounds.2)
    have hsame := hpage _ hmem
    omega
  have hpages : ∀ index ∈ List.range count,
      (page limit index (answers index).list).Perm
        (rows.filter (fun r => ahead key rows (key r) / limit = index)) := by
    intro index _
    rw [page_eq_filter (fun r => ahead key rows (key r) / limit) (hplace (answers index)) hlimit]
    exact (answers index).perm.filter _
  refine (List.Perm.flatMap_left _ hpages).trans ?_
  refine (flatMap_filter_perm _ rows count).trans (List.Perm.of_eq ?_)
  rw [List.filter_eq_self]
  intro r hr
  rw [decide_eq_true_eq, Nat.div_lt_iff_lt_mul hlimit]
  refine lt_of_lt_of_le ?_ hcount
  refine lt_of_le_of_ne List.countP_le_length ?_
  intro hall
  have hself := List.countP_eq_length.mp hall r hr
  exact lt_irrefl _ (of_decide_eq_true hself)

/-! ### Pages that do not -/

/-- Pages of one list, put together again. -/
theorem flatMap_page (limit count : ℕ) (l : List α) :
    ((List.range count).flatMap fun index => page limit index l) = l.take (count * limit) := by
  induction count with
  | zero => simp
  | succ count ih =>
      rw [List.range_succ, List.flatMap_append, List.flatMap_singleton, ih, page,
        Nat.succ_mul, List.take_add]

/-- The first pages of one list, the others of a second. -/
theorem flatMap_page_switch (limit turn rest : ℕ) (l l' : List α) :
    ((List.range (turn + rest)).flatMap fun index =>
        page limit index (if index < turn then l else l'))
      = l.take (turn * limit) ++ (l'.drop (turn * limit)).take (rest * limit) := by
  rw [List.range_add, List.flatMap_append, List.flatMap_map]
  congr 1
  · rw [← flatMap_page]
    refine List.flatMap_congr ?_
    intro index hindex
    rw [if_pos (List.mem_range.mp hindex)]
  · rw [← flatMap_page]
    refine List.flatMap_congr ?_
    intro index _
    rw [if_neg (by omega), page, page, List.drop_drop, Nat.add_mul]

/-- The places between `ahead` and `through` hold rows of that key. -/
theorem key_of_place {key : α → κ} {rows : List α} (a : Ordered key rows) {k : κ} {i : ℕ}
    (hi : i < a.list.length) (hahead : ahead key rows k ≤ i) (hthrough : i < through key rows k) :
    key a.list[i] = k := by
  have hplace := place_of_key a hi
  rcases lt_trichotomy (key a.list[i]) k with h | h | h
  · have hle : through key rows k ≤ ahead key rows (key a.list[i]) :=
      List.countP_mono_left fun r _ hr => by
        rw [decide_eq_true_eq] at hr ⊢
        exact lt_of_lt_of_le h hr
    omega
  · exact h
  · have hle : through key rows (key a.list[i]) ≤ ahead key rows k :=
      List.countP_mono_left fun r _ hr => by
        rw [decide_eq_true_eq] at hr ⊢
        exact lt_of_lt_of_le h hr
    omega

/-- Two neighbours of one key may change places. -/
def Ordered.swap {key : α → κ} {rows front back : List α} {x y : α} (a : Ordered key rows)
    (hlist : a.list = front ++ x :: y :: back) (hxy : key x = key y) : Ordered key rows where
  list := front ++ y :: x :: back
  perm := by
    refine List.Perm.trans ?_ a.perm
    rw [hlist]
    exact List.Perm.append_left front (List.Perm.swap x y back)
  sorted := by
    have h := a.sorted
    rw [hlist] at h
    rw [← List.pairwise_map (R := fun k k' => k' ≤ k)] at h ⊢
    simpa [hxy] using h

/-- Every list of rows has an answer. -/
def Ordered.ofRows (key : α → κ) (rows : List α) : Ordered key rows where
  list := rows.mergeSort (fun r r' => key r' ≤ key r)
  perm := List.mergeSort_perm rows _
  sorted := by
    have htrans : ∀ a b c : α, decide (key b ≤ key a) → decide (key c ≤ key b) →
        decide (key c ≤ key a) := by
      intro a b c hab hbc
      exact decide_eq_true (le_trans (of_decide_eq_true hbc) (of_decide_eq_true hab))
    have htotal : ∀ a b : α, decide (key b ≤ key a) || decide (key a ≤ key b) := by
      intro a b
      rw [Bool.or_eq_true, decide_eq_true_eq, decide_eq_true_eq]
      exact le_total _ _
    exact (List.pairwise_mergeSort htrans htotal rows).imp fun hab => of_decide_eq_true hab

/-- Two neighbours of one key that stand on different pages: the first of them comes twice when the
answer changes in between. -/
theorem not_perm_of_switch {limit : ℕ} {key : α → κ} {rows : List α} (hrows : rows.Nodup)
    {count turn : ℕ} (hcount : rows.length ≤ count * limit) {a : Ordered key rows}
    {front back : List α} {x y : α} (hlist : a.list = front ++ x :: y :: back)
    (hxy : key x = key y) (hfront : front.length + 1 = turn * limit)
    (h : ∀ answers : ℕ → Ordered key rows,
      ((List.range count).flatMap fun index => page limit index (answers index).list).Perm rows) :
    False := by
  have hlength : rows.length = turn * limit + (back.length + 1) := by
    rw [← a.perm.length_eq, hlist, ← hfront, List.length_append, List.length_cons,
      List.length_cons]
    omega
  have hturn : turn ≤ count := by
    by_contra hgt
    have := Nat.mul_le_mul_right limit (Nat.le_of_not_le hgt)
    omega
  obtain ⟨rest, rfl⟩ := Nat.exists_eq_add_of_le hturn
  have hcollected := h fun index => if index < turn then a else a.swap hlist hxy
  have hlists : ∀ index, (if index < turn then a else a.swap hlist hxy).list
      = if index < turn then front ++ x :: y :: back else front ++ y :: x :: back := by
    intro index
    split
    · exact hlist
    · rfl
  have hfirst : (front ++ x :: y :: back).take (turn * limit) = front ++ [x] := by
    rw [← hfront, List.take_append, List.take_of_length_le (by omega)]
    simp
  have hsecond : ((front ++ y :: x :: back).drop (turn * limit)).take (rest * limit)
      = x :: back := by
    rw [← hfront, List.drop_append, List.drop_of_length_le (by omega)]
    rw [Nat.add_mul] at hcount
    simp only [List.nil_append, Nat.add_sub_cancel_left, List.drop_succ_cons, List.drop_zero]
    exact List.take_of_length_le (by rw [List.length_cons]; omega)
  simp only [hlists] at hcollected
  rw [flatMap_page_switch, hfirst, hsecond] at hcollected
  have hdup := hcollected.nodup_iff.mpr hrows
  rw [List.append_assoc] at hdup
  exact (List.nodup_cons.mp hdup.of_append_right).1 List.mem_cons_self

theorem onOnePage_of_pages_perm {limit : ℕ} {key : α → κ} {rows : List α} (hlimit : 0 < limit)
    (hrows : rows.Nodup) {count : ℕ} (hcount : rows.length ≤ count * limit)
    (h : ∀ answers : ℕ → Ordered key rows,
      ((List.range count).flatMap fun index => page limit index (answers index).list).Perm rows) :
    OnOnePage limit key rows := by
  intro r hr
  by_contra hne
  -- the first page that holds a row of this key ends before the last such row
  let turn := ahead key rows (key r) / limit + 1
  let a := Ordered.ofRows key rows
  have hle : ahead key rows (key r) ≤ through key rows (key r) - 1 := by
    obtain ⟨i, hi, hri⟩ := List.getElem_of_mem (a.perm.mem_iff.mpr hr)
    have hplace := place_of_key a hi
    rw [hri] at hplace
    omega
  have hturn : turn ≤ (through key rows (key r) - 1) / limit := by
    have := Nat.div_le_div_right (c := limit) hle
    omega
  have hend : turn * limit ≤ through key rows (key r) - 1 :=
    (Nat.le_div_iff_mul_le hlimit).mp hturn
  have hbegin : ahead key rows (key r) < turn * limit := by
    rw [Nat.mul_comm]
    exact Nat.lt_mul_div_succ _ hlimit
  have hthrough : through key rows (key r) ≤ a.list.length := by
    rw [a.perm.length_eq]
    exact List.countP_le_length
  have hposition : turn * limit - 1 + 1 = turn * limit := by omega
  have hx : key a.list[turn * limit - 1] = key r := key_of_place a (by omega) (by omega) (by omega)
  have hy : key a.list[turn * limit - 1 + 1] = key r :=
    key_of_place a (by omega) (by omega) (by omega)
  have hlist : a.list = a.list.take (turn * limit - 1)
      ++ a.list[turn * limit - 1] :: a.list[turn * limit - 1 + 1]
        :: a.list.drop (turn * limit - 1 + 1 + 1) := by
    rw [List.getElem_cons_drop, List.getElem_cons_drop, List.take_append_drop]
  have hfront : (a.list.take (turn * limit - 1)).length + 1 = turn * limit := by
    rw [List.length_take]
    omega
  exact not_perm_of_switch hrows hcount hlist (hx.trans hy.symm) hfront h

/-- **Pages fit together, whatever each query answers, exactly when every key lies on one page.** -/
theorem pages_perm_iff {limit : ℕ} {key : α → κ} {rows : List α} (hlimit : 0 < limit)
    (hrows : rows.Nodup) {count : ℕ} (hcount : rows.length ≤ count * limit) :
    (∀ answers : ℕ → Ordered key rows,
      ((List.range count).flatMap fun index => page limit index (answers index).list).Perm rows)
      ↔ OnOnePage limit key rows := by
  constructor
  · exact onOnePage_of_pages_perm hlimit hrows hcount
  · intro hpage answers
    exact pages_perm_of_onOnePage hlimit hpage answers hcount

/-! ### Reading until a page is empty -/

theorem readPages_eq {ask : ℕ → List α} (count number fuel : ℕ)
    (hfull : ∀ index < count, ask (number + index) ≠ []) (hend : ask (number + count) = []) :
    readPages ask (count + 1 + fuel) number
      = some ((List.range count).flatMap fun index => ask (number + index)) := by
  induction count generalizing number with
  | zero =>
      rw [show 0 + 1 + fuel = fuel + 1 by omega, readPages]
      rw [Nat.add_zero] at hend
      rw [hend]
      rfl
  | succ count ih =>
      have hfirst : (ask number).isEmpty = false := by
        rw [List.isEmpty_eq_false_iff]
        exact hfull 0 (by omega)
      have hshift : ∀ index, number + 1 + index = number + (index + 1) := by
        intro index
        omega
      have hrest := ih (number + 1)
        (fun index hindex => by
          rw [hshift]
          exact hfull (index + 1) (by omega))
        (by rw [hshift]; exact hend)
      simp only [hshift] at hrest
      rw [show count + 1 + 1 + fuel = count + 1 + fuel + 1 by omega, readPages, hfirst, hrest,
        List.range_succ_eq_map, List.flatMap_cons, List.flatMap_map]
      rfl

/-- The number of pages that are not empty. -/
def pageCount (limit total : ℕ) : ℕ := (total + (limit - 1)) / limit

/-- Reading ends, and the pages read are those that hold all rows. -/
theorem readPages_page {limit : ℕ} {key : α → κ} {rows : List α} (hlimit : 0 < limit)
    {ask : ℕ → List α} {number : ℕ} {answers : ℕ → Ordered key rows}
    (hask : ∀ index, ask (number + index) = page limit index (answers index).list) :
    readPages ask (rows.length + 1) number
      = some ((List.range (pageCount limit rows.length)).flatMap fun index =>
          page limit index (answers index).list) := by
  have hlength : ∀ index, (page limit index (answers index).list).length
      = min limit (rows.length - index * limit) := by
    intro index
    rw [length_page, (answers index).perm.length_eq]
  have hcount : ∀ index, index < pageCount limit rows.length ↔ index * limit < rows.length := by
    intro index
    rw [pageCount, ← Nat.succ_le_iff, Nat.le_div_iff_mul_le hlimit, Nat.succ_mul]
    omega
  have hpages : pageCount limit rows.length ≤ rows.length := by
    rw [pageCount, ← Nat.lt_succ_iff, Nat.div_lt_iff_lt_mul hlimit, Nat.succ_mul]
    have := Nat.le_mul_of_pos_right rows.length hlimit
    omega
  obtain ⟨more, hmore⟩ := Nat.exists_eq_add_of_le hpages
  rw [show rows.length + 1 = pageCount limit rows.length + 1 + more by omega, readPages_eq]
  · simp only [hask]
  · intro index hindex
    rw [hask, ← List.length_pos_iff, hlength]
    have := (hcount index).mp hindex
    omega
  · rw [hask, ← List.length_eq_zero_iff, hlength]
    have := mt (hcount (pageCount limit rows.length)).mpr (lt_irrefl _)
    omega

theorem length_le_pageCount_mul {limit : ℕ} (hlimit : 0 < limit) (total : ℕ) :
    total ≤ pageCount limit total * limit := by
  have := Nat.lt_mul_div_succ (total + (limit - 1)) hlimit
  rw [pageCount, Nat.mul_comm]
  rw [Nat.mul_add, Nat.mul_one] at this
  omega

/-- The pages together are as many rows as there are. -/
theorem length_pages {limit : ℕ} {key : α → κ} {rows : List α} (hlimit : 0 < limit)
    (answers : ℕ → Ordered key rows) :
    ((List.range (pageCount limit rows.length)).flatMap fun index =>
      page limit index (answers index).list).length = rows.length := by
  let first := answers 0
  have hsame : ∀ index, (page limit index (answers index).list).length
      = (page limit index first.list).length := by
    intro index
    rw [length_page, length_page, (answers index).perm.length_eq, first.perm.length_eq]
  rw [List.length_flatMap, List.map_congr_left fun index _ => hsame index, ← List.length_flatMap,
    flatMap_page, List.length_take, first.perm.length_eq]
  exact min_eq_right (length_le_pageCount_mul hlimit rows.length)

/-- **A reader of the pages finds every row once, whatever each query answers, exactly when every
key lies on one page.** -/
theorem readPages_each_once_iff [DecidableEq α] {limit : ℕ} {key : α → κ} {rows : List α}
    (hlimit : 0 < limit) (hrows : rows.Nodup) :
    (∀ answers : ℕ → Ordered key rows, ∀ r ∈ rows,
      ((List.range (pageCount limit rows.length)).flatMap fun index =>
        page limit index (answers index).list).count r = 1) ↔ OnOnePage limit key rows := by
  rw [← pages_perm_iff hlimit hrows (length_le_pageCount_mul hlimit rows.length)]
  refine forall_congr' fun answers => ?_
  constructor
  · intro h
    have hsub : rows ⊆ (List.range (pageCount limit rows.length)).flatMap fun index =>
        page limit index (answers index).list := by
      intro r hr
      rw [← List.count_pos_iff, h r hr]
      exact Nat.one_pos
    have hperm := (List.subperm_of_subset hrows hsub).perm_of_length_le
      (length_pages hlimit answers).le
    exact hperm.symm
  · intro h r hr
    rw [h.count_eq]
    exact List.count_eq_one_of_mem hrows hr

end A2aAgentLayer.Lib.OrderedRows
