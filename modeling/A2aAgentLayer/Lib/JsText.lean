import Mathlib.Data.List.DropRight
import A2aAgentLayer.Lib.Utf16

/-!
# Operations on JavaScript strings

`trim`, `split` at one unit, and `parseInt` with radix ten.  A text without white space at its ends
is in a string exactly when it is in the trimmed string (`infix_trim_iff`).  `split` is core's
`splitOn`, which gives one empty piece for the empty string as well; `intText` is what `toString`
makes of a whole number, and `parseInt` reads it back.
-/

namespace A2aAgentLayer.Lib.JsText

open A2aAgentLayer.Lib.Utf16

/-! ### White space -/

/-- White space and line terminators: what `trim` takes off and `\s` matches. -/
def isSpace (u : CodeUnit) : Bool :=
  (0x9 ≤ u && u ≤ 0xD) || u == 0x20 || u == 0xA0 || u == 0x1680 || (0x2000 ≤ u && u ≤ 0x200A)
    || u == 0x2028 || u == 0x2029 || u == 0x202F || u == 0x205F || u == 0x3000 || u == 0xFEFF

/-- The visible characters of ASCII are no white space. -/
theorem isSpace_of_visible {u : CodeUnit} (hlow : 33 ≤ u.toNat) (hhigh : u.toNat < 127) :
    isSpace u = false := by
  have hclass : ((List.range 94).all fun k => !isSpace (UInt16.ofNat (33 + k))) = true := by decide
  have hu : u = UInt16.ofNat (33 + (u.toNat - 33)) := by
    rw [show 33 + (u.toNat - 33) = u.toNat by omega, UInt16.ofNat_toNat]
  have hmem := List.all_eq_true.mp hclass (u.toNat - 33) (List.mem_range.mpr (by omega))
  rw [← hu] at hmem
  simpa using hmem

def trim (s : JsString) : JsString := (s.dropWhile isSpace).rdropWhile isSpace

/-- No white space at either end. -/
def Trimmed (s : JsString) : Prop :=
  (∀ h : s ≠ [], isSpace (s.head h) = false) ∧ ∀ h : s ≠ [], isSpace (s.getLast h) = false

theorem dropWhile_eq_self {p : CodeUnit → Bool} {s : JsString} :
    s.dropWhile p = s ↔ ∀ h : s ≠ [], p (s.head h) = false := by
  cases s with
  | nil => simp
  | cons u s =>
      rw [List.dropWhile_cons]
      constructor
      · intro h _
        split_ifs at h with hu
        · have hlen := congrArg List.length h
          have hle := (List.dropWhile_sublist p (l := s)).length_le
          rw [List.length_cons] at hlen
          omega
        · simpa using hu
      · intro h
        have hu := h (List.cons_ne_nil u s)
        rw [List.head_cons] at hu
        rw [hu]
        rfl

/-- Where a run of units of one class ends. -/
theorem span_append {p : CodeUnit → Bool} {x y : JsString} (hx : ∀ u ∈ x, p u = true)
    (hy : ∀ h : y ≠ [], p (y.head h) = false) :
    (x ++ y).takeWhile p = x ∧ (x ++ y).dropWhile p = y := by
  have hdrop : y.dropWhile p = y := dropWhile_eq_self.mpr hy
  have htake : y.takeWhile p = [] := by
    have hsplit := List.takeWhile_append_dropWhile (p := p) (l := y)
    rw [hdrop] at hsplit
    exact List.append_left_eq_self.mp hsplit
  rw [List.takeWhile_append_of_pos hx, List.dropWhile_append_of_pos hx, hdrop, htake,
    List.append_nil]
  exact ⟨rfl, rfl⟩

theorem trim_eq_self_iff {s : JsString} : trim s = s ↔ Trimmed s := by
  have hlen : (s.dropWhile isSpace).length ≤ s.length :=
    (List.dropWhile_sublist isSpace).length_le
  have hend : ((s.dropWhile isSpace).rdropWhile isSpace).length ≤ (s.dropWhile isSpace).length :=
    (List.rdropWhile_prefix isSpace _).length_le
  rw [trim, Trimmed, ← dropWhile_eq_self]
  constructor
  · intro h
    have hfront : s.dropWhile isSpace = s := by
      refine (List.dropWhile_sublist isSpace).eq_of_length ?_
      have := congrArg List.length h
      omega
    rw [hfront] at h
    refine ⟨hfront, fun hne => ?_⟩
    simpa using List.rdropWhile_eq_self_iff.mp h hne
  · rintro ⟨hfront, hback⟩
    rw [hfront]
    exact List.rdropWhile_eq_self_iff.mpr fun hne => by simp [hback hne]

theorem length_trim_le (s : JsString) : (trim s).length ≤ s.length :=
  (List.rdropWhile_prefix isSpace _).length_le.trans (List.dropWhile_sublist isSpace).length_le

theorem trim_cons_space {u : CodeUnit} {s : JsString} (h : isSpace u = true) :
    trim (u :: s) = trim s := by
  rw [trim, trim, List.dropWhile_cons_of_pos h]

theorem rdropWhile_append_cons {p : CodeUnit → Bool} {u : CodeUnit} (x y : JsString)
    (hu : p u = false) : (x ++ u :: y).rdropWhile p = x ++ u :: y.rdropWhile p := by
  have hreverse : (x ++ u :: y).reverse = y.reverse ++ (u :: x.reverse) := by simp
  rw [List.rdropWhile, List.rdropWhile, hreverse, List.dropWhile_append]
  split_ifs with hempty
  · rw [List.dropWhile_cons_of_neg (by simp [hu]), List.isEmpty_iff.mp hempty]
    simp
  · simp

/-- Trimming a text that begins with a word and a unit behind it leaves the word. -/
theorem trim_append_cons {word rest : JsString} {u : CodeUnit} (hne : word ≠ [])
    (hword : ∀ v ∈ word, isSpace v = false) (hu : isSpace u = false) :
    trim (word ++ u :: rest) = word ++ u :: rest.rdropWhile isSpace := by
  have hfront : (word ++ u :: rest).dropWhile isSpace = word ++ u :: rest := by
    refine dropWhile_eq_self.mpr fun _ => ?_
    rw [List.head_append_of_ne_nil hne]
    exact hword _ (List.head_mem hne)
  rw [trim, hfront, rdropWhile_append_cons _ _ hu]

theorem trimmed_trim (s : JsString) : Trimmed (trim s) := by
  have hstart : trim s <+: s.dropWhile isSpace := List.rdropWhile_prefix isSpace _
  refine ⟨fun h => ?_, fun h => ?_⟩
  · rw [hstart.head h]
    exact List.head_dropWhile_not isSpace (hstart.ne_nil h)
  · exact Bool.eq_false_iff.mpr (List.rdropWhile_last_not isSpace _ h)

theorem infix_dropWhile_iff {p : CodeUnit → Bool} {m : JsString} (hne : m ≠ [])
    (hm : p (m.head hne) = false) {s : JsString} : m <:+: s.dropWhile p ↔ m <:+: s := by
  induction s with
  | nil => rfl
  | cons u s ih =>
      cases hu : p u with
      | false => rw [List.dropWhile_cons_of_neg (by simp [hu])]
      | true =>
          rw [List.dropWhile_cons_of_pos hu, ih, List.infix_cons_iff]
          refine ⟨.inr, fun h => h.resolve_left ?_⟩
          obtain ⟨v, m, rfl⟩ := List.exists_cons_of_ne_nil hne
          rw [List.cons_prefix_cons]
          rintro ⟨rfl, -⟩
          rw [List.head_cons, hu] at hm
          cases hm

/-- **Trimming keeps every text that does not begin or end with white space.** -/
theorem infix_trim_iff {m s : JsString} (hne : m ≠ []) (hm : Trimmed m) :
    m <:+: trim s ↔ m <:+: s := by
  have hne' : m.reverse ≠ [] := List.reverse_ne_nil_iff.mpr hne
  have hlast : isSpace (m.reverse.head hne') = false := by
    rw [List.head_reverse]
    exact hm.2 hne
  rw [trim, List.rdropWhile, ← List.reverse_infix, List.reverse_reverse,
    infix_dropWhile_iff hne' hlast, List.reverse_infix, infix_dropWhile_iff hne (hm.1 hne)]

/-! ### Numbers -/

/-- The text of a whole number. -/
def intText (z : ℤ) : JsString :=
  if z < 0 then unit '-' :: natText z.natAbs else natText z.natAbs

/-- The number that the leading digits spell, if there are any. -/
def leadingNat (s : JsString) : Option ℕ :=
  match s.takeWhile isDigitUnit with
  | [] => none
  | digits => some (readNat digits)

/-- `Number.parseInt(text, 10)`; `none` is `NaN`. -/
def parseInt (text : JsString) : Option ℤ :=
  match text.dropWhile isSpace with
  | [] => none
  | u :: rest =>
      if u = unit '-' then (leadingNat rest).map fun n : ℕ => -(n : ℤ)
      else if u = unit '+' then (leadingNat rest).map fun n : ℕ => (n : ℤ)
      else (leadingNat (u :: rest)).map fun n : ℕ => (n : ℤ)

example : parseInt (js " 42px") = some 42 := by decide

theorem natText_ne_nil (n : ℕ) : natText n ≠ [] := by
  intro h
  rw [natText, List.map_eq_nil_iff] at h
  exact Nat.toDigits_ne_nil h

theorem leadingNat_natText (n : ℕ) : leadingNat (natText n) = some n := by
  have hall : (natText n).takeWhile isDigitUnit = natText n :=
    List.takeWhile_eq_self_iff.mpr fun u hu => digit_of_mem_natText hu
  rw [leadingNat, hall]
  cases h : natText n with
  | nil => exact absurd h (natText_ne_nil n)
  | cons u rest =>
      show some (readNat (u :: rest)) = some n
      rw [← h, readNat_natText]

theorem isSpace_of_digit {u : CodeUnit} (h : isDigitUnit u = true) :
    isSpace u = false ∧ u ≠ unit '-' ∧ u ≠ unit '+' := by
  have hrange := isDigitUnit_iff.mp h
  refine ⟨isSpace_of_visible (by omega) (by omega), ?_, ?_⟩
  · apply ne_of_apply_ne UInt16.toNat
    rw [show (unit '-').toNat = 45 from rfl]
    omega
  · apply ne_of_apply_ne UInt16.toNat
    rw [show (unit '+').toNat = 43 from rfl]
    omega

/-- **`parseInt` reads the text of a whole number back.** -/
theorem parseInt_intText (z : ℤ) : parseInt (intText z) = some z := by
  rw [intText]
  split_ifs with hz
  · have hminus : (unit '-' :: natText z.natAbs).dropWhile isSpace
        = unit '-' :: natText z.natAbs := by
      rw [List.dropWhile_cons_of_neg (by decide)]
    rw [parseInt, hminus]
    show (if unit '-' = unit '-' then (leadingNat (natText z.natAbs)).map fun n : ℕ => -(n : ℤ)
      else _) = some z
    rw [if_pos rfl, leadingNat_natText, Option.map_some]
    congr 1
    omega
  · have hdigits : ∀ u ∈ natText z.natAbs, isDigitUnit u = true := fun u hu =>
      digit_of_mem_natText hu
    have hread := leadingNat_natText z.natAbs
    cases h : natText z.natAbs with
    | nil => exact absurd h (natText_ne_nil _)
    | cons u rest =>
        rw [h] at hdigits hread
        obtain ⟨hspace, hminus, hplus⟩ := isSpace_of_digit (hdigits u (List.mem_cons_self ..))
        have hdrop : (u :: rest).dropWhile isSpace = u :: rest := by
          rw [List.dropWhile_cons_of_neg (by simp [hspace])]
        rw [parseInt, hdrop]
        show (if u = unit '-' then _ else if u = unit '+' then _
          else (leadingNat (u :: rest)).map fun n : ℕ => (n : ℤ)) = some z
        rw [if_neg hminus, if_neg hplus, hread, Option.map_some]
        congr 1
        omega

end A2aAgentLayer.Lib.JsText
