import Mathlib.Data.Int.Notation
import Mathlib.Data.List.DropRight
import Mathlib.Data.List.TakeWhile
import A2aAgentLayer.Lib.Utf16

/-!
# Finite numbers and their text

`Number::toString` picks for a finite number the decimal `0.d₁d₂…dₖ · 10ⁿ` with the fewest digits
that reads back as that number, and lays it out in one of five ways.  A finite number is represented
here by that decimal; it has no leading and no trailing zero digit, and `0` and `-0` are one value
because both print as `0`.  `numberText` is the layout; `readNumber` undoes it, so two numbers with
one text are equal, also in front of further text that cannot continue a number.
-/

namespace A2aAgentLayer.Lib.NumberText

open A2aAgentLayer.Lib.Utf16

/-- A finite number, by its sign, its significant decimal digits and the place of the decimal
point relative to the first of them. -/
structure JsNumber where
  negative : Bool
  digits : List (Fin 10)
  point : ℤ
  leading : digits.head? ≠ some 0
  trailing : digits.getLast? ≠ some 0
  zero : digits = [] → negative = false ∧ point = 0
  deriving DecidableEq

/-! ### Digits as code units -/

def digitUnit (d : Fin 10) : CodeUnit := UInt16.ofNat (48 + d.val)

def unitDigit (u : CodeUnit) : Fin 10 := Fin.ofNat 10 (u.toNat - 48)

def digitText (ds : List (Fin 10)) : JsString := ds.map digitUnit

theorem unitDigit_digitUnit : ∀ d : Fin 10, unitDigit (digitUnit d) = d := by decide

theorem isDigitUnit_digitUnit : ∀ d : Fin 10, isDigitUnit (digitUnit d) = true := by decide

theorem map_unitDigit_digitText (ds : List (Fin 10)) : (digitText ds).map unitDigit = ds := by
  rw [digitText, List.map_map]
  conv_rhs => rw [← List.map_id ds]
  exact List.map_congr_left fun d _ => unitDigit_digitUnit d

theorem all_isDigitUnit_digitText (ds : List (Fin 10)) :
    ∀ u ∈ digitText ds, isDigitUnit u = true := by
  intro u hu
  obtain ⟨d, _, rfl⟩ := List.mem_map.mp hu
  exact isDigitUnit_digitUnit d

/-! ### The five layouts -/

/-- The digits after the decimal point, with the point; no point when there are none. -/
def fractionText (ds : List (Fin 10)) : JsString :=
  if ds = [] then [] else unit '.' :: digitText ds

/-- The decimal exponent, with its sign. -/
def exponentText (e : ℤ) : JsString :=
  unit 'e' :: (if e < 0 then unit '-' else unit '+') :: natText e.natAbs

/-- The text of a positive number with digits `ds` and decimal point `n`. -/
def magnitudeText (ds : List (Fin 10)) (n : ℤ) : JsString :=
  if (ds.length : ℤ) ≤ n ∧ n ≤ 21 then
    digitText (ds ++ List.replicate (n - ds.length).toNat 0)
  else if 0 < n ∧ n ≤ 21 then
    digitText (ds.take n.toNat) ++ fractionText (ds.drop n.toNat)
  else if -6 < n ∧ n ≤ 0 then
    digitText [0] ++ fractionText (List.replicate (-n).toNat 0 ++ ds)
  else
    digitText (ds.take 1) ++ (fractionText (ds.drop 1) ++ exponentText (n - 1))

/-- The text of a number. -/
def numberText (x : JsNumber) : JsString :=
  if x.digits = [] then [unit '0']
  else if x.negative then unit '-' :: magnitudeText x.digits x.point
  else magnitudeText x.digits x.point

/-! ### Reading the text back -/

/-- The digits after a decimal point, if the text starts with one, and what follows them. -/
def splitFraction : JsString → JsString × JsString
  | u :: rest =>
      if u = unit '.' then (rest.takeWhile isDigitUnit, rest.dropWhile isDigitUnit)
      else ([], u :: rest)
  | [] => ([], [])

/-- The exponent a text states, zero if it states none. -/
def readExponent : JsString → ℤ
  | _ :: sign :: digits =>
      if sign = unit '-' then -(readNat digits : ℤ) else (readNat digits : ℤ)
  | _ => 0

/-- Drop leading zeros, moving the point, and then trailing zeros. -/
def normalize (ds : List (Fin 10)) (n : ℤ) : List (Fin 10) × ℤ :=
  ((ds.dropWhile (· = 0)).rdropWhile (· = 0), n - (ds.takeWhile (· = 0)).length)

def readMagnitude (text : JsString) : List (Fin 10) × ℤ :=
  let whole := text.takeWhile isDigitUnit
  let fraction := splitFraction (text.dropWhile isDigitUnit)
  normalize ((whole ++ fraction.1).map unitDigit) (whole.length + readExponent fraction.2)

/-! ### Round trip -/

/-- `rest` cannot continue a run of digits. -/
def StopsDigits (rest : JsString) : Prop := ∀ u ∈ rest.head?, isDigitUnit u = false

theorem takeWhile_digitText (ds : List (Fin 10)) {rest : JsString} (h : StopsDigits rest) :
    (digitText ds ++ rest).takeWhile isDigitUnit = digitText ds := by
  rw [List.takeWhile_append_of_pos (all_isDigitUnit_digitText ds)]
  cases rest with
  | nil => simp
  | cons u rest => simp [show isDigitUnit u = false from h u rfl]

theorem dropWhile_digitText (ds : List (Fin 10)) {rest : JsString} (h : StopsDigits rest) :
    (digitText ds ++ rest).dropWhile isDigitUnit = rest := by
  rw [List.dropWhile_append_of_pos (all_isDigitUnit_digitText ds)]
  cases rest with
  | nil => simp
  | cons u rest => simp [show isDigitUnit u = false from h u rfl]

/-- Reading digits, fraction and exponent in this order. -/
theorem readMagnitude_parts (a b : List (Fin 10)) {e : JsString}
    (he : ∀ u ∈ e.head?, u = unit 'e') :
    readMagnitude (digitText a ++ (fractionText b ++ e))
      = normalize (a ++ b) (a.length + readExponent e) := by
  have hstop : StopsDigits e := by
    intro u hu
    rw [he u hu]
    decide
  have hsplit : splitFraction (fractionText b ++ e) = (digitText b, e) := by
    unfold fractionText
    split
    · rename_i hb
      subst hb
      cases e with
      | nil => rfl
      | cons u e =>
          have hu : u ≠ unit '.' := by
            rw [he u rfl]
            decide
          simp [splitFraction, hu, digitText]
    · simp [splitFraction, takeWhile_digitText b hstop, dropWhile_digitText b hstop]
  have hstop' : StopsDigits (fractionText b ++ e) := by
    unfold fractionText
    split
    · exact hstop
    · intro u hu
      obtain rfl : unit '.' = u := by simpa using hu
      decide
  simp only [readMagnitude, takeWhile_digitText a hstop', dropWhile_digitText a hstop', hsplit,
    List.map_append, map_unitDigit_digitText]
  rw [digitText, List.length_map]

theorem normalize_zeros (k : ℕ) {ds : List (Fin 10)} (j : ℕ) (n : ℤ) (hne : ds ≠ [])
    (hl : ds.head? ≠ some 0) (ht : ds.getLast? ≠ some 0) :
    normalize (List.replicate k 0 ++ ds ++ List.replicate j 0) n = (ds, n - k) := by
  obtain ⟨d, ds, rfl⟩ := List.exists_cons_of_ne_nil hne
  have hd : d ≠ 0 := by simpa using hl
  have htake : (List.replicate k (0 : Fin 10) ++ (d :: ds) ++ List.replicate j 0).takeWhile (· = 0)
      = List.replicate k 0 := by
    rw [List.append_assoc, List.takeWhile_append_of_pos (by simp)]
    simp [hd]
  have hdrop : (List.replicate k (0 : Fin 10) ++ (d :: ds) ++ List.replicate j 0).dropWhile (· = 0)
      = d :: ds ++ List.replicate j 0 := by
    rw [List.append_assoc, List.dropWhile_append_of_pos (by simp)]
    simp [hd]
  have hrdrop : (d :: ds ++ List.replicate j (0 : Fin 10)).rdropWhile (· = 0) = d :: ds := by
    clear htake hdrop
    induction j with
    | zero =>
        rw [List.replicate_zero, List.append_nil, List.rdropWhile_eq_self_iff]
        intro hne
        rw [List.getLast?_eq_some_getLast hne] at ht
        simpa using ht
    | succ j ih =>
        rw [List.replicate_succ', ← List.append_assoc, List.rdropWhile_concat_pos _ _ _ (by simp)]
        exact ih
  rw [normalize, htake, hdrop, hrdrop, List.length_replicate]

theorem readExponent_nil : readExponent [] = 0 := rfl

theorem readExponent_exponentText (e : ℤ) : readExponent (exponentText e) = e := by
  unfold exponentText
  by_cases h : e < 0
  · rw [if_pos h, readExponent, if_pos rfl, readNat_natText]
    omega
  · rw [if_neg h, readExponent, if_neg (by decide), readNat_natText]
    omega

/-- **The layout is reversible.** -/
theorem readMagnitude_magnitudeText {ds : List (Fin 10)} (n : ℤ) (hne : ds ≠ [])
    (hl : ds.head? ≠ some 0) (ht : ds.getLast? ≠ some 0) :
    readMagnitude (magnitudeText ds n) = (ds, n) := by
  have hlen : 0 < ds.length := List.length_pos_iff.mpr hne
  -- it is enough to exhibit the three parts of the text and the zeros around the digits
  have hparts : ∀ (a b : List (Fin 10)) (e : JsString) (k j : ℕ),
      magnitudeText ds n = digitText a ++ (fractionText b ++ e) →
      (∀ u ∈ e.head?, u = unit 'e') →
      a ++ b = List.replicate k 0 ++ ds ++ List.replicate j 0 →
      (a.length : ℤ) + readExponent e - k = n →
      readMagnitude (magnitudeText ds n) = (ds, n) := by
    intro a b e k j htext he hab hn
    rw [htext, readMagnitude_parts a b he, hab, normalize_zeros k j _ hne hl ht, hn]
  by_cases h₁ : (ds.length : ℤ) ≤ n ∧ n ≤ 21
  · refine hparts (ds ++ List.replicate (n - ds.length).toNat 0) [] [] 0 (n - ds.length).toNat
      ?_ (by simp) (by simp) ?_
    · simp [magnitudeText, h₁, fractionText]
    · rw [List.length_append, List.length_replicate, readExponent_nil]
      omega
  by_cases h₂ : 0 < n ∧ n ≤ 21
  · refine hparts (ds.take n.toNat) (ds.drop n.toNat) [] 0 0 ?_ (by simp) (by simp) ?_
    · rw [magnitudeText, if_neg h₁, if_pos h₂, List.append_nil]
    · rw [List.length_take, readExponent_nil]
      omega
  by_cases h₃ : -6 < n ∧ n ≤ 0
  · refine hparts [0] (List.replicate (-n).toNat 0 ++ ds) [] ((-n).toNat + 1) 0 ?_ (by simp) ?_ ?_
    · rw [magnitudeText, if_neg h₁, if_neg h₂, if_pos h₃, List.append_nil]
    · simp [List.replicate_succ]
    · rw [List.length_singleton, readExponent_nil]
      omega
  · refine hparts (ds.take 1) (ds.drop 1) (exponentText (n - 1)) 0 0 ?_ ?_
      (by rw [List.take_append_drop]; simp) ?_
    · rw [magnitudeText, if_neg h₁, if_neg h₂, if_neg h₃]
    · intro u hu
      exact (Option.some.inj hu).symm
    · rw [List.length_take, readExponent_exponentText]
      omega

/-! ### Numbers inside longer text -/

/-- The units a number's text is made of. -/
def isNumberUnit (u : CodeUnit) : Bool :=
  isDigitUnit u || u == unit '.' || u == unit 'e' || u == unit '+' || u == unit '-'

theorem isNumberUnit_of_digit {u : CodeUnit} (h : isDigitUnit u = true) :
    isNumberUnit u = true := by
  simp [isNumberUnit, h]

theorem all_isNumberUnit_magnitudeText (ds : List (Fin 10)) (n : ℤ) :
    ∀ u ∈ magnitudeText ds n, isNumberUnit u = true := by
  have hdigits : ∀ (ds : List (Fin 10)), ∀ u ∈ digitText ds, isNumberUnit u = true :=
    fun ds u hu => isNumberUnit_of_digit (all_isDigitUnit_digitText ds u hu)
  have hfraction : ∀ (ds : List (Fin 10)), ∀ u ∈ fractionText ds, isNumberUnit u = true := by
    intro ds u hu
    unfold fractionText at hu
    split at hu
    · cases hu
    · rcases List.mem_cons.mp hu with rfl | hu
      · decide
      · exact hdigits ds u hu
  have hexponent : ∀ (e : ℤ), ∀ u ∈ exponentText e, isNumberUnit u = true := by
    intro e u hu
    unfold exponentText at hu
    rcases List.mem_cons.mp hu with rfl | hu
    · decide
    rcases List.mem_cons.mp hu with rfl | hu
    · split <;> decide
    · exact isNumberUnit_of_digit (digit_of_mem_natText hu)
  intro u hu
  unfold magnitudeText at hu
  split at hu
  · exact hdigits _ u hu
  split at hu
  · exact (List.mem_append.mp hu).elim (hdigits _ u) (hfraction _ u)
  split at hu
  · exact (List.mem_append.mp hu).elim (hdigits _ u) (hfraction _ u)
  · rcases List.mem_append.mp hu with hu | hu
    · exact hdigits _ u hu
    · exact (List.mem_append.mp hu).elim (hfraction _ u) (hexponent _ u)

theorem all_isNumberUnit_numberText (x : JsNumber) : ∀ u ∈ numberText x, isNumberUnit u = true := by
  intro u hu
  unfold numberText at hu
  split at hu
  · obtain rfl := List.mem_singleton.mp hu
    decide
  split at hu
  · rcases List.mem_cons.mp hu with rfl | hu
    · decide
    · exact all_isNumberUnit_magnitudeText _ _ u hu
  · exact all_isNumberUnit_magnitudeText _ _ u hu

/-- A positive number's text starts with a digit. -/
theorem head?_magnitudeText {ds : List (Fin 10)} (n : ℤ) (hne : ds ≠ []) :
    ∃ d : Fin 10, (magnitudeText ds n).head? = some (digitUnit d) := by
  obtain ⟨d, ds, rfl⟩ := List.exists_cons_of_ne_nil hne
  unfold magnitudeText
  split
  · exact ⟨d, rfl⟩
  split
  · rename_i h
    obtain ⟨m, hm⟩ : ∃ m, n.toNat = m + 1 := ⟨n.toNat - 1, by omega⟩
    exact ⟨d, by rw [hm]; rfl⟩
  split
  · exact ⟨0, rfl⟩
  · exact ⟨d, rfl⟩

/-- The sign, the digits and the decimal point a text states. -/
def readNumber (text : JsString) : Bool × List (Fin 10) × ℤ :=
  if text.head? = some (unit '-') then (true, readMagnitude text.tail)
  else (false, readMagnitude text)

theorem readNumber_numberText (x : JsNumber) :
    readNumber (numberText x) = (x.negative, x.digits, x.point) := by
  unfold numberText
  by_cases h : x.digits = []
  · rw [if_pos h, h, (x.zero h).1, (x.zero h).2]
    decide
  have hmag := readMagnitude_magnitudeText x.point h x.leading x.trailing
  rw [if_neg h]
  cases hneg : x.negative with
  | true =>
      rw [if_pos rfl, readNumber, List.head?_cons, if_pos rfl, List.tail_cons, hmag]
  | false =>
      obtain ⟨d, hd⟩ := head?_magnitudeText x.point h
      have hminus : ∀ d : Fin 10, some (digitUnit d) ≠ some (unit '-') := by decide
      rw [if_neg (by simp), readNumber, hd, if_neg (hminus d), hmag]

/-- **A number is determined by its text.** -/
theorem numberText_inj {x y : JsNumber} (h : numberText x = numberText y) : x = y := by
  have hread : readNumber (numberText x) = readNumber (numberText y) := by rw [h]
  rw [readNumber_numberText, readNumber_numberText] at hread
  cases x
  cases y
  simp only [Prod.mk.injEq] at hread
  simp [hread.1, hread.2.1, hread.2.2]

/-- `rest` cannot continue a number. -/
def StopsNumber (rest : JsString) : Prop := ∀ u ∈ rest.head?, isNumberUnit u = false

/-- **Numbers are self-delimiting in front of a unit no number contains.** -/
theorem numberText_append_inj {x y : JsNumber} {r r' : JsString} (hr : StopsNumber r)
    (hr' : StopsNumber r') (h : numberText x ++ r = numberText y ++ r') : x = y ∧ r = r' := by
  have htake : ∀ (z : JsNumber) (t : JsString), StopsNumber t →
      (numberText z ++ t).takeWhile isNumberUnit = numberText z := by
    intro z t ht
    rw [List.takeWhile_append_of_pos (all_isNumberUnit_numberText z)]
    cases t with
    | nil => simp
    | cons u t => simp [show isNumberUnit u = false from ht u rfl]
  have htext : numberText x = numberText y := by rw [← htake x r hr, h, htake y r' hr']
  rw [htext] at h
  exact ⟨numberText_inj htext, List.append_cancel_left h⟩

/-- A number's text is not empty and starts like a number. -/
theorem numberText_head (x : JsNumber) :
    ∃ u t, numberText x = u :: t ∧ isNumberUnit u = true := by
  have hne : numberText x ≠ [] := by
    unfold numberText
    split
    · simp
    split
    · simp
    · rename_i h _
      obtain ⟨d, hd⟩ := head?_magnitudeText x.point h
      intro hnil
      rw [hnil] at hd
      cases hd
  obtain ⟨u, t, htext⟩ := List.exists_cons_of_ne_nil hne
  exact ⟨u, t, htext, all_isNumberUnit_numberText x u (htext ▸ List.mem_cons_self)⟩

/-! ### Numbers from decimal digits -/

theorem head?_dropWhile (ds : List (Fin 10)) : (ds.dropWhile (· = 0)).head? ≠ some 0 := by
  intro h
  have hnot := List.head?_dropWhile_not (fun d : Fin 10 => decide (d = 0)) ds
  rw [h] at hnot
  simp at hnot

/-- The number with the given decimal digits and decimal point. -/
def JsNumber.ofDigits (ds : List (Fin 10)) (n : ℤ) : JsNumber where
  negative := false
  digits := (normalize ds n).1
  point := if (normalize ds n).1 = [] then 0 else (normalize ds n).2
  leading := by
    rw [normalize]
    intro h
    obtain ⟨rest, hrest⟩ := List.rdropWhile_prefix (fun d : Fin 10 => decide (d = 0))
      (ds.dropWhile (· = 0))
    refine head?_dropWhile ds ?_
    rw [← hrest, List.head?_append, h, Option.some_or]
  trailing := by
    rw [normalize]
    intro h
    have hne := List.ne_nil_of_mem (List.mem_of_getLast? h)
    have hlast := List.rdropWhile_last_not (fun d : Fin 10 => decide (d = 0)) _ hne
    rw [List.getLast?_eq_some_getLast hne, Option.some.injEq] at h
    simp [h] at hlast
  zero := fun h => ⟨rfl, if_pos h⟩

def JsNumber.ofNat (n : ℕ) : JsNumber :=
  JsNumber.ofDigits ((natText n).map unitDigit) (natText n).length

example : numberText (JsNumber.ofNat 1200) = js "1200" := by decide

end A2aAgentLayer.Lib.NumberText
