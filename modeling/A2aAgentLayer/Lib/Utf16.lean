import Mathlib.Data.List.Lex
import Mathlib.Data.Nat.Notation

/-!
# JavaScript strings

A JavaScript string is a sequence of UTF-16 code units.  It need not be well formed: a surrogate may
stand alone.  Strings are compared unit by unit, which is the order of `Array.prototype.sort`
without a comparator.  `utf8Encode` is what a byte sink makes of a string; it loses information only
on lone surrogates (`utf8Encode_inj`).
-/

namespace A2aAgentLayer.Lib.Utf16

/-- A UTF-16 code unit. -/
abbrev CodeUnit := UInt16

instance : LinearOrder CodeUnit where
  le_refl := UInt16.le_refl
  le_trans _ _ _ := UInt16.le_trans
  le_antisymm _ _ := UInt16.le_antisymm
  le_total := UInt16.le_total
  lt_iff_le_not_ge a b := by
    simp only [UInt16.lt_iff_toNat_lt, UInt16.le_iff_toNat_le]
    omega
  toDecidableLE := inferInstance

/-- A string value. -/
abbrev JsString := List CodeUnit

/-- The code unit of a character of the basic plane. -/
def unit (c : Char) : CodeUnit := UInt16.ofNat c.toNat

/-- The string of a literal whose characters are all in the basic plane. -/
def js (text : String) : JsString := text.toList.map unit

/-- The character a code unit outside the surrogates stands for. -/
def charOf (u : CodeUnit) : Char := Char.ofNat u.toNat

theorem unit_toNat {c : Char} (h : c.toNat < 65536) : (unit c).toNat = c.toNat := by
  rw [unit, UInt16.toNat_ofNat', Nat.mod_eq_of_lt h]

theorem charOf_unit {c : Char} (h : c.toNat < 65536) : charOf (unit c) = c := by
  rw [charOf, unit_toNat h, Char.ofNat_toNat]

/-! ### Decimal text -/

/-- Decimal text of a natural number, without leading zeros. -/
def natText (n : ℕ) : JsString := (Nat.toDigits 10 n).map unit

/-- Reading decimal text. -/
def readNat (text : JsString) : ℕ := Nat.ofDigitChars 10 (text.map charOf) 0

theorem isDigit_lt {c : Char} (h : c.isDigit = true) : c.toNat < 65536 := by
  simp only [Char.isDigit, Bool.and_eq_true, decide_eq_true_eq] at h
  exact lt_of_le_of_lt (UInt32.le_iff_toNat_le.mp h.2) (by decide)

theorem readNat_natText (n : ℕ) : readNat (natText n) = n := by
  have hround : ((Nat.toDigits 10 n).map unit).map charOf = Nat.toDigits 10 n := by
    rw [List.map_map]
    conv_rhs => rw [← List.map_id (Nat.toDigits 10 n)]
    exact List.map_congr_left fun c hc =>
      charOf_unit (isDigit_lt (Nat.isDigit_of_mem_toDigits (by decide) (by decide) hc))
  rw [readNat, natText, hround, Nat.ofDigitChars_ten_toDigits]

/-! ### Code units by class -/

def isDigitUnit (u : CodeUnit) : Bool := unit '0' ≤ u && u ≤ unit '9'

def isHighSurrogate (u : CodeUnit) : Bool := 0xD800 ≤ u && u ≤ 0xDBFF

def isLowSurrogate (u : CodeUnit) : Bool := 0xDC00 ≤ u && u ≤ 0xDFFF

/-- The units `.` does not match in a regular expression without the `s` flag. -/
def isLineTerminator (u : CodeUnit) : Bool :=
  u == unit '\n' || u == unit '\r' || u == 0x2028 || u == 0x2029

theorem isDigitUnit_iff {u : CodeUnit} : isDigitUnit u = true ↔ 48 ≤ u.toNat ∧ u.toNat ≤ 57 := by
  simp only [isDigitUnit, Bool.and_eq_true, decide_eq_true_eq, UInt16.le_iff_toNat_le]
  rfl

theorem isHighSurrogate_iff {u : CodeUnit} :
    isHighSurrogate u = true ↔ 0xD800 ≤ u.toNat ∧ u.toNat ≤ 0xDBFF := by
  simp only [isHighSurrogate, Bool.and_eq_true, decide_eq_true_eq, UInt16.le_iff_toNat_le]
  rfl

theorem isLowSurrogate_iff {u : CodeUnit} :
    isLowSurrogate u = true ↔ 0xDC00 ≤ u.toNat ∧ u.toNat ≤ 0xDFFF := by
  simp only [isLowSurrogate, Bool.and_eq_true, decide_eq_true_eq, UInt16.le_iff_toNat_le]
  rfl

theorem digit_of_mem_natText {n : ℕ} {u : CodeUnit} (h : u ∈ natText n) : isDigitUnit u = true := by
  obtain ⟨c, hc, rfl⟩ := List.mem_map.mp h
  have hd := Nat.isDigit_of_mem_toDigits (by decide) (by decide) hc
  have hlt := isDigit_lt hd
  simp only [Char.isDigit, Bool.and_eq_true, decide_eq_true_eq, UInt32.le_iff_toNat_le] at hd
  rw [isDigitUnit_iff, unit_toNat hlt]
  exact hd

/-! ### Well-formed strings and UTF-8 -/

/-- Every high surrogate is followed by a low one, and no low surrogate stands alone. -/
def wellFormed : JsString → Bool
  | [] => true
  | [u] => !isHighSurrogate u && !isLowSurrogate u
  | u :: v :: rest =>
      if isHighSurrogate u then isLowSurrogate v && wellFormed rest
      else !isLowSurrogate u && wellFormed (v :: rest)

theorem wellFormed_append {s t : JsString} (hs : wellFormed s = true) (ht : wellFormed t = true) :
    wellFormed (s ++ t) = true := by
  fun_induction wellFormed s with
  | case1 => exact ht
  | case2 u =>
      cases t with
      | nil => simpa [wellFormed] using hs
      | cons v t =>
          simp only [Bool.and_eq_true, Bool.not_eq_true'] at hs
          simp [wellFormed, hs.1, hs.2, ht]
  | case3 u v rest hu ih =>
      simp only [Bool.and_eq_true] at hs
      simp [wellFormed, hu, hs.1, ih hs.2]
  | case4 u v rest hu ih =>
      simp only [Bool.and_eq_true, Bool.not_eq_true'] at hs
      have hrest := ih hs.2
      rw [List.cons_append] at hrest
      simp [wellFormed, hu, hs.1, hrest]

theorem wellFormed_of_forall {s : JsString}
    (h : ∀ u ∈ s, isHighSurrogate u = false ∧ isLowSurrogate u = false) : wellFormed s = true := by
  induction s with
  | nil => rfl
  | cons u s ih =>
      rw [List.forall_mem_cons] at h
      exact wellFormed_append (s := [u]) (by simp [wellFormed, h.1]) (ih h.2)

/-- The character a surrogate pair stands for. -/
def pairChar (u v : CodeUnit) : Char :=
  Char.ofNat (0x10000 + (u.toNat - 0xD800) * 0x400 + (v.toNat - 0xDC00))

/-- The characters of a string; a lone surrogate reads as U+FFFD. -/
def scalars : JsString → List Char
  | [] => []
  | [u] => [if isHighSurrogate u || isLowSurrogate u then Char.ofNat 0xFFFD else charOf u]
  | u :: v :: rest =>
      if isHighSurrogate u then
        if isLowSurrogate v then pairChar u v :: scalars rest
        else Char.ofNat 0xFFFD :: scalars (v :: rest)
      else if isLowSurrogate u then Char.ofNat 0xFFFD :: scalars (v :: rest)
      else charOf u :: scalars (v :: rest)

/-- The code units of a character. -/
def unitsOf (c : Char) : JsString :=
  if c.toNat < 0x10000 then [unit c]
  else [UInt16.ofNat (0xD800 + (c.toNat - 0x10000) / 0x400),
    UInt16.ofNat (0xDC00 + (c.toNat - 0x10000) % 0x400)]

theorem toNat_ofNat_of_valid {n : ℕ} (h : n.isValidChar) : (Char.ofNat n).toNat = n := by
  rw [Char.ofNat, dif_pos h]
  rfl

theorem unitsOf_charOf {u : CodeUnit} (hh : isHighSurrogate u = false)
    (hl : isLowSurrogate u = false) : unitsOf (charOf u) = [u] := by
  have hh := mt isHighSurrogate_iff.mpr (Bool.eq_false_iff.mp hh)
  have hl := mt isLowSurrogate_iff.mpr (Bool.eq_false_iff.mp hl)
  have hlt := u.toNat_lt
  have hvalid : u.toNat.isValidChar := by
    unfold Nat.isValidChar
    omega
  have hnat : (charOf u).toNat = u.toNat := toNat_ofNat_of_valid hvalid
  rw [unitsOf, if_pos (by rw [hnat]; exact hlt), unit, hnat, UInt16.ofNat_toNat]

theorem unitsOf_pairChar {u v : CodeUnit} (hu : isHighSurrogate u = true)
    (hv : isLowSurrogate v = true) : unitsOf (pairChar u v) = [u, v] := by
  have hu := isHighSurrogate_iff.mp hu
  have hv := isLowSurrogate_iff.mp hv
  have hvalid : (0x10000 + (u.toNat - 0xD800) * 0x400 + (v.toNat - 0xDC00)).isValidChar := by
    unfold Nat.isValidChar
    omega
  have hnat : (pairChar u v).toNat
      = 0x10000 + (u.toNat - 0xD800) * 0x400 + (v.toNat - 0xDC00) := toNat_ofNat_of_valid hvalid
  have hhigh : 0xD800 + ((pairChar u v).toNat - 0x10000) / 0x400 = u.toNat := by
    rw [hnat]
    omega
  have hlow : 0xDC00 + ((pairChar u v).toNat - 0x10000) % 0x400 = v.toNat := by
    rw [hnat]
    omega
  rw [unitsOf, if_neg (by rw [hnat]; omega), hhigh, hlow, UInt16.ofNat_toNat, UInt16.ofNat_toNat]

/-- A well-formed string is recovered from its characters. -/
theorem flatMap_unitsOf_scalars {s : JsString} (h : wellFormed s = true) :
    (scalars s).flatMap unitsOf = s := by
  fun_induction scalars s with
  | case1 => rfl
  | case2 u =>
      simp only [wellFormed, Bool.and_eq_true, Bool.not_eq_true'] at h
      simp [h.1, h.2, unitsOf_charOf h.1 h.2]
  | case3 u v rest hu hv ih =>
      simp only [wellFormed, hu, if_true, Bool.and_eq_true] at h
      rw [List.flatMap_cons, unitsOf_pairChar hu hv, ih h.2]
      rfl
  | case4 u v rest hu hv ih =>
      simp [wellFormed, hu, hv] at h
  | case5 u v rest hu hl ih =>
      simp [wellFormed, hu, hl] at h
  | case6 u v rest hu hl ih =>
      simp only [wellFormed, hu, Bool.false_eq_true, if_false, Bool.and_eq_true] at h
      rw [List.flatMap_cons, ih h.2, unitsOf_charOf (by simpa using hu) (by simpa using hl)]
      rfl

/-- The UTF-8 bytes of a string. -/
def utf8Encode (s : JsString) : ByteArray := (String.ofList (scalars s)).toByteArray

/-- **UTF-8 keeps well-formed strings apart.** -/
theorem utf8Encode_inj {s t : JsString} (hs : wellFormed s = true) (ht : wellFormed t = true)
    (h : utf8Encode s = utf8Encode t) : s = t := by
  have hchars : scalars s = scalars t := String.ofList_injective (String.toByteArray_inj.mp h)
  rw [← flatMap_unitsOf_scalars hs, hchars, flatMap_unitsOf_scalars ht]

/-- A string that reads without replacement characters has no lone surrogate. -/
theorem wellFormed_of_scalars {s : JsString} (h : Char.ofNat 0xFFFD ∉ scalars s) :
    wellFormed s = true := by
  fun_induction scalars s with
  | case1 => rfl
  | case2 u =>
      by_cases hu : (isHighSurrogate u || isLowSurrogate u) = true
      · simp [hu] at h
      · simpa [wellFormed] using hu
  | case3 u v rest hu hv ih =>
      simp [wellFormed, hu, hv, ih fun hmem => h (List.mem_cons_of_mem _ hmem)]
  | case4 u v rest hu hv ih => simp at h
  | case5 u v rest hu hl ih => simp at h
  | case6 u v rest hu hl ih =>
      simp [wellFormed, hu, hl, ih fun hmem => h (List.mem_cons_of_mem _ hmem)]

/-- **Any string with the UTF-8 bytes of a well-formed one without U+FFFD is that string.** -/
theorem eq_of_utf8Encode_eq {s t : JsString} (ht : wellFormed t = true)
    (hreplacement : (0xFFFD : CodeUnit) ∉ t) (h : utf8Encode s = utf8Encode t) : s = t := by
  have hchars : scalars s = scalars t := String.ofList_injective (String.toByteArray_inj.mp h)
  refine utf8Encode_inj (wellFormed_of_scalars fun hmem => hreplacement ?_) ht h
  rw [← flatMap_unitsOf_scalars ht, ← hchars]
  exact List.mem_flatMap.mpr ⟨_, hmem, by decide⟩

end A2aAgentLayer.Lib.Utf16
