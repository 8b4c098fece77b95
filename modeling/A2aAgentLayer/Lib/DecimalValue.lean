import A2aAgentLayer.Lib.NumberText
import Mathlib.Algebra.Order.Field.Rat
import Mathlib.Tactic.NormNum
import Mathlib.Tactic.Positivity

/-!
# The values of decimals

The rational number that a finite JavaScript number prints as, and the one that a fixed-point text
states.
-/

namespace A2aAgentLayer.Lib.DecimalValue

open A2aAgentLayer.Lib.Utf16 A2aAgentLayer.Lib.NumberText

/-- The number with these decimal digits. -/
def ofDigits (ds : List (Fin 10)) : ℕ := ds.foldl (fun n d => n * 10 + d.val) 0

/-- `± 0.d₁d₂…dₖ · 10ⁿ`. -/
def value (x : JsNumber) : ℚ :=
  (if x.negative then -1 else 1) * ofDigits x.digits * 10 ^ (x.point - x.digits.length)

/-- The number that a text of digits with a point states. -/
def fixedValue (text : JsString) : ℚ :=
  let whole := text.takeWhile isDigitUnit
  let fraction := (text.dropWhile isDigitUnit).drop 1
  readNat (whole ++ fraction) / 10 ^ fraction.length

theorem value_of_zero {x : JsNumber} (h : x.digits = []) : value x = 0 := by
  rw [value, h, ofDigits, List.foldl_nil, Nat.cast_zero, mul_zero, zero_mul]

/-! ### Reading digits -/

theorem readNat_append (s t : JsString) :
    readNat (s ++ t) = 10 ^ t.length * readNat s + readNat t := by
  rw [readNat, List.map_append, Nat.ofDigitChars_append, Nat.ofDigitChars_eq_ofDigitChars_zero,
    List.length_map]
  rfl

theorem readNat_zeros (n : ℕ) : readNat (List.replicate n (unit '0')) = 0 := by
  rw [readNat, List.map_replicate]
  have hzero : charOf (unit '0') = '0' := by decide
  rw [hzero, Nat.ofDigitChars_replicate_zero, Nat.mul_zero]

/-- Digits in front of the point and behind it. -/
theorem fixedValue_append {whole : JsString} (hwhole : ∀ u ∈ whole, isDigitUnit u = true)
    (fraction : JsString) :
    fixedValue (whole ++ unit '.' :: fraction)
      = readNat (whole ++ fraction) / 10 ^ fraction.length := by
  have hpoint : isDigitUnit (unit '.') = false := by decide
  have hfront : (whole ++ unit '.' :: fraction).takeWhile isDigitUnit = whole := by
    rw [List.takeWhile_append_of_pos hwhole, List.takeWhile_cons, hpoint, if_neg Bool.false_ne_true,
      List.append_nil]
  have hback : (whole ++ unit '.' :: fraction).dropWhile isDigitUnit = unit '.' :: fraction := by
    rw [List.dropWhile_append_of_pos hwhole, List.dropWhile_cons, hpoint,
      if_neg Bool.false_ne_true]
  rw [fixedValue, hfront, hback]
  rfl

end A2aAgentLayer.Lib.DecimalValue
