import Mathlib.Data.Nat.Log
import A2aAgentLayer.Lib.NumberText

/-!
# Whole numbers as doubles

What `Number` makes of the text of a whole number: the nearest double, ties to the even one.  It is
exact below `2 ^ 53` and never falls below `2 ^ 53` for anything larger.  Back to text, a double has
the fewest digits that read as it (`wholeText`).
-/

namespace A2aAgentLayer.Lib.WholeDouble

open A2aAgentLayer.Lib.Utf16 A2aAgentLayer.Lib.NumberText

/-- A double that stands for a whole number, or an infinity. -/
inductive Double where
  | whole (value : ℤ)
  | infinity (negative : Bool)
  deriving DecidableEq

/-- The multiple of `step` nearest to `n`, the even one of two. -/
def roundTo (step n : ℕ) : ℕ :=
  let quotient := n / step
  let rest := n % step
  if 2 * rest < step ∨ 2 * rest = step ∧ quotient % 2 = 0 then quotient * step
  else (quotient + 1) * step

/-- The distance between neighbouring doubles with the leading bit of `n`; there are 53 bits. -/
def spacing (n : ℕ) : ℕ := 1 <<< (n.log2 - 52)

/-- `Number` of the text of a whole number. -/
def number (n : ℤ) : Double :=
  let magnitude := roundTo (spacing n.natAbs) n.natAbs
  if magnitude < 1 <<< 1024 then .whole (if n < 0 then -(magnitude : ℤ) else magnitude)
  else .infinity (decide (n < 0))

example : number 9007199254740993 = .whole 9007199254740992 := by decide

/-- The multiple of `step` that reads as the double `n`, the closer one of two. -/
def readingMultiple (step n : ℕ) : Option ℕ :=
  let low := n / step * step
  let high := low + step
  if number low = .whole n ∧ (number high = .whole n → roundTo step n = low) then some low
  else if number high = .whole n then some high
  else none

/-- The number with the fewest digits that reads as the double `n`. -/
def shortest (n : ℕ) : ℕ :=
  let zeros := (List.range (n.log2 + 1)).reverse
  (zeros.findSome? fun count => readingMultiple (Nat.pow 10 count) n).getD n

/-- `Number::toString` of the double `n`. -/
def wholeText (n : ℕ) : JsString := numberText (.ofNat (shortest n))

example : wholeText 12345678901234567168 = js "12345678901234567000" := by decide +kernel

theorem roundTo_one (n : ℕ) : roundTo 1 n = n := by
  simp only [roundTo]
  rw [Nat.div_one, Nat.mod_one, if_pos (by omega), Nat.mul_one]

theorem le_roundTo (step n : ℕ) : n / step * step ≤ roundTo step n := by
  have hnext : n / step * step ≤ (n / step + 1) * step :=
    Nat.mul_le_mul_right step (Nat.le_succ _)
  simp only [roundTo]
  split_ifs
  · exact le_refl _
  · exact hnext

theorem spacing_of_lt {n : ℕ} (h : n < 9007199254740992) : spacing n = 1 := by
  have hlog : n.log2 < 53 := by
    by_cases hzero : n = 0
    · rw [hzero, Nat.log2_zero]
      omega
    · rw [Nat.log2_lt hzero]
      exact h
  rw [spacing, Nat.sub_eq_zero_of_le (by omega)]
  rfl

/-- **Below `2 ^ 53` nothing is rounded.** -/
theorem number_of_lt {n : ℤ} (h : n.natAbs < 9007199254740992) : number n = .whole n := by
  have hbound : (9007199254740992 : ℕ) ≤ 1 <<< 1024 := by decide
  simp only [number]
  rw [spacing_of_lt h, roundTo_one, if_pos (lt_of_lt_of_le h hbound)]
  congr 1
  split_ifs with hneg
  · omega
  · omega

/-- The leading bit of a number survives its rounding. -/
theorem two_pow_log2_le_roundTo {n : ℕ} (hn : n ≠ 0) :
    1 <<< n.log2 ≤ roundTo (spacing n) n := by
  have hpow : 1 <<< n.log2 = 1 <<< (n.log2 - (n.log2 - 52)) * spacing n := by
    simp only [spacing, Nat.shiftLeft_eq, Nat.one_mul, ← Nat.pow_add]
    congr 1
    omega
  have hle : 1 <<< n.log2 ≤ n := by
    rw [Nat.shiftLeft_eq, Nat.one_mul]
    exact Nat.log2_self_le hn
  have hstep : 0 < spacing n := by
    rw [spacing, Nat.shiftLeft_eq, Nat.one_mul]
    exact Nat.two_pow_pos _
  have hquotient : 1 <<< (n.log2 - (n.log2 - 52)) ≤ n / spacing n := by
    rw [Nat.le_div_iff_mul_le hstep, ← hpow]
    exact hle
  calc 1 <<< n.log2 = 1 <<< (n.log2 - (n.log2 - 52)) * spacing n := hpow
    _ ≤ n / spacing n * spacing n := Nat.mul_le_mul_right _ hquotient
    _ ≤ roundTo (spacing n) n := le_roundTo _ _

/-- **From `2 ^ 53` on the double is that large as well.** -/
theorem le_natAbs_of_number {n m : ℤ} (h : 9007199254740992 ≤ n.natAbs)
    (hnumber : number n = .whole m) : 9007199254740992 ≤ m.natAbs := by
  have hn : n.natAbs ≠ 0 := by omega
  have hlog : 53 ≤ n.natAbs.log2 := (Nat.le_log2 hn).mpr h
  have hlead : 9007199254740992 ≤ 1 <<< n.natAbs.log2 := by
    rw [Nat.shiftLeft_eq, Nat.one_mul]
    exact Nat.pow_le_pow_right (n := 2) (by omega) hlog
  have hround := hlead.trans (two_pow_log2_le_roundTo hn)
  simp only [number] at hnumber
  split_ifs at hnumber with hfinite hneg
  · rw [← Double.whole.inj hnumber]
    omega
  · rw [← Double.whole.inj hnumber]
    omega

-- unfolding the comparison with `2 ^ 1024` on an open term never ends
attribute [irreducible] number

end A2aAgentLayer.Lib.WholeDouble
