import A2aAgentLayer.Auth.SingleUse
import A2aAgentLayer.Common.SanitizePipe
import A2aAgentLayer.Lib.DecimalValue
import Mathlib.Algebra.Order.Floor.Ring
import Mathlib.Data.Rat.Floor

/-!
# How the JWT library reads a duration

The library reads a text through the `ms` package: a number, spaces, and a unit from milliseconds to
years in a short or a long spelling, in either case; without a unit the number is milliseconds.  A
token signed at a second `iat` expires at `iat + ms / 1000`, rounded down.

`parseExpiresIn` of the service reads whole seconds, minutes, hours and days in the short spelling
and takes everything else for an hour.  Numbers are exact here.
-/

namespace A2aAgentLayer.Auth.TokenDurations

open A2aAgentLayer.Lib.Utf16 A2aAgentLayer.Lib.JsText A2aAgentLayer.Lib.DecimalValue
open A2aAgentLayer.Common.SanitizePipe (lower)
open A2aAgentLayer.Auth.RefreshToken A2aAgentLayer.Auth.SingleUse

/-! ### The package `ms` -/

/-- The spellings of each unit and its milliseconds; a year is 365.25 days. -/
def units : List (List JsString × ℕ) :=
  [ ([js "milliseconds", js "millisecond", js "msecs", js "msec", js "ms"], 1),
    ([js "seconds", js "second", js "secs", js "sec", js "s"], 1000),
    ([js "minutes", js "minute", js "mins", js "min", js "m"], 60000),
    ([js "hours", js "hour", js "hrs", js "hr", js "h"], 3600000),
    ([js "days", js "day", js "d"], 86400000),
    ([js "weeks", js "week", js "w"], 604800000),
    ([js "years", js "year", js "yrs", js "yr", js "y"], 31557600000) ]

/-- The milliseconds of a unit; no unit stands for milliseconds. -/
def unitMs (name : JsString) : Option ℕ :=
  if name.isEmpty then some 1
  else (units.find? fun u => u.1.contains (name.map lower)).map Prod.snd

/-- `(?:\d+)?\.?\d+`: the number at the front of a text, and what follows it. -/
def leadingNumber (text : JsString) : Option (ℚ × JsString) :=
  let whole := text.takeWhile isDigitUnit
  let rest := text.dropWhile isDigitUnit
  let fraction := rest.tail.takeWhile isDigitUnit
  if rest.head? = some (unit '.') ∧ fraction ≠ [] then
    some (fixedValue (whole ++ unit '.' :: fraction), rest.tail.dropWhile isDigitUnit)
  else if whole ≠ [] then some (readNat whole, rest)
  else none

/-- The milliseconds of a text, if it is a duration of at most 100 units. -/
def ms (text : JsString) : Option ℚ :=
  if 100 < text.length then none
  else
    let negative := decide (text.head? = some (unit '-'))
    (leadingNumber (if negative then text.tail else text)).bind fun (n, rest) =>
      (unitMs (rest.dropWhile (· == unit ' '))).map fun scale : ℕ =>
        (if negative then -n else n) * scale

/-- The seconds from `iat` to `exp`. -/
def timespan (text : JsString) : Option ℤ := (ms text).map fun span => ⌊span / 1000⌋

example : ms (js "-1.5 Hrs") = some (-5400000) := by decide +kernel

/-! ### Where the two readings agree -/

theorem unitMs_of_unitSeconds {u : CodeUnit} {n : ℤ} (h : unitSeconds u = some n) :
    unitMs [u] = some (n.toNat * 1000) ∧ 0 ≤ n ∧ u ≠ unit '.' ∧ u ≠ unit ' ' := by
  rw [unitSeconds] at h
  split_ifs at h with hs hm hh hd
  · rw [hs, ← Option.some.inj h]; decide
  · rw [hm, ← Option.some.inj h]; decide
  · rw [hh, ← Option.some.inj h]; decide
  · rw [hd, ← Option.some.inj h]; decide

theorem head?_simple {digits : JsString} (u : CodeUnit) (hne : digits ≠ [])
    (hdigits : ∀ d ∈ digits, isDigitUnit d = true) :
    (digits ++ [u]).head? ≠ some (unit '-') := by
  obtain ⟨d, digits, rfl⟩ := List.exists_cons_of_ne_nil hne
  intro hhead
  have hd : isDigitUnit d = true := hdigits d (List.mem_cons_self ..)
  rw [List.cons_append, List.head?_cons, Option.some.injEq] at hhead
  rw [hhead] at hd
  exact absurd hd (by decide)

theorem leadingNumber_simple {digits : JsString} {u : CodeUnit} {n : ℤ} (hne : digits ≠ [])
    (hdigits : ∀ d ∈ digits, isDigitUnit d = true) (hu : unitSeconds u = some n) :
    leadingNumber (digits ++ [u]) = some ((readNat digits : ℚ), [u]) := by
  obtain ⟨-, -, hpoint, -⟩ := unitMs_of_unitSeconds hu
  obtain ⟨htake, hdrop⟩ := span_append hdigits (y := [u]) fun _ => not_isDigit_of_unitSeconds hu
  have hnot : ¬ ([u].head? = some (unit '.') ∧ [u].tail.takeWhile isDigitUnit ≠ []) := by
    rw [List.head?_cons, Option.some.injEq]
    exact fun h => hpoint h.1
  rw [leadingNumber]
  simp only [htake, hdrop]
  rw [if_neg hnot, if_pos hne]

/-- **The package reads `<digits><s|m|h|d>` as that many units.** -/
theorem ms_simple {digits : JsString} {u : CodeUnit} {n : ℤ} (hne : digits ≠ [])
    (hdigits : ∀ d ∈ digits, isDigitUnit d = true) (hu : unitSeconds u = some n)
    (hlen : (digits ++ [u]).length ≤ 100) :
    ms (digits ++ [u]) = some ((readNat digits : ℚ) * n * 1000) := by
  obtain ⟨hunit, hpos, -, hspace⟩ := unitMs_of_unitSeconds hu
  have hdrop : [u].dropWhile (· == unit ' ') = [u] := by
    rw [List.dropWhile_cons, beq_false_of_ne hspace, if_neg Bool.false_ne_true]
  have hcast : ((n.toNat : ℕ) : ℚ) = n := by
    rw [← Int.cast_natCast, Int.toNat_of_nonneg hpos]
  rw [ms, if_neg (by omega), decide_eq_false (head?_simple u hne hdigits)]
  simp only [Bool.false_eq_true, if_false, leadingNumber_simple hne hdigits hu, Option.bind_some,
    hdrop, hunit, Option.map_some]
  rw [Nat.cast_mul, hcast, ← mul_assoc]
  norm_num

theorem readsSimpleSpans_timespan : ReadsSimpleSpans timespan := by
  intro digits u n span hne hdigits hu hspan
  obtain ⟨q, hq, rfl⟩ := Option.map_eq_some_iff.mp hspan
  have hlen : (digits ++ [u]).length ≤ 100 := by
    by_contra hlong
    rw [ms, if_pos (by omega)] at hq
    cases hq
  rw [ms_simple hne hdigits hu hlen, Option.some.injEq] at hq
  have hdiv : q / 1000 = ((readNat digits * n : ℤ) : ℚ) := by
    rw [← hq, mul_div_cancel_right₀ _ (by norm_num), Int.cast_mul, Int.cast_natCast]
  rw [hdiv, Int.floor_intCast]

/-- Any other text is an hour to the service. -/
theorem parseExpiresIn_of_not_simple {value : JsString} (h : ¬ SimpleSpan value) :
    parseExpiresIn value = 3600 := by
  have hsplit := List.takeWhile_append_dropWhile (p := isDigitUnit) (l := value)
  rw [parseExpiresIn]
  split
  next d digits u htake hdrop =>
    cases hu : unitSeconds u with
    | none => rfl
    | some n =>
        refine absurd ⟨d :: digits, u, n, ?_, List.cons_ne_nil _ _, fun v hv => ?_, hu⟩ h
        · rw [← htake, ← hdrop, hsplit]
        · rw [← htake] at hv
          exact List.mem_takeWhile_imp hv
  next => rfl

theorem parseExpiresIn_nonneg (value : JsString) : 0 ≤ parseExpiresIn value := by
  by_cases h : SimpleSpan value
  · obtain ⟨digits, u, n, rfl, hne, hdigits, hu⟩ := h
    rw [parseExpiresIn_simple hne hdigits hu]
    exact mul_nonneg (Int.natCast_nonneg _) (unitMs_of_unitSeconds hu).2.1
  · rw [parseExpiresIn_of_not_simple h]
    decide

theorem timespan_of_ms {value : JsString} {q : ℚ} (h : ms value = some q) :
    timespan value = some ⌊q / 1000⌋ := by
  rw [timespan, h, Option.map_some]

/-- The readings are one on a simple duration, and on another text only when it is an hour. -/
theorem parseExpiresIn_eq_iff {value : JsString} {q : ℚ} (h : ms value = some q) :
    parseExpiresIn value = ⌊q / 1000⌋ ↔ SimpleSpan value ∨ 3600000 ≤ q ∧ q < 3601000 := by
  by_cases hsimple : SimpleSpan value
  · exact iff_of_true
      (parseExpiresIn_of_timespan readsSimpleSpans_timespan hsimple (timespan_of_ms h))
      (.inl hsimple)
  · rw [parseExpiresIn_of_not_simple hsimple, or_iff_right hsimple, eq_comm, Int.floor_eq_iff,
      le_div_iff₀ (by norm_num), div_lt_iff₀ (by norm_num)]
    norm_num

/-- The service does not fall short of the library on a simple duration, and on another text only
when it is no longer than an hour. -/
theorem le_parseExpiresIn_iff {value : JsString} {q : ℚ} (h : ms value = some q) :
    ⌊q / 1000⌋ ≤ parseExpiresIn value ↔ SimpleSpan value ∨ q < 3601000 := by
  by_cases hsimple : SimpleSpan value
  · have heq := parseExpiresIn_of_timespan readsSimpleSpans_timespan hsimple (timespan_of_ms h)
    exact iff_of_true heq.ge (.inl hsimple)
  · rw [parseExpiresIn_of_not_simple hsimple, or_iff_right hsimple, ← Int.lt_add_one_iff,
      Int.floor_lt, div_lt_iff₀ (by norm_num)]
    norm_num

end A2aAgentLayer.Auth.TokenDurations
