import A2aAgentLayer.Blockchain.RetryRuns
import Mathlib.Algebra.Order.Field.Basic
import Mathlib.Tactic.Linarith

/-!
# How long the waits are

`maxDelayMs` cuts the carried delay off when it grows.  The first delay has not grown, and the
jitter comes after the cut: it makes a wait up to half as long again.
-/

namespace A2aAgentLayer.Blockchain.RetryWaits

open A2aAgentLayer.Lib.Utf16 A2aAgentLayer.Blockchain.RetryUtil
open A2aAgentLayer.Blockchain.RetryRuns

section Nominal

variable {settings : Settings}

/-- The delay without the cut. -/
def grown (settings : Settings) (n : ℕ) : ℚ := settings.initialDelayMs * settings.factor ^ n

theorem grown_succ (n : ℕ) : grown settings (n + 1) = grown settings n * settings.factor := by
  rw [grown, grown, pow_succ, mul_assoc]

theorem nominal_le_grown (hfactor : 1 ≤ settings.factor) (n : ℕ) :
    nominal settings n ≤ grown settings n := by
  induction n with
  | zero => rw [grown, pow_zero, mul_one, nominal]
  | succ n ih =>
      rw [nominal, grown_succ]
      exact (min_le_left _ _).trans (mul_le_mul_of_nonneg_right ih (zero_le_one.trans hfactor))

/-- Behind the first wait the delay is the grown one, cut off. -/
theorem nominal_succ (hmax : 0 ≤ settings.maxDelayMs) (hfactor : 1 ≤ settings.factor) (n : ℕ) :
    nominal settings (n + 1) = min (grown settings (n + 1)) settings.maxDelayMs := by
  induction n with
  | zero =>
      rw [nominal, nominal, grown_succ, grown, pow_zero, mul_one]
  | succ n ih =>
      have hgrows : settings.maxDelayMs ≤ settings.maxDelayMs * settings.factor :=
        le_mul_of_one_le_right hmax hfactor
      rw [nominal, ih, min_mul_of_nonneg _ _ (zero_le_one.trans hfactor), ← grown_succ, min_assoc,
        min_eq_right hgrows]

theorem nominal_nonneg (hinitial : 0 ≤ settings.initialDelayMs) (hmax : 0 ≤ settings.maxDelayMs)
    (hfactor : 1 ≤ settings.factor) (n : ℕ) : 0 ≤ nominal settings n := by
  induction n with
  | zero => exact hinitial
  | succ n ih => exact le_min (mul_nonneg ih (zero_le_one.trans hfactor)) hmax

/-- A delay that has room for the jitter has not been cut off. -/
theorem grown_le_of_nominal_le (hinitial : 0 ≤ settings.initialDelayMs)
    (hmax : 0 ≤ settings.maxDelayMs) (hfactor : 1 ≤ settings.factor)
    (hfirst : 3 / 2 * nominal settings 0 ≤ settings.maxDelayMs) {n : ℕ}
    (hn : 3 / 2 * nominal settings n ≤ settings.maxDelayMs) :
    3 / 2 * grown settings n ≤ settings.maxDelayMs := by
  cases n with
  | zero =>
      rw [grown, pow_zero, mul_one]
      exact hfirst
  | succ n =>
      rw [nominal_succ hmax hfactor] at hn
      rcases le_or_gt (grown settings (n + 1)) settings.maxDelayMs with hle | hgt
      · rw [min_eq_left hle] at hn
        exact hn
      · -- then the maximum is zero, and so is the first delay
        rw [min_eq_right hgt.le] at hn
        rw [nominal] at hfirst
        have hzero : settings.initialDelayMs = 0 := by linarith
        rw [grown, hzero, zero_mul, mul_zero]
        exact hmax

end Nominal

/-- What `Math.random` may give. -/
def Uniform (random : ℕ → ℚ) : Prop := ∀ n, 0 ≤ random n ∧ random n < 1

/-- The factor of the jitter is nearly 3/2 at most. -/
theorem jittered_le_iff {delay bound : ℚ} (hdelay : 0 ≤ delay) (hbound : 0 ≤ bound) :
    (∀ r, 0 ≤ r → r < 1 → delay * (1 / 2 + r) ≤ bound) ↔ 3 / 2 * delay ≤ bound := by
  constructor
  · intro h
    by_contra hgt
    rw [not_le] at hgt
    have hpos : 0 < delay := by linarith
    have hlt : max 0 (bound / delay - 1 / 2) < 1 := by
      refine max_lt zero_lt_one ?_
      have hquot : bound / delay < 3 / 2 := (div_lt_iff₀ hpos).mpr hgt
      linarith
    obtain ⟨r, hr, hr1⟩ := exists_between hlt
    obtain ⟨hr0, hquot⟩ := max_lt_iff.mp hr
    have hover : bound / delay < 1 / 2 + r := by linarith
    rw [div_lt_iff₀ hpos, mul_comm] at hover
    exact absurd (h r hr0.le hr1) (not_le.mpr hover)
  · intro h r hr0 hr1
    have hfactor : delay * (1 / 2 + r) ≤ delay * (3 / 2) :=
      mul_le_mul_of_nonneg_left (by linarith) hdelay
    linarith

section Waits

variable {σ ε α : Type}

/-- Every attempt up to this one fails with an error that is retried, and one more is allowed. -/
def RetriedTo (settings : Settings) (shouldRetry : ε → Bool) (operation : ℕ → σ → σ × Except ε α)
    (world : σ) (n : ℕ) : Prop :=
  n + 1 < settings.maxAttempts
    ∧ ∀ j ≤ n, ∃ error, outcomeAt operation world j = .error error ∧ shouldRetry error = true

/-- No wait behind this attempt can be too long. -/
def Within (settings : Settings) (n : ℕ) : Prop :=
  if settings.jitter then 3 / 2 * grown settings n ≤ settings.maxDelayMs
  else settings.initialDelayMs ≤ settings.maxDelayMs

instance (settings : Settings) (n : ℕ) : Decidable (Within settings n) :=
  inferInstanceAs (Decidable (if settings.jitter then 3 / 2 * grown settings n ≤ settings.maxDelayMs
    else settings.initialDelayMs ≤ settings.maxDelayMs))

variable {settings : Settings} {shouldRetry : ε → Bool} {operation : ℕ → σ → σ × Except ε α}
  {world : σ} {n last : ℕ}

theorem RetriedTo.first (h : RetriedTo settings shouldRetry operation world n) :
    RetriedTo settings shouldRetry operation world 0 := by
  refine ⟨(Nat.succ_le_succ (Nat.zero_le n)).trans_lt h.1, ?_⟩
  intro j hj
  exact h.2 j (hj.trans (Nat.zero_le n))

theorem lt_last_iff (hmax : 1 ≤ settings.maxAttempts)
    (h : IsLeast {n | Final settings shouldRetry operation world n} last) :
    n < last ↔ RetriedTo settings shouldRetry operation world n := by
  constructor
  · intro hn
    have hlast := last_lt hmax h
    refine ⟨by omega, fun j hj => ?_⟩
    have hjlast : j < last := hj.trans_lt hn
    obtain ⟨error, houtcome, hretry, -⟩ := error_of_not_final (not_final_of_lt h hjlast)
    exact ⟨error, houtcome, hretry⟩
  · rintro ⟨hallowed, hfailed⟩
    by_contra hle
    rw [not_lt] at hle
    obtain ⟨error, houtcome, hretry⟩ := hfailed last hle
    rcases rejected_of_final h.1 houtcome with hend | hrejected
    · omega
    · rw [hretry] at hrejected
      cases hrejected

/-- The waits of a run are those behind the attempts that are retried. -/
theorem mem_waits {message : ε → JsString} {options : RetryOptions ε} {random : ℕ → ℚ}
    (hmax : 1 ≤ options.settings.maxAttempts) {w : Wait} :
    w ∈ (withRetry message options random operation world).waits ↔
      ∃ n, RetriedTo options.settings (classify message options) operation world n
        ∧ waitAt options.settings random n = w := by
  obtain ⟨last, hlast⟩ : ∃ last,
      IsLeast {n | Final options.settings (classify message options) operation world n} last :=
    exists_last hmax
  rw [withRetry_eq hmax hlast, List.mem_map]
  simp only [List.mem_range, lt_last_iff hmax hlast]

/-- The wait behind one attempt, whatever `Math.random` gives. -/
theorem lasts_le_iff (hinitial : 0 ≤ settings.initialDelayMs) (hmax : 0 ≤ settings.maxDelayMs)
    (hfactor : 1 ≤ settings.factor) (n : ℕ) :
    (∀ random, Uniform random → (waitAt settings random n).lasts ≤ settings.maxDelayMs)
      ↔ if settings.jitter then 3 / 2 * nominal settings n ≤ settings.maxDelayMs
        else nominal settings n ≤ settings.maxDelayMs := by
  have hdelay := nominal_nonneg hinitial hmax hfactor n
  cases hjitter : settings.jitter with
  | false =>
      have hlasts : ∀ random, (waitAt settings random n).lasts = nominal settings n := by
        intro random
        rw [waitAt, wait, hjitter]
        rfl
      simp only [hlasts, if_neg Bool.false_ne_true]
      constructor
      · intro h
        exact h (fun _ => 0) fun _ => ⟨le_rfl, zero_lt_one⟩
      · intro h _ _
        exact h
  | true =>
      have hlasts : ∀ random, (waitAt settings random n).lasts
          = nominal settings n * (1 / 2 + random n) := by
        intro random
        rw [waitAt, wait, hjitter]
        rfl
      simp only [hlasts, if_true]
      rw [← jittered_le_iff hdelay hmax]
      constructor
      · intro h r hr0 hr1
        exact h (fun _ => r) fun _ => ⟨hr0, hr1⟩
      · intro h random hrandom
        exact h (random n) (hrandom n).1 (hrandom n).2

/-- A delay from which no later one has to be cut off in time. -/
theorem nominal_le_of_first (hfirst : settings.initialDelayMs ≤ settings.maxDelayMs) (n : ℕ) :
    nominal settings n ≤ settings.maxDelayMs := by
  cases n with
  | zero => exact hfirst
  | succ n => exact min_le_right _ _

end Waits

/-- **When no wait exceeds the maximum.**  Whatever `Math.random` gives, the waits stay below
`maxDelayMs` exactly if each retried attempt leaves the delay room for the jitter; without jitter,
exactly if the first delay is not too long. -/
theorem waits_le_iff {σ ε α : Type} (message : ε → JsString) (options : RetryOptions ε)
    (operation : ℕ → σ → σ × Except ε α) (world : σ) (hattempts : 1 ≤ options.settings.maxAttempts)
    (hinitial : 0 ≤ options.settings.initialDelayMs) (hmax : 0 ≤ options.settings.maxDelayMs)
    (hfactor : 1 ≤ options.settings.factor) :
    (∀ random, Uniform random → ∀ w ∈ (withRetry message options random operation world).waits,
        w.lasts ≤ options.settings.maxDelayMs)
      ↔ ∀ n, RetriedTo options.settings (classify message options) operation world n →
          Within options.settings n := by
  simp only [mem_waits hattempts, forall_exists_index, and_imp, forall_apply_eq_imp_iff₂]
  constructor
  · intro h n hn
    have hall : ∀ m, RetriedTo options.settings (classify message options) operation world m → _ :=
      fun m hm => (lasts_le_iff hinitial hmax hfactor m).mp fun random hrandom =>
        h random hrandom m hm
    have hfirst := hall 0 hn.first
    have hlast := hall n hn
    rw [Within]
    split_ifs at hfirst hlast ⊢ with hjitter
    · exact grown_le_of_nominal_le hinitial hmax hfactor hfirst hlast
    · exact hfirst
  · intro h random hrandom n hn
    refine (lasts_le_iff hinitial hmax hfactor n).mpr ?_ random hrandom
    have hwithin := h n hn
    rw [Within] at hwithin
    split_ifs at hwithin ⊢ with hjitter
    · have hle := nominal_le_grown hfactor n
      linarith
    · exact nominal_le_of_first hwithin n

/-- A connection that is reset every time. -/
def alwaysReset (_ : ℕ) (_ : Unit) : Unit × Except JsString JsString :=
  ((), .error (js "ECONNRESET"))

/-- With the default options every wait is within the maximum. -/
theorem defaults_within : (∀ n < 4, Within defaults n) ∧ ∀ random, Uniform random →
    ∀ w ∈ (withRetry id {} random alwaysReset ()).waits, w.lasts ≤ 5000 := by
  have hwithin : ∀ n < 4, Within defaults n := by decide +kernel
  refine ⟨hwithin, ?_⟩
  refine (waits_le_iff id {} alwaysReset () (by decide) (by decide) (by decide) (by decide)).mpr ?_
  intro n hn
  exact hwithin n (Nat.lt_of_succ_lt_succ hn.1)

/-- A first delay at the maximum: the jitter makes the wait a quarter longer. -/
theorem jittered_overlong : ¬ ∀ (options : RetryOptions JsString)
    (operation : ℕ → Unit → Unit × Except JsString JsString) (random : ℕ → ℚ),
    1 ≤ options.settings.maxAttempts → 0 ≤ options.settings.initialDelayMs →
    0 ≤ options.settings.maxDelayMs → 1 ≤ options.settings.factor → Uniform random →
    ∀ w ∈ (withRetry id options random operation ()).waits,
      w.lasts ≤ options.settings.maxDelayMs := by
  intro h
  have huniform : Uniform fun _ => 3 / 4 := fun _ =>
    (by decide +kernel : (0 : ℚ) ≤ 3 / 4 ∧ (3 / 4 : ℚ) < 1)
  have hwaits : (withRetry id ⟨some 2, none, some 200, none, none, none⟩ (fun _ => 3 / 4)
      alwaysReset ()).waits = [⟨200, 250⟩] := by decide +kernel
  have hle := h ⟨some 2, none, some 200, none, none, none⟩ alwaysReset (fun _ => 3 / 4) (by decide)
    (by decide) (by decide) (by decide) huniform ⟨200, 250⟩ (hwaits ▸ List.mem_singleton_self _)
  exact absurd hle (by decide)

end A2aAgentLayer.Blockchain.RetryWaits
