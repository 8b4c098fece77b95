import A2aAgentLayer.Blockchain.RetryUtil
import Mathlib.Order.Bounds.Basic
import Mathlib.Order.Interval.Finset.Nat

/-!
# Which attempts are made

`withRetry` turn by turn: the promise of an attempt settles, or the timer of a wait fires.  The
trace tells which attempts are made, what they give and how long the waits between them are.

The reference says it without the loop: the last attempt is the first one that succeeds, fails for
good or is the last one allowed (`IsLeast`), and the delays follow a recurrence (`nominal`).
-/

namespace A2aAgentLayer.Blockchain.RetryRuns

open A2aAgentLayer.Lib.Utf16 A2aAgentLayer.Blockchain.RetryUtil

/-- What `withRetry` does and meets, in order: it invokes the operation, the operation's promise
settles, it sets a timer. -/
inductive Action (ε α : Type) where
  | invoke (attempt : ℕ)
  | answer (result : Except ε α)
  | wait (w : Wait)

inductive Phase (ε α : Type) where
  | calling
  | waiting
  | settled (outcome : Outcome ε α)

structure State (σ ε α : Type) where
  phase : Phase ε α
  world : σ
  attempt : ℕ
  delay : ℚ
  lastError : Option ε
  trace : List (Action ε α)

section Turns

variable {σ ε α : Type} (settings : Settings) (shouldRetry : ε → Bool) (random : ℕ → ℚ)
  (operation : ℕ → σ → σ × Except ε α) (world : σ)

/-- The head of the loop. -/
def enter (s : State σ ε α) : State σ ε α :=
  if s.attempt < settings.maxAttempts then
    { s with phase := .calling, trace := s.trace ++ [.invoke s.attempt] }
  else { s with phase := .settled (.rejected s.lastError) }

def start : State σ ε α :=
  enter settings ⟨.calling, world, 0, settings.initialDelayMs, none, []⟩

/-- The operation's promise settles. -/
def answered (s : State σ ε α) : State σ ε α :=
  match operation s.attempt s.world with
  | (after, .ok value) =>
      { s with
        phase := .settled (.resolved value)
        world := after
        trace := s.trace ++ [.answer (.ok value)] }
  | (after, .error error) =>
      let failed : State σ ε α :=
        { s with
          world := after
          attempt := s.attempt + 1
          lastError := some error
          trace := s.trace ++ [.answer (.error error)] }
      if settings.maxAttempts ≤ s.attempt + 1 ∨ shouldRetry error = false then
        { failed with phase := .settled (.rejected (some error)) }
      else
        { failed with
          phase := .waiting
          trace := failed.trace ++ [.wait (wait settings random s.attempt s.delay)] }

def turn (s : State σ ε α) : State σ ε α :=
  match s.phase with
  | .calling => answered settings shouldRetry random operation s
  | .waiting =>
      enter settings { s with delay := min (s.delay * settings.factor) settings.maxDelayMs }
  | .settled _ => s

/-- The state after a number of turns. -/
def stateAfter (turns : ℕ) : State σ ε α :=
  (turn settings shouldRetry random operation)^[turns] (start settings world)

/-! ### The reference -/

/-- The state in which an attempt finds the world. -/
def worldAt : ℕ → σ
  | 0 => world
  | n + 1 => (operation n (worldAt n)).1

def outcomeAt (n : ℕ) : Except ε α := (operation n (worldAt operation world n)).2

/-- Attempt `n` is not retried: it succeeds, its error is rejected, or no attempt is left. -/
def Final (n : ℕ) : Prop :=
  (∃ value, outcomeAt operation world n = .ok value)
    ∨ (∃ error, outcomeAt operation world n = .error error ∧ shouldRetry error = false)
    ∨ n + 1 = settings.maxAttempts

/-- The delay before jitter of the wait behind attempt `n`. -/
def nominal : ℕ → ℚ
  | 0 => settings.initialDelayMs
  | n + 1 => min (nominal n * settings.factor) settings.maxDelayMs

def waitAt (n : ℕ) : Wait := wait settings random n (nominal settings n)

/-- An attempt, its failure and the wait behind it. -/
def retried (n : ℕ) : List (Action ε α) :=
  [.invoke n, .answer (outcomeAt operation world n), .wait (waitAt settings random n)]

/-- The trace when attempt `last` is not retried. -/
def traceTo (last : ℕ) : List (Action ε α) :=
  (List.range last).flatMap (retried settings random operation world)
    ++ [.invoke last, .answer (outcomeAt operation world last)]

/-- What an attempt that is not retried makes of the promise. -/
def reported : Except ε α → Outcome ε α
  | .ok value => .resolved value
  | .error error => .rejected (some error)

end Turns

/-- How `withRetry` classifies an error. -/
def classify {ε : Type} (message : ε → JsString) (options : RetryOptions ε) : ε → Bool :=
  options.shouldRetry.getD fun error => isTransientError (message error)

section Reference

variable {σ ε α : Type} {settings : Settings} {shouldRetry : ε → Bool} {random : ℕ → ℚ}
  {operation : ℕ → σ → σ × Except ε α} {world : σ} {n last : ℕ}

/-! ### The last attempt -/

/-- An attempt that is not the last one fails with an error that is retried. -/
theorem error_of_not_final (h : ¬ Final settings shouldRetry operation world n) :
    ∃ error, outcomeAt operation world n = .error error ∧ shouldRetry error = true
      ∧ n + 1 ≠ settings.maxAttempts := by
  rw [Final, not_or, not_or] at h
  obtain ⟨hok, hrejected, hlast⟩ := h
  cases houtcome : outcomeAt operation world n with
  | ok value => exact absurd ⟨value, houtcome⟩ hok
  | error error =>
      refine ⟨error, rfl, ?_, hlast⟩
      by_contra hretry
      rw [Bool.not_eq_true] at hretry
      exact hrejected ⟨error, houtcome, hretry⟩

/-- An error that ends the loop is rejected, or no attempt is left. -/
theorem rejected_of_final (h : Final settings shouldRetry operation world n) {error : ε}
    (houtcome : outcomeAt operation world n = .error error) :
    n + 1 = settings.maxAttempts ∨ shouldRetry error = false := by
  rcases h with ⟨value, hok⟩ | ⟨e, herror, hretry⟩ | hlast
  · rw [houtcome] at hok
    cases hok
  · rw [houtcome] at herror
    obtain rfl := Except.error.inj herror
    exact .inr hretry
  · exact .inl hlast

theorem exists_last (hmax : 1 ≤ settings.maxAttempts) :
    ∃ last, IsLeast {n | Final settings shouldRetry operation world n} last := by
  classical
  have hfinal : ∃ n, Final settings shouldRetry operation world n :=
    ⟨settings.maxAttempts - 1, .inr (.inr (by omega))⟩
  exact ⟨Nat.find hfinal, Nat.find_spec hfinal, fun n hn => Nat.find_min' hfinal hn⟩

theorem last_lt (hmax : 1 ≤ settings.maxAttempts)
    (h : IsLeast {n | Final settings shouldRetry operation world n} last) :
    last < settings.maxAttempts := by
  have hle : last ≤ settings.maxAttempts - 1 := h.2 (.inr (.inr (by omega)))
  omega

theorem not_final_of_lt (h : IsLeast {n | Final settings shouldRetry operation world n} last)
    (hn : n < last) : ¬ Final settings shouldRetry operation world n := fun hfinal =>
  absurd (h.2 hfinal) (Nat.not_le.mpr hn)

theorem operation_worldAt {result : Except ε α} (h : outcomeAt operation world n = result) :
    operation n (worldAt operation world n) = (worldAt operation world (n + 1), result) := by
  rw [← h]
  rfl

/-! ### Turn by turn -/

/-- Attempt `n` is under way. -/
def Calling (settings : Settings) (random : ℕ → ℚ) (operation : ℕ → σ → σ × Except ε α) (world : σ)
    (n : ℕ) (s : State σ ε α) : Prop :=
  ∃ lastError, s = ⟨.calling, worldAt operation world n, n, nominal settings n, lastError,
    (List.range n).flatMap (retried settings random operation world) ++ [.invoke n]⟩

theorem calling_start (hmax : 1 ≤ settings.maxAttempts) :
    Calling settings random operation world 0 (start settings world) := by
  refine ⟨none, ?_⟩
  rw [start, enter, if_pos (by exact hmax)]
  rfl

/-- A failed attempt that is retried takes two turns: its promise settles, the timer fires. -/
theorem Calling.retry {s : State σ ε α} (h : Calling settings random operation world n s)
    (hn : n + 1 < settings.maxAttempts) (hfinal : ¬ Final settings shouldRetry operation world n) :
    Calling settings random operation world (n + 1)
      (turn settings shouldRetry random operation
        (turn settings shouldRetry random operation s)) := by
  obtain ⟨error, houtcome, hretry, hlast⟩ := error_of_not_final hfinal
  obtain ⟨lastError, rfl⟩ := h
  have hends : ¬ (settings.maxAttempts ≤ n + 1 ∨ shouldRetry error = false) := by
    rw [not_or, not_le, Bool.not_eq_false]
    exact ⟨hn, hretry⟩
  refine ⟨some error, ?_⟩
  simp only [turn, answered, operation_worldAt houtcome, houtcome, if_neg hends, enter, if_pos hn,
    nominal, List.range_succ, List.flatMap_append, List.flatMap_singleton, retried, waitAt,
    List.append_assoc, List.cons_append, List.nil_append]

theorem calling_stateAfter (hmax : 1 ≤ settings.maxAttempts)
    (h : IsLeast {n | Final settings shouldRetry operation world n} last) (hn : n ≤ last) :
    Calling settings random operation world n
      (stateAfter settings shouldRetry random operation world (2 * n)) := by
  induction n with
  | zero => exact calling_start hmax
  | succ n ih =>
      have hlast := last_lt hmax h
      have hnext := (ih (by omega)).retry (by omega) (not_final_of_lt h hn)
      rw [stateAfter, Nat.mul_succ, Function.iterate_succ_apply', Function.iterate_succ_apply']
      exact hnext

/-- The attempt that is not retried ends the loop in one turn. -/
theorem Calling.settled {s : State σ ε α} (h : Calling settings random operation world n s)
    (hfinal : Final settings shouldRetry operation world n) :
    let t := turn settings shouldRetry random operation s
    t.phase = .settled (reported (outcomeAt operation world n))
      ∧ t.world = worldAt operation world (n + 1)
      ∧ t.trace = traceTo settings random operation world n := by
  obtain ⟨lastError, rfl⟩ := h
  cases houtcome : outcomeAt operation world n with
  | ok value =>
      simp only [turn, answered, operation_worldAt houtcome, houtcome, reported, traceTo,
        List.append_assoc, List.cons_append, List.nil_append, and_self]
  | error error =>
      have hends : settings.maxAttempts ≤ n + 1 ∨ shouldRetry error = false :=
        (rejected_of_final hfinal houtcome).imp_left Eq.ge
      simp only [turn, answered, operation_worldAt houtcome, houtcome, if_pos hends, reported,
        traceTo, List.append_assoc, List.cons_append, List.nil_append, and_self]

theorem turn_of_settled {s : State σ ε α} {outcome : Outcome ε α}
    (h : s.phase = .settled outcome) : turn settings shouldRetry random operation s = s := by
  rw [turn, h]

/-- From the turn on in which the last attempt settles, nothing happens. -/
theorem settled_stateAfter (hmax : 1 ≤ settings.maxAttempts)
    (h : IsLeast {n | Final settings shouldRetry operation world n} last) {turns : ℕ}
    (hturns : 2 * last < turns) :
    let s := stateAfter settings shouldRetry random operation world turns
    s.phase = .settled (reported (outcomeAt operation world last))
      ∧ s.world = worldAt operation world (last + 1)
      ∧ s.trace = traceTo settings random operation world last := by
  induction turns, hturns using Nat.le_induction with
  | base =>
      have hcalling : Calling settings random operation world last
          (stateAfter settings shouldRetry random operation world (2 * last)) :=
        calling_stateAfter hmax h le_rfl
      intro s
      have hs : s = _ := Function.iterate_succ_apply' _ _ _
      rw [hs]
      exact hcalling.settled h.1
  | succ turns _ ih =>
      intro s
      have hs : s = _ := Function.iterate_succ_apply' _ _ _
      have hstays : s = stateAfter settings shouldRetry random operation world turns :=
        hs.trans (turn_of_settled ih.1)
      rw [hstays]
      exact ih

/-! ### The whole run at once -/

/-- The loop from attempt `n` on, with `d` retries to come. -/
theorem loop_eq (hmax : 1 ≤ settings.maxAttempts)
    (h : IsLeast {n | Final settings shouldRetry operation world n} last) {d : ℕ}
    (hd : n + d = last) :
    loop settings shouldRetry random operation (settings.maxAttempts - n) n (nominal settings n)
        (worldAt operation world n)
      = ⟨worldAt operation world (last + 1), d + 1, (List.range' n d).map (waitAt settings random),
        reported (outcomeAt operation world last)⟩ := by
  have hlast := last_lt hmax h
  obtain ⟨left, hleft⟩ : ∃ left, settings.maxAttempts - n = left + 1 :=
    Nat.exists_eq_succ_of_ne_zero (by omega)
  rw [hleft]
  induction d generalizing n left with
  | zero =>
      obtain rfl : n = last := hd
      cases houtcome : outcomeAt operation world n with
      | ok value =>
          rw [loop_of_ok (operation_worldAt houtcome)]
          rfl
      | error error =>
          have hends : left = 0 ∨ shouldRetry error = false :=
            (rejected_of_final h.1 houtcome).imp_left fun heq => by omega
          rw [loop_of_error (operation_worldAt houtcome), if_pos hends]
          rfl
  | succ d ih =>
      have hlt : n < last := by omega
      obtain ⟨error, houtcome, hretry, -⟩ := error_of_not_final (not_final_of_lt h hlt)
      obtain ⟨left, rfl⟩ : ∃ m, left = m + 1 := Nat.exists_eq_succ_of_ne_zero (by omega)
      have hends : ¬ (left + 1 = 0 ∨ shouldRetry error = false) := by
        rw [not_or, Bool.not_eq_false]
        exact ⟨Nat.succ_ne_zero left, hretry⟩
      have hrest := ih (by omega : n + 1 + d = last) left (by omega)
      rw [nominal] at hrest
      rw [loop_of_error (operation_worldAt houtcome), if_neg hends]
      simp only [hrest]
      rfl

/-- A run of `withRetry` as the reference says. -/
theorem withRetry_eq {message : ε → JsString} {options : RetryOptions ε}
    (hmax : 1 ≤ options.settings.maxAttempts)
    (h : IsLeast {n | Final options.settings (classify message options) operation world n} last) :
    withRetry message options random operation world
      = ⟨worldAt operation world (last + 1), last + 1,
        (List.range last).map (waitAt options.settings random),
        reported (outcomeAt operation world last)⟩ := by
  rw [List.range_eq_range']
  exact loop_eq hmax h (Nat.zero_add last)

end Reference

/-- **Exactly the attempts that should be made.**  With `last` the least number of an attempt that
succeeds, fails for good or is the last one allowed, `last + 1` attempts are made, one after another
with `last` waits between them, and the promise settles as the last one does. -/
theorem withRetry_exactly {σ ε α : Type} (message : ε → JsString) (options : RetryOptions ε)
    (random : ℕ → ℚ) (operation : ℕ → σ → σ × Except ε α) (world : σ)
    (hmax : 1 ≤ options.settings.maxAttempts) :
    ∃ last,
      IsLeast {n | Final options.settings (classify message options) operation world n} last
      ∧ (∀ turns, 2 * last < turns →
        let s := stateAfter options.settings (classify message options) random operation world turns
        s.phase = .settled (reported (outcomeAt operation world last))
          ∧ s.trace = traceTo options.settings random operation world last)
      ∧ withRetry message options random operation world
        = ⟨worldAt operation world (last + 1), last + 1,
          (List.range last).map (waitAt options.settings random),
          reported (outcomeAt operation world last)⟩ := by
  obtain ⟨last, hlast⟩ : ∃ last,
      IsLeast {n | Final options.settings (classify message options) operation world n} last :=
    exists_last hmax
  refine ⟨last, hlast, ?_, withRetry_eq hmax hlast⟩
  intro turns hturns
  obtain ⟨hphase, -, htrace⟩ := settled_stateAfter hmax hlast hturns
  exact ⟨hphase, htrace⟩

/-- A connection that is reset once. -/
def resetOnce (n : ℕ) (_ : Unit) : Unit × Except JsString JsString :=
  ((), if n = 0 then .error (js "ECONNRESET") else .ok (js "ok"))

theorem resetOnce_exactly : ∃ last,
    IsLeast {n | Final ⟨3, 1, 2, 2, false⟩ isTransientError resetOnce () n} last
    ∧ (∀ turns, 2 * last < turns →
      let s := stateAfter ⟨3, 1, 2, 2, false⟩ isTransientError (fun _ => 0) resetOnce () turns
      s.phase = .settled (reported (outcomeAt resetOnce () last))
        ∧ s.trace = traceTo ⟨3, 1, 2, 2, false⟩ (fun _ => 0) resetOnce () last)
    ∧ withRetry id ⟨some 3, some 1, some 2, none, some false, none⟩ (fun _ => 0) resetOnce ()
      = ⟨(), last + 1, (List.range last).map (waitAt ⟨3, 1, 2, 2, false⟩ fun _ => 0),
        reported (outcomeAt resetOnce () last)⟩ :=
  withRetry_exactly id ⟨some 3, some 1, some 2, none, some false, none⟩ (fun _ => 0) resetOnce ()
    (by decide)

end A2aAgentLayer.Blockchain.RetryRuns
