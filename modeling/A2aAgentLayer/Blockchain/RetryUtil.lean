import A2aAgentLayer.Common.SanitizePipe
import Mathlib.Algebra.Order.Ring.Rat

/-!
# Retrying

`withRetry` calls an operation until it succeeds, fails with an error that is not worth a retry, or
has been called as often as allowed, and waits between two calls.  The operation acts on a state: a
call that fails may have changed it.  What `Math.random` gives before each wait is a parameter, and
delays are exact.
-/

namespace A2aAgentLayer.Blockchain.RetryUtil

open A2aAgentLayer.Lib.Utf16
open A2aAgentLayer.Common.SanitizePipe (caselessAt literalAt)

/-- The options that are set; the others have their defaults. -/
structure RetryOptions (ε : Type) where
  maxAttempts : Option ℕ := none
  initialDelayMs : Option ℚ := none
  maxDelayMs : Option ℚ := none
  factor : Option ℚ := none
  jitter : Option Bool := none
  shouldRetry : Option (ε → Bool) := none

structure Settings where
  maxAttempts : ℕ
  initialDelayMs : ℚ
  maxDelayMs : ℚ
  factor : ℚ
  jitter : Bool
  deriving DecidableEq

/-- `DEFAULTS`. -/
def defaults : Settings where
  maxAttempts := 5
  initialDelayMs := 200
  maxDelayMs := 5000
  factor := 2
  jitter := true

/-- `{ ...DEFAULTS, ...options }`. -/
def RetryOptions.settings {ε : Type} (options : RetryOptions ε) : Settings where
  maxAttempts := options.maxAttempts.getD defaults.maxAttempts
  initialDelayMs := options.initialDelayMs.getD defaults.initialDelayMs
  maxDelayMs := options.maxDelayMs.getD defaults.maxDelayMs
  factor := options.factor.getD defaults.factor
  jitter := options.jitter.getD defaults.jitter

/-- A literal pattern, with or without the `i` flag. -/
inductive Pattern where
  | caseless (lowerCase : JsString)
  | literal (text : JsString)

def Pattern.test (pattern : Pattern) (text : JsString) : Bool :=
  text.tails.any fun rest =>
    match pattern with
    | .caseless lowerCase => (caselessAt lowerCase rest).isSome
    | .literal exact => (literalAt exact rest).isSome

/-- `TRANSIENT_PATTERNS`. -/
def transientPatterns : List Pattern :=
  [.caseless (js "timeout"), .caseless (js "timed out"), .caseless (js "network"),
    .literal (js "ETIMEDOUT"), .literal (js "ECONNRESET"), .literal (js "ECONNREFUSED"),
    .caseless (js "nonce too low"), .caseless (js "replacement transaction underpriced"),
    .caseless (js "could not detect network")]

/-- The classification of an error by its text. -/
def isTransientError (message : JsString) : Bool := transientPatterns.any (·.test message)

example : isTransientError (js "Nonce too low") = true := by decide

/-- How `withRetry` settles; without a call there is no last error. -/
inductive Outcome (ε α : Type) where
  | resolved (value : α)
  | rejected (error : Option ε)
  deriving DecidableEq

/-- A wait, before and after jitter. -/
structure Wait where
  nominal : ℚ
  lasts : ℚ
  deriving DecidableEq

/-- What a run of `withRetry` has done. -/
structure Retried (σ ε α : Type) where
  state : σ
  calls : ℕ
  waits : List Wait
  result : Outcome ε α

section Retrying

variable {σ ε α : Type} (settings : Settings) (shouldRetry : ε → Bool) (random : ℕ → ℚ)
  (operation : ℕ → σ → σ × Except ε α)

def wait (attempt : ℕ) (delay : ℚ) : Wait where
  nominal := delay
  lasts := if settings.jitter then delay * (1 / 2 + random attempt) else delay

/-- The loop, with the number of calls that are left. -/
def loop : ℕ → ℕ → ℚ → σ → Retried σ ε α
  | 0, _, _, s => ⟨s, 0, [], .rejected none⟩
  | left + 1, attempt, delay, s =>
      match operation attempt s with
      | (after, .ok value) => ⟨after, 1, [], .resolved value⟩
      | (after, .error error) =>
          if left = 0 ∨ shouldRetry error = false then ⟨after, 1, [], .rejected (some error)⟩
          else
            let rest := loop left (attempt + 1) (min (delay * settings.factor) settings.maxDelayMs)
              after
            { rest with
              calls := rest.calls + 1
              waits := wait settings random attempt delay :: rest.waits }

end Retrying

/-- `withRetry`; errors are classified by the text that `message` gives of them. -/
def withRetry {σ ε α : Type} (message : ε → JsString) (options : RetryOptions ε) (random : ℕ → ℚ)
    (operation : ℕ → σ → σ × Except ε α) (s : σ) : Retried σ ε α :=
  loop options.settings (options.shouldRetry.getD fun error => isTransientError (message error))
    random operation options.settings.maxAttempts 0 options.settings.initialDelayMs s

/-! ### One call -/

section Steps

variable {σ ε α : Type} {settings : Settings} {shouldRetry : ε → Bool} {random : ℕ → ℚ}
  {operation : ℕ → σ → σ × Except ε α} {left attempt : ℕ} {delay : ℚ} {s after : σ}

theorem loop_of_ok {value : α} (h : operation attempt s = (after, .ok value)) :
    loop settings shouldRetry random operation (left + 1) attempt delay s
      = ⟨after, 1, [], .resolved value⟩ := by
  rw [loop, h]

/-- A call that fails ends the loop, or the rest of it goes on from the state the call has left. -/
theorem loop_of_error {error : ε} (h : operation attempt s = (after, .error error)) :
    loop settings shouldRetry random operation (left + 1) attempt delay s
      = if left = 0 ∨ shouldRetry error = false then ⟨after, 1, [], .rejected (some error)⟩
        else
          let rest := loop settings shouldRetry random operation left (attempt + 1)
            (min (delay * settings.factor) settings.maxDelayMs) after
          { rest with
            calls := rest.calls + 1
            waits := wait settings random attempt delay :: rest.waits } := by
  rw [loop, h]

end Steps

end A2aAgentLayer.Blockchain.RetryUtil
