import A2aAgentLayer.Blockchain.ConfirmationPolicy
import Mathlib.Data.Rat.Floor
import Mathlib.Tactic.Linarith

/-!
# Polling for a receipt

`pollReceipt` asks for a receipt, looks at the clock when there is none, and pauses before it asks
again.  The pause doubles up to a maximum; the first one is not cut off there.  Timers are exact,
and time passes only in the queries and the pauses.
-/

namespace A2aAgentLayer.Blockchain.ReceiptPoller

open A2aAgentLayer.Lib.Utf16
open A2aAgentLayer.Blockchain.ConfirmationPolicy (Receipt)

/-- The options that are set; the others have their defaults. -/
structure PollOptions where
  timeoutMs : Option ℚ := none
  baseMs : Option ℚ := none
  maxMs : Option ℚ := none

structure Settings where
  timeoutMs : ℚ
  baseMs : ℚ
  maxMs : ℚ
  deriving DecidableEq

def PollOptions.settings (opts : PollOptions) : Settings where
  timeoutMs := opts.timeoutMs.getD 120000
  baseMs := opts.baseMs.getD 500
  maxMs := opts.maxMs.getD 8000

/-- What a call of `getReceipt` gives, and how long it takes. -/
structure Reply (ε : Type) where
  answer : Except ε (Option Receipt)
  took : ℚ
  took_nonneg : 0 ≤ took

inductive Outcome (ε : Type) where
  | returned (r : Receipt)
  | timedOut (message : JsString)
  | failed (error : ε)
  deriving DecidableEq

/-- How a run has ended: in which poll, at what time, and with what. -/
structure Settled (ε : Type) where
  lastPoll : ℕ
  endedAt : ℚ
  outcome : Outcome ε

section Polling

variable {ε : Type} (settings : Settings) (txHash : JsString) (getReceipt : ℕ → Reply ε)
  (started : ℚ)

/-- The loop, for a number of rounds; `n` counts the polls before. -/
def loop : ℕ → ℕ → ℚ → ℚ → Option (Settled ε)
  | 0, _, _, _ => none
  | rounds + 1, n, now, delay =>
      let answeredAt := now + (getReceipt n).took
      match (getReceipt n).answer with
      | .error error => some ⟨n, answeredAt, .failed error⟩
      | .ok (some r) => some ⟨n, answeredAt, .returned r⟩
      | .ok none =>
          if settings.timeoutMs < answeredAt - started then
            some ⟨n, answeredAt, .timedOut (js "Receipt timeout for " ++ txHash)⟩
          else loop rounds (n + 1) (answeredAt + delay) (min settings.maxMs (delay * 2))

end Polling

/-- `pollReceipt`, followed for a number of rounds. -/
def pollReceipt {ε : Type} (txHash : JsString) (getReceipt : ℕ → Reply ε) (opts : PollOptions)
    (started : ℚ) (rounds : ℕ) : Option (Settled ε) :=
  loop opts.settings txHash getReceipt started rounds 0 started opts.settings.baseMs

/-! ### One round -/

section Rounds

variable {ε : Type} {settings : Settings} {txHash : JsString} {getReceipt : ℕ → Reply ε}
  {started : ℚ} {n : ℕ} {now delay : ℚ}

theorem loop_of_error {error : ε} (h : (getReceipt n).answer = .error error) (rounds : ℕ) :
    loop settings txHash getReceipt started (rounds + 1) n now delay
      = some ⟨n, now + (getReceipt n).took, .failed error⟩ := by
  rw [loop, h]

theorem loop_of_receipt {r : Receipt} (h : (getReceipt n).answer = .ok (some r)) (rounds : ℕ) :
    loop settings txHash getReceipt started (rounds + 1) n now delay
      = some ⟨n, now + (getReceipt n).took, .returned r⟩ := by
  rw [loop, h]

theorem loop_of_none (h : (getReceipt n).answer = .ok none) (rounds : ℕ) :
    loop settings txHash getReceipt started (rounds + 1) n now delay
      = if settings.timeoutMs < now + (getReceipt n).took - started then
          some ⟨n, now + (getReceipt n).took, .timedOut (js "Receipt timeout for " ++ txHash)⟩
        else
          loop settings txHash getReceipt started rounds (n + 1) (now + (getReceipt n).took + delay)
            (min settings.maxMs (delay * 2)) := by
  rw [loop, h]

/-! ### A run -/

/-- The least time between two polls. -/
def Settings.pace (settings : Settings) : ℚ := min settings.baseMs settings.maxMs

/-- The longest pause. -/
def Settings.longest (settings : Settings) : ℚ := max settings.baseMs settings.maxMs

/-- What holds before each poll: the pauses are neither shorter nor longer than they may be, and the
clock has advanced with the polls but not gone far beyond the timeout. -/
structure Paced (settings : Settings) (started : ℚ) (n : ℕ) (now delay : ℚ) : Prop where
  notShort : settings.pace ≤ delay
  notLong : delay ≤ settings.longest
  advanced : n * settings.pace ≤ now - started
  inTime : now - started ≤ settings.timeoutMs + settings.longest

theorem paced_start (htimeout : 0 ≤ settings.timeoutMs) (hbase : 0 < settings.baseMs) :
    Paced settings started 0 started settings.baseMs where
  notShort := min_le_left _ _
  notLong := le_max_left _ _
  advanced := by
    rw [Nat.cast_zero, zero_mul, sub_self]
  inTime := by
    have hlongest : settings.baseMs ≤ settings.longest := le_max_left _ _
    rw [sub_self]
    linarith

/-- A round that ends with a pause. -/
theorem Paced.next (h : Paced settings started n now delay) (hpace : 0 < settings.pace) {took : ℚ}
    (htook : 0 ≤ took) (hin : ¬ settings.timeoutMs < now + took - started) :
    Paced settings started (n + 1) (now + took + delay) (min settings.maxMs (delay * 2)) where
  notShort := by
    have hshort := h.notShort
    exact le_min (min_le_right _ _) (by linarith)
  notLong := (min_le_left _ _).trans (le_max_right _ _)
  advanced := by
    have hshort := h.notShort
    have hadvanced := h.advanced
    rw [Nat.cast_succ, add_one_mul]
    linarith
  inTime := by
    have hlong := h.notLong
    rw [not_lt] at hin
    linarith

/-- How a run from its `n`-th poll on ends. -/
structure Ends (settings : Settings) (getReceipt : ℕ → Reply ε) (started : ℚ) (n : ℕ)
    (s : Settled ε) : Prop where
  polled : n ≤ s.lastPoll
  nothingBefore : ∀ i, n ≤ i → i < s.lastPoll → (getReceipt i).answer = .ok none
  receipt : ∀ r, s.outcome = .returned r ↔ (getReceipt s.lastPoll).answer = .ok (some r)
  timeout : ∀ message, s.outcome = .timedOut message →
    (getReceipt s.lastPoll).answer = .ok none ∧ settings.timeoutMs < s.endedAt - started
  inTime : s.endedAt - started
    ≤ settings.timeoutMs + settings.longest + (getReceipt s.lastPoll).took

theorem Paced.ends (h : Paced settings started n now delay) (outcome : Outcome ε)
    (hreceipt : ∀ r, outcome = .returned r ↔ (getReceipt n).answer = .ok (some r))
    (htimeout : ∀ message, outcome = .timedOut message → (getReceipt n).answer = .ok none
      ∧ settings.timeoutMs < now + (getReceipt n).took - started) :
    Ends settings getReceipt started n ⟨n, now + (getReceipt n).took, outcome⟩ where
  polled := le_refl n
  nothingBefore i hni hin := absurd hni (Nat.not_le.mpr hin)
  receipt := hreceipt
  timeout := htimeout
  inTime := by
    have hin := h.inTime
    show now + (getReceipt n).took - started ≤ _
    linarith

theorem Ends.cons (hnone : (getReceipt n).answer = .ok none) {s : Settled ε}
    (h : Ends settings getReceipt started (n + 1) s) : Ends settings getReceipt started n s where
  polled := Nat.le_of_succ_le h.polled
  nothingBefore i hni hlast := by
    rcases Nat.eq_or_lt_of_le hni with rfl | hlt
    · exact hnone
    · exact h.nothingBefore i hlt hlast
  receipt := h.receipt
  timeout := h.timeout
  inTime := h.inTime

variable (txHash)

/-- A poll after which the loop does not pause. -/
theorem exists_ends_of_last (h : Paced settings started n now delay)
    (hlast : (getReceipt n).answer = .ok none →
      settings.timeoutMs < now + (getReceipt n).took - started) :
    ∃ s, Ends settings getReceipt started n s ∧ s.lastPoll = n
      ∧ ∀ rounds, n < n + rounds →
        loop settings txHash getReceipt started rounds n now delay = some s := by
  have hround : ∀ outcome : Outcome ε,
      (∀ rounds, loop settings txHash getReceipt started (rounds + 1) n now delay
        = some ⟨n, now + (getReceipt n).took, outcome⟩) →
      ∀ rounds, n < n + rounds → loop settings txHash getReceipt started rounds n now delay
        = some ⟨n, now + (getReceipt n).took, outcome⟩ := by
    intro outcome hloop rounds hrounds
    cases rounds with
    | zero => exact absurd hrounds (lt_irrefl n)
    | succ rounds => exact hloop rounds
  cases hanswer : (getReceipt n).answer with
  | error error =>
      refine ⟨_, h.ends (.failed error) ?_ nofun, rfl, hround _ (loop_of_error hanswer)⟩
      intro r
      rw [hanswer]
      exact iff_of_false nofun nofun
  | ok answer =>
      cases answer with
      | some r =>
          refine ⟨_, h.ends (.returned r) ?_ nofun, rfl, hround _ (loop_of_receipt hanswer)⟩
          intro r'
          rw [hanswer, Outcome.returned.injEq, Except.ok.injEq, Option.some.injEq]
      | none =>
          have hlate := hlast hanswer
          have hloop : ∀ rounds, loop settings txHash getReceipt started (rounds + 1) n now delay
              = some ⟨n, now + (getReceipt n).took,
                .timedOut (js "Receipt timeout for " ++ txHash)⟩ := by
            intro rounds
            rw [loop_of_none hanswer, if_pos hlate]
          refine ⟨_, h.ends _ ?_ ?_, rfl, hround _ hloop⟩
          · intro r
            rw [hanswer]
            exact iff_of_false nofun nofun
          · intro _ _
            exact ⟨hanswer, hlate⟩

/-- **A run ends.**  `k` bounds the pauses that are left: after them the clock is past the timeout.
-/
theorem exists_ends (hpace : 0 < settings.pace) {k : ℕ} (h : Paced settings started n now delay)
    (hk : settings.timeoutMs < (n + k : ℕ) * settings.pace) :
    ∃ s, Ends settings getReceipt started n s ∧ s.lastPoll ≤ n + k
      ∧ ∀ rounds, s.lastPoll < n + rounds →
        loop settings txHash getReceipt started rounds n now delay = some s := by
  induction k generalizing n now delay with
  | zero =>
      have hlast : settings.timeoutMs < now + (getReceipt n).took - started := by
        have hadvanced := h.advanced
        have htook := (getReceipt n).took_nonneg
        rw [Nat.add_zero] at hk
        linarith
      obtain ⟨s, hends, rfl, hloop⟩ := exists_ends_of_last txHash h fun _ => hlast
      exact ⟨s, hends, le_rfl, hloop⟩
  | succ k ih =>
      by_cases hlast : (getReceipt n).answer = .ok none →
          settings.timeoutMs < now + (getReceipt n).took - started
      · obtain ⟨s, hends, rfl, hloop⟩ := exists_ends_of_last txHash h hlast
        exact ⟨s, hends, Nat.le_add_right _ _, hloop⟩
      · obtain ⟨hnone, hin⟩ := Classical.not_imp.mp hlast
        have hnext := h.next hpace (getReceipt n).took_nonneg hin
        have hcount : n + 1 + k = n + (k + 1) := by omega
        rw [← hcount] at hk ⊢
        obtain ⟨s, hends, hle, hloop⟩ := ih hnext hk
        refine ⟨s, hends.cons hnone, hle, ?_⟩
        intro rounds hrounds
        have hpolled := hends.polled
        cases rounds with
        | zero => omega
        | succ rounds =>
            rw [loop_of_none hnone, if_neg hin]
            exact hloop rounds (by omega)

end Rounds

/-- Bounded polling that loses no receipt, when every query takes at most `latency`. -/
structure Bounded {ε : Type} (settings : Settings) (getReceipt : ℕ → Reply ε)
    (started latency : ℚ) (s : Settled ε) : Prop where
  nothingBefore : ∀ n < s.lastPoll, (getReceipt n).answer = .ok none
  receipt : ∀ r, s.outcome = .returned r ↔ (getReceipt s.lastPoll).answer = .ok (some r)
  timeout : ∀ message, s.outcome = .timedOut message →
    (getReceipt s.lastPoll).answer = .ok none ∧ settings.timeoutMs < s.endedAt - started
  inTime : s.endedAt ≤ started + settings.timeoutMs + max settings.baseMs settings.maxMs + latency

/-- **Polling is bounded and loses no receipt.**  It settles after finitely many polls, with the
first receipt it is given, with the error of a query, or with the timeout and not too early; and
however it settles, it is in time. -/
theorem pollReceipt_bounded {ε : Type} (txHash : JsString) (getReceipt : ℕ → Reply ε)
    (opts : PollOptions) (started latency : ℚ) (htimeout : 0 ≤ opts.settings.timeoutMs)
    (hbase : 0 < opts.settings.baseMs) (hmax : 0 < opts.settings.maxMs)
    (hlatency : ∀ n, (getReceipt n).took ≤ latency) :
    ∃ s, (∀ rounds, s.lastPoll < rounds →
        pollReceipt txHash getReceipt opts started rounds = some s)
      ∧ s.lastPoll
          ≤ ⌊opts.settings.timeoutMs / min opts.settings.baseMs opts.settings.maxMs⌋₊ + 1
      ∧ Bounded opts.settings getReceipt started latency s := by
  have hpace : 0 < opts.settings.pace := lt_min hbase hmax
  have hfloor := Nat.lt_floor_add_one (opts.settings.timeoutMs / opts.settings.pace)
  rw [div_lt_iff₀ hpace, ← Nat.cast_succ] at hfloor
  rw [← Nat.zero_add (Nat.succ _)] at hfloor
  obtain ⟨s, hends, hle, hloop⟩ := exists_ends txHash hpace (paced_start htimeout hbase) hfloor
  refine ⟨s, ?_, ?_, ?_⟩
  · intro rounds hrounds
    exact hloop rounds (by omega)
  · rw [Nat.zero_add] at hle
    exact hle
  · refine ⟨fun n hn => hends.nothingBefore n (Nat.zero_le n) hn, hends.receipt, hends.timeout, ?_⟩
    have hin := hends.inTime
    have hlast := hlatency s.lastPoll
    rw [Settings.longest] at hin
    linarith

/-- A node that never has the receipt and takes a second to say so. -/
def silent (_ : ℕ) : Reply JsString := ⟨.ok none, 1000, Nat.ofNat_nonneg 1000⟩

theorem silent_bounded : ∃ s, (∀ rounds, s.lastPoll < rounds →
      pollReceipt (js "0xab") silent {} 0 rounds = some s)
    ∧ s.lastPoll ≤ ⌊(120000 : ℚ) / min 500 8000⌋₊ + 1
    ∧ Bounded ⟨120000, 500, 8000⟩ silent 0 1000 s :=
  pollReceipt_bounded (js "0xab") silent {} 0 1000 (by decide) (by decide) (by decide)
    fun _ => le_refl 1000

end A2aAgentLayer.Blockchain.ReceiptPoller
