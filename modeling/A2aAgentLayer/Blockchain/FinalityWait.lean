import A2aAgentLayer.Blockchain.ConfirmationPolicy
import Mathlib.Data.Rat.Floor

/-!
# Does the wait for finality end?

The loop of `awaitFinal` against a chain that settles: from some moment on the receipt of the
transaction stays the same and the head grows beyond every bound.  Then the loop ends if the
transaction succeeded and the depth can be reached at all.  A transaction that was mined as reverted
keeps it polling: no branch of the loop throws.
-/

namespace A2aAgentLayer.Blockchain.FinalityWait

open A2aAgentLayer.Lib.Utf16 A2aAgentLayer.Blockchain.ConfirmationPolicy

/-- What the chain would answer at each moment, and what it settles to. -/
structure Observations where
  receipt : ℕ → Option Receipt
  head : ℕ → ℤ
  final : Receipt
  settles : ∃ moment, ∀ n, moment ≤ n → receipt n = some final
  grows : ∀ bound, ∃ moment, ∀ n, moment ≤ n → bound ≤ head n

/-- The test network, with a setting of `BLOCKCHAIN_CONFIRMATIONS`. -/
def withSetting (setting : Confirmations) : Env where
  networks := [(js "prom-testnet", ⟨js "prom-testnet", setting⟩)]
  promNetwork := none

/-- What happens at a moment: the query under way is answered, or the pause ends. -/
def answer (chain : Observations) (n : ℕ) : Phase → Event
  | .head _ => .head (chain.head n)
  | .pausing => .wake
  | _ => .receipt (chain.receipt n)

/-- The state of `awaitFinal` at each moment. -/
def stateAt (env : Env) (chain : Observations) : ℕ → State
  | 0 => initial env
  | n + 1 =>
      let s := stateAt env chain n
      (step env s (answer chain n s.phase)).getD s

/-- How the wait should end: with the transaction final, or with an error if it reverted. -/
def outcome (r : Receipt) : Phase := if r.status = 1 then .returned else .threw

/-- A depth that a growing head reaches. -/
def attainable : Confirmations → Bool
  | .notANumber => false
  | .infinite negative => negative
  | .finite _ => true

/-! ### One moment -/

/-- The phase at the next moment. -/
def next (env : Env) (chain : Observations) (n : ℕ) : Phase → Phase
  | .receipt => afterReceipt (chain.receipt n)
  | .head r => afterHead env r (chain.head n)
  | .recheck r => afterRecheck r (chain.receipt n)
  | .pausing => .receipt
  | .returned => .returned
  | .threw => .threw

section Moments

variable (setting : Confirmations) (chain : Observations)

/-- The phase of the wait at each moment. -/
def phaseAt (n : ℕ) : Phase := (stateAt (withSetting setting) chain n).phase

theorem phaseAt_succ (n : ℕ) :
    phaseAt setting chain (n + 1)
      = next (withSetting setting) chain n (phaseAt setting chain n) := by
  unfold phaseAt
  rw [stateAt]
  cases hphase : (stateAt (withSetting setting) chain n).phase <;>
    simp only [step, answer, next, hphase, Option.getD_some, Option.getD_none]

variable {setting} {chain}

theorem need_withSetting : need (withSetting setting) = setting := rfl

/-- The wait does not throw: no query fails, and no branch of the loop gives up. -/
theorem phaseAt_ne_threw (n : ℕ) : phaseAt setting chain n ≠ .threw := by
  induction n with
  | zero => exact Phase.noConfusion
  | succ n ih =>
      rw [phaseAt_succ]
      cases hphase : phaseAt setting chain n with
      | receipt =>
          rcases afterReceipt_cases (chain.receipt n) with h | ⟨r, h⟩
          · rw [next, h]
            exact Phase.noConfusion
          · rw [next, h]
            exact Phase.noConfusion
      | head r =>
          rcases afterHead_cases (withSetting setting) r (chain.head n) with h | ⟨h, -⟩
          · rw [next, h]
            exact Phase.noConfusion
          · rw [next, h]
            exact Phase.noConfusion
      | recheck r =>
          rcases afterRecheck_cases r (chain.receipt n) with h | ⟨_, -, -, h⟩
          · rw [next, h]
            exact Phase.noConfusion
          · rw [next, h]
            exact Phase.noConfusion
      | pausing => exact Phase.noConfusion
      | returned => exact Phase.noConfusion
      | threw => exact absurd hphase ih

/-- A depth that is never reached leads to no recheck, and so to no return. -/
theorem phaseAt_of_unattainable (chain : Observations) (h : attainable setting = false) (n : ℕ) :
    phaseAt setting chain n = .receipt ∨ (∃ r, phaseAt setting chain n = .head r)
      ∨ phaseAt setting chain n = .pausing := by
  have hnever : ∀ depth, setting.reachedBy depth = false := by
    intro depth
    cases setting with
    | notANumber => rfl
    | infinite negative => exact h
    | finite q => cases h
  induction n with
  | zero => exact .inl rfl
  | succ n ih =>
      rw [phaseAt_succ]
      rcases ih with hphase | ⟨r, hphase⟩ | hphase
      · rw [hphase, next]
        rcases afterReceipt_cases (chain.receipt n) with h | h
        · exact .inr (.inr h)
        · exact .inr (.inl h)
      · rw [hphase, next, afterHead, need_withSetting, hnever]
        exact .inr (.inr rfl)
      · rw [hphase]
        exact .inl rfl

/-! ### A chain that has settled -/

/-- From this moment on the chain shows a successful transaction, deep enough. -/
def SettledBy (setting : Confirmations) (chain : Observations) (moment : ℕ) : Prop :=
  ∀ n, moment ≤ n → chain.receipt n = some chain.final
    ∧ setting.reachedBy (chain.head n - chain.final.blockNumber) = true

theorem exists_settledBy (h : attainable setting = true) :
    ∃ moment, SettledBy setting chain moment := by
  obtain ⟨settled, hsettled⟩ := chain.settles
  have hdeep : ∃ deep, ∀ n, deep ≤ n →
      setting.reachedBy (chain.head n - chain.final.blockNumber) = true := by
    cases setting with
    | notANumber => cases h
    | infinite negative => exact ⟨0, fun _ _ => h⟩
    | finite q =>
        obtain ⟨deep, hbound⟩ := chain.grows (⌈q⌉ + chain.final.blockNumber)
        refine ⟨deep, ?_⟩
        intro n hn
        have hhead : ⌈q⌉ ≤ chain.head n - chain.final.blockNumber := by
          have := hbound n hn
          omega
        exact decide_eq_true (Int.ceil_le.mp hhead)
  obtain ⟨deep, hdeep⟩ := hdeep
  refine ⟨max settled deep, ?_⟩
  intro n hn
  exact ⟨hsettled n (by omega), hdeep n (by omega)⟩

section Settled

variable {moment n : ℕ} (hsettled : SettledBy setting chain moment)
  (hstatus : chain.final.status = 1) (hn : moment ≤ n)

include hsettled hstatus hn

/-- A round that begins on a settled chain returns. -/
theorem returned_of_receipt (hphase : phaseAt setting chain n = .receipt) :
    phaseAt setting chain (n + 3) = .returned := by
  have hhead : phaseAt setting chain (n + 1) = .head chain.final := by
    rw [phaseAt_succ, hphase, next, (hsettled n hn).1, afterReceipt, if_pos hstatus]
  have hrecheck : phaseAt setting chain (n + 2) = .recheck chain.final := by
    rw [phaseAt_succ, hhead, next, afterHead, need_withSetting,
      (hsettled (n + 1) (by omega)).2, if_pos rfl]
  rw [phaseAt_succ, hrecheck, next, (hsettled (n + 2) (by omega)).1, afterRecheck, if_pos rfl]

theorem returned_of_pausing (hphase : phaseAt setting chain n = .pausing) :
    phaseAt setting chain (n + 4) = .returned := by
  have hreceipt : phaseAt setting chain (n + 1) = .receipt := by
    rw [phaseAt_succ, hphase, next]
  exact returned_of_receipt hsettled hstatus (by omega) hreceipt

theorem returned_of_recheck {r : Receipt} (hphase : phaseAt setting chain n = .recheck r) :
    ∃ m, phaseAt setting chain m = .returned := by
  have hnext : phaseAt setting chain (n + 1) = afterRecheck r (chain.receipt n) := by
    rw [phaseAt_succ, hphase, next]
  rcases afterRecheck_cases r (chain.receipt n) with h | ⟨_, -, -, h⟩
  · exact ⟨_, returned_of_pausing hsettled hstatus (by omega) (hnext.trans h)⟩
  · exact ⟨_, hnext.trans h⟩

theorem returned_of_head {r : Receipt} (hphase : phaseAt setting chain n = .head r) :
    ∃ m, phaseAt setting chain m = .returned := by
  have hnext : phaseAt setting chain (n + 1)
      = afterHead (withSetting setting) r (chain.head n) := by
    rw [phaseAt_succ, hphase, next]
  rcases afterHead_cases (withSetting setting) r (chain.head n) with h | ⟨h, -⟩
  · exact ⟨_, returned_of_pausing hsettled hstatus (by omega) (hnext.trans h)⟩
  · exact returned_of_recheck hsettled hstatus (by omega) (hnext.trans h)

/-- Wherever the loop stands when the chain has settled, it returns. -/
theorem exists_returned : ∃ m, phaseAt setting chain m = .returned := by
  cases hphase : phaseAt setting chain n with
  | receipt => exact ⟨_, returned_of_receipt hsettled hstatus hn hphase⟩
  | head r => exact returned_of_head hsettled hstatus hn hphase
  | recheck r => exact returned_of_recheck hsettled hstatus hn hphase
  | pausing => exact ⟨_, returned_of_pausing hsettled hstatus hn hphase⟩
  | returned => exact ⟨n, hphase⟩
  | threw => exact absurd hphase (phaseAt_ne_threw n)

end Settled

end Moments

/-- **When the wait ends.**  On a chain that settles, `awaitFinal` ends as it should exactly when
the transaction succeeded and the depth can be reached. -/
theorem ends_iff (setting : Confirmations) (chain : Observations) :
    (∃ n, (stateAt (withSetting setting) chain n).phase = outcome chain.final)
      ↔ chain.final.status = 1 ∧ attainable setting = true := by
  constructor
  · rintro ⟨n, hend⟩
    have hphase : phaseAt setting chain n = outcome chain.final := hend
    have hstatus : chain.final.status = 1 := by
      by_contra hreverted
      rw [outcome, if_neg hreverted] at hphase
      exact phaseAt_ne_threw n hphase
    refine ⟨hstatus, ?_⟩
    rw [outcome, if_pos hstatus] at hphase
    by_contra hunattainable
    rw [Bool.not_eq_true] at hunattainable
    rcases phaseAt_of_unattainable chain hunattainable n with h | ⟨r, h⟩ | h
    · cases h.symm.trans hphase
    · cases h.symm.trans hphase
    · cases h.symm.trans hphase
  · rintro ⟨hstatus, hattainable⟩
    obtain ⟨moment, hsettled⟩ := exists_settledBy hattainable
    rw [outcome, if_pos hstatus]
    exact exists_returned hsettled hstatus (le_refl moment)

/-- A transaction that is mined at once and reverts. -/
def revertedChain : Observations where
  receipt _ := some ⟨10, 0⟩
  head n := n
  final := ⟨10, 0⟩
  settles := ⟨0, fun _ _ => rfl⟩
  grows bound := ⟨bound.toNat, fun n hn => by omega⟩

/-- The loop keeps polling for it. -/
theorem revertedChain_polls : ¬ ∀ (q : ℚ) (chain : Observations),
    ∃ n, (stateAt (withSetting (.finite q)) chain n).phase = outcome chain.final := by
  intro h
  obtain ⟨n, hend⟩ := h 3 revertedChain
  exact phaseAt_ne_threw n hend

end A2aAgentLayer.Blockchain.FinalityWait
