import Mathlib.Algebra.Order.Ring.Rat
import A2aAgentLayer.Lib.Run
import A2aAgentLayer.Lib.Utf16

/-!
# Waiting for finality

`awaitFinal` polls: it asks for the receipt of the transaction, for the head of the chain when the
receipt has status 1, and for the receipt once more when the head is far enough ahead.  Any answer
may come from another chain than the answer before it.

The recheck compares block numbers only.  So the depth holds for the receipt that was observed last,
and its status is 1 unless the recheck answered with another one (`final_throughout_iff`).
-/

namespace A2aAgentLayer.Blockchain.ConfirmationPolicy

open A2aAgentLayer.Lib.Utf16 A2aAgentLayer.Lib.Run

/-- A value of type `number`. -/
inductive Confirmations where
  | notANumber
  | infinite (negative : Bool)
  | finite (q : ℚ)
  deriving DecidableEq

/-- `depth >= need`. -/
def Confirmations.reachedBy (need : Confirmations) (depth : ℤ) : Bool :=
  match need with
  | .notANumber => false
  | .infinite negative => negative
  | .finite q => decide (q ≤ depth)

structure NetworkProfile where
  name : JsString
  confirmations : Confirmations

/-- `NETWORKS` and `PROM_NETWORK`. -/
structure Env where
  networks : List (JsString × NetworkProfile)
  promNetwork : Option JsString

/-- The profile, or `none` for the error `Unknown network`. -/
def activeNetwork (env : Env) : Option NetworkProfile :=
  env.networks.lookup (env.promNetwork.getD (js "prom-testnet"))

structure Receipt where
  blockNumber : ℤ
  status : ℤ
  deriving DecidableEq

/-- What `awaitFinal` waits for, or how it ended. -/
inductive Phase where
  | receipt
  | head (r : Receipt)
  | recheck (r : Receipt)
  | pausing
  | returned
  | threw
  deriving DecidableEq

/-- The last answers are kept beside the phase. -/
structure State where
  phase : Phase
  lastReceipt : Option Receipt
  lastHead : Option ℤ
  deriving DecidableEq

/-- An answer to the query under way, its failure, or the end of the pause. -/
inductive Event where
  | receipt (answer : Option Receipt)
  | head (blockNumber : ℤ)
  | fails
  | wake

def need (env : Env) : Confirmations :=
  ((activeNetwork env).map (·.confirmations)).getD .notANumber

def initial (env : Env) : State :=
  ⟨if (activeNetwork env).isSome then .receipt else .threw, none, none⟩

/-- The first query of a round. -/
def afterReceipt : Option Receipt → Phase
  | none => .pausing
  | some r => if r.status = 1 then .head r else .pausing

def afterHead (env : Env) (r : Receipt) (head : ℤ) : Phase :=
  if (need env).reachedBy (head - r.blockNumber) then .recheck r else .pausing

/-- `recheck && recheck.blockNumber === r.blockNumber`. -/
def afterRecheck (r : Receipt) : Option Receipt → Phase
  | none => .pausing
  | some recheck => if recheck.blockNumber = r.blockNumber then .returned else .pausing

def step (env : Env) (s : State) : Event → Option State
  | .receipt answer =>
      match s.phase with
      | .receipt => some { s with phase := afterReceipt answer, lastReceipt := answer }
      | .recheck r => some { s with phase := afterRecheck r answer, lastReceipt := answer }
      | _ => none
  | .head blockNumber =>
      match s.phase with
      | .head r =>
          some { s with phase := afterHead env r blockNumber, lastHead := some blockNumber }
      | _ => none
  | .fails =>
      match s.phase with
      | .receipt => some { s with phase := .threw }
      | .head _ => some { s with phase := .threw }
      | .recheck _ => some { s with phase := .threw }
      | _ => none
  | .wake =>
      match s.phase with
      | .pausing => some { s with phase := .receipt }
      | _ => none

/-- **What a step does:** a query is answered, it fails, or the pause ends. -/
theorem step_cases {env : Env} {s t : State} {e : Event} (h : step env s e = some t) :
    (∃ answer, e = .receipt answer ∧ s.phase = .receipt
        ∧ t = { s with phase := afterReceipt answer, lastReceipt := answer })
      ∨ (∃ r answer, e = .receipt answer ∧ s.phase = .recheck r
        ∧ t = { s with phase := afterRecheck r answer, lastReceipt := answer })
      ∨ (∃ r head, e = .head head ∧ s.phase = .head r
        ∧ t = { s with phase := afterHead env r head, lastHead := some head })
      ∨ t = { s with phase := .threw } ∨ t = { s with phase := .receipt } := by
  cases e with
  | receipt answer =>
      simp only [step] at h
      split at h
      next hphase => exact .inl ⟨answer, rfl, hphase, (Option.some.inj h).symm⟩
      next r hphase => exact .inr (.inl ⟨r, answer, rfl, hphase, (Option.some.inj h).symm⟩)
      · cases h
  | head head =>
      simp only [step] at h
      split at h
      next r hphase => exact .inr (.inr (.inl ⟨r, head, rfl, hphase, (Option.some.inj h).symm⟩))
      · cases h
  | fails =>
      simp only [step] at h
      split at h
      · exact .inr (.inr (.inr (.inl (Option.some.inj h).symm)))
      · exact .inr (.inr (.inr (.inl (Option.some.inj h).symm)))
      · exact .inr (.inr (.inr (.inl (Option.some.inj h).symm)))
      · cases h
  | wake =>
      simp only [step] at h
      split at h
      · exact .inr (.inr (.inr (.inr (Option.some.inj h).symm)))
      · cases h

theorem afterReceipt_cases (answer : Option Receipt) :
    afterReceipt answer = .pausing ∨ ∃ r, afterReceipt answer = .head r := by
  cases answer with
  | none => exact .inl rfl
  | some r =>
      by_cases hstatus : r.status = 1
      · exact .inr ⟨r, if_pos hstatus⟩
      · exact .inl (if_neg hstatus)

theorem afterRecheck_cases (r : Receipt) (answer : Option Receipt) :
    afterRecheck r answer = .pausing ∨ ∃ recheck, answer = some recheck
      ∧ recheck.blockNumber = r.blockNumber ∧ afterRecheck r answer = .returned := by
  cases answer with
  | none => exact .inl rfl
  | some recheck =>
      by_cases hsame : recheck.blockNumber = r.blockNumber
      · exact .inr ⟨recheck, rfl, hsame, if_pos hsame⟩
      · exact .inl (if_neg hsame)

theorem afterHead_cases (env : Env) (r : Receipt) (head : ℤ) :
    afterHead env r head = .pausing ∨ afterHead env r head = .recheck r
      ∧ (need env).reachedBy (head - r.blockNumber) = true := by
  by_cases hdeep : (need env).reachedBy (head - r.blockNumber) = true
  · exact .inr ⟨if_pos hdeep, hdeep⟩
  · exact .inl (if_neg hdeep)

/-! ### Finality -/

/-- The last head is deep enough for a block. -/
def Deep (env : Env) (s : State) (blockNumber : ℤ) : Prop :=
  ∃ head, s.lastHead = some head ∧ (need env).reachedBy (head - blockNumber) = true

/-- The last receipt succeeded and is deep enough below the last head. -/
def Final (env : Env) (s : State) : Prop :=
  ∃ r, s.lastReceipt = some r ∧ r.status = 1 ∧ Deep env s r.blockNumber

/-- `awaitFinal` has not returned, or what it has seen last is final. -/
def ReturnsFinal (env : Env) (s : State) : Prop := s.phase = .returned → Final env s

/-- A recheck that finds the block number of the first receipt finds status 1 as well. -/
def RecheckSucceeds (s : State) (e : Event) : Prop :=
  ∀ r recheck, s.phase = .recheck r → e = .receipt (some recheck) →
    recheck.blockNumber = r.blockNumber → recheck.status = 1

/-- The recheck is asked for when the head was deep enough. -/
def Checked (env : Env) (s : State) : Prop :=
  ∀ r, s.phase = .recheck r → Deep env s r.blockNumber

theorem checked_of_step {env : Env} {s t : State} {e : Event} (hstep : step env s e = some t) :
    Checked env t := by
  intro r hr
  rcases step_cases hstep with ⟨answer, -, -, rfl⟩ | ⟨first, answer, -, -, rfl⟩
    | ⟨first, head, -, -, rfl⟩ | rfl | rfl
  · rcases afterReceipt_cases answer with h | ⟨r', h⟩
    · cases h.symm.trans hr
    · cases h.symm.trans hr
  · rcases afterRecheck_cases first answer with h | ⟨recheck, -, -, h⟩
    · cases h.symm.trans hr
    · cases h.symm.trans hr
  · rcases afterHead_cases env first head with h | ⟨h, hdeep⟩
    · cases h.symm.trans hr
    · obtain rfl := Phase.recheck.inj (h.symm.trans hr)
      exact ⟨head, rfl, hdeep⟩
  · cases hr
  · cases hr

/-- **Only the recheck returns,** and what it found decides. -/
theorem returned_cases {env : Env} {s t : State} {e : Event} (hstep : step env s e = some t)
    (hreturned : t.phase = .returned) :
    ∃ r recheck, s.phase = .recheck r ∧ e = .receipt (some recheck)
      ∧ recheck.blockNumber = r.blockNumber
      ∧ t.lastReceipt = some recheck ∧ t.lastHead = s.lastHead := by
  rcases step_cases hstep with ⟨answer, -, -, rfl⟩ | ⟨first, answer, rfl, hphase, rfl⟩
    | ⟨first, head, -, -, rfl⟩ | rfl | rfl
  · rcases afterReceipt_cases answer with h | ⟨r', h⟩
    · cases h.symm.trans hreturned
    · cases h.symm.trans hreturned
  · rcases afterRecheck_cases first answer with h | ⟨recheck, rfl, hsame, -⟩
    · cases h.symm.trans hreturned
    · exact ⟨first, recheck, hphase, rfl, hsame, rfl, rfl⟩
  · rcases afterHead_cases env first head with h | ⟨h, -⟩
    · cases h.symm.trans hreturned
    · cases h.symm.trans hreturned
  · cases hreturned
  · cases hreturned

/-- A recheck with the block number of the first receipt makes `awaitFinal` return. -/
theorem recheck_returns {env : Env} {s t : State} {r recheck : Receipt}
    (hphase : s.phase = .recheck r) (hsame : recheck.blockNumber = r.blockNumber)
    (hstep : step env s (.receipt (some recheck)) = some t) :
    t.phase = .returned ∧ t.lastReceipt = some recheck := by
  simp only [step, hphase] at hstep
  obtain rfl := Option.some.inj hstep
  exact ⟨if_pos hsame, rfl⟩

/-- **When finality means a successful, deep transaction.**  In every run, `awaitFinal` returns only
on a final receipt, if and only if no recheck answers with the block number of the first receipt and
another status than 1. -/
theorem final_throughout_iff (env : Env) : ∀ es s, run (step env) (initial env) es = some s →
    ((∀ ps m, ps <+: es → run (step env) (initial env) ps = some m → ReturnsFinal env m)
      ↔ AllSteps (step env) RecheckSucceeds (initial env) es) := by
  have hinitial : Checked env (initial env) := by
    intro r hr
    simp only [initial] at hr
    split_ifs at hr
  refine throughout_iff (step env) hinitial ?_ (fun _ _ _ _ hstep => checked_of_step hstep) ?_
  · intro hreturned
    simp only [initial] at hreturned
    split_ifs at hreturned
  · intro s e t hchecked _ hstep
    constructor
    · rintro hfinal r recheck hphase rfl hsame
      obtain ⟨hreturned, hlast⟩ := recheck_returns hphase hsame hstep
      obtain ⟨r', hr', hstatus, -⟩ := hfinal hreturned
      obtain rfl := Option.some.inj (hlast.symm.trans hr')
      exact hstatus
    · intro hsucceeds hreturned
      obtain ⟨r, recheck, hphase, rfl, hsame, hlast, hhead⟩ := returned_cases hstep hreturned
      obtain ⟨head, hhead', hdeep⟩ := hchecked r hphase
      refine ⟨recheck, hlast, hsucceeds r recheck hphase rfl hsame, head, hhead.trans hhead', ?_⟩
      rw [hsame]
      exact hdeep

/-! Three confirmations on the test network. -/

def testnet : Env where
  networks := [(js "prom-testnet", ⟨js "prom-testnet", .finite 3⟩)]
  promNetwork := none

/-- The transaction is not mined at first, then its block gets deep enough. -/
def mined : List Event :=
  [.receipt none, .wake, .receipt (some ⟨10, 1⟩), .head 12, .wake, .receipt (some ⟨10, 1⟩),
    .head 13, .receipt (some ⟨10, 1⟩)]

theorem final_throughout_mined : ∃ s, run (step testnet) (initial testnet) mined = some s
    ∧ s.phase = .returned
    ∧ ((∀ ps m, ps <+: mined → run (step testnet) (initial testnet) ps = some m →
        ReturnsFinal testnet m)
      ↔ AllSteps (step testnet) RecheckSucceeds (initial testnet) mined) := by
  obtain ⟨s, hs⟩ := Option.isSome_iff_exists.mp
    (by decide : (run (step testnet) (initial testnet) mined).isSome = true)
  have hphase : (run (step testnet) (initial testnet) mined).map (·.phase) = some .returned := by
    decide
  rw [hs, Option.map_some, Option.some.injEq] at hphase
  exact ⟨s, hs, hphase, final_throughout_iff testnet mined s hs⟩

/-- The chain reorganises before the recheck: the transaction is in a block of the same height
again, and has reverted there. -/
def reverted : List Event := [.receipt (some ⟨10, 1⟩), .head 13, .receipt (some ⟨10, 0⟩)]

theorem reverted_returns : ∃ s, run (step testnet) (initial testnet) reverted = some s
    ∧ s.phase = .returned ∧ s.lastReceipt = some ⟨10, 0⟩ ∧ ¬ Final testnet s := by
  obtain ⟨s, hs⟩ := Option.isSome_iff_exists.mp
    (by decide : (run (step testnet) (initial testnet) reverted).isSome = true)
  have hend : (run (step testnet) (initial testnet) reverted).map
      (fun s => (s.phase, s.lastReceipt)) = some (.returned, some ⟨10, 0⟩) := by decide
  rw [hs, Option.map_some, Option.some.injEq, Prod.mk.injEq] at hend
  refine ⟨s, hs, hend.1, hend.2, ?_⟩
  rintro ⟨r, hr, hstatus, -⟩
  obtain rfl := Option.some.inj (hend.2.symm.trans hr)
  cases hstatus

end A2aAgentLayer.Blockchain.ConfirmationPolicy
