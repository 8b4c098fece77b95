import A2aAgentLayer.Lib.DecimalValue
import A2aAgentLayer.Protocol.MeteredCalls
import Mathlib.Data.Rat.Floor
import Mathlib.Tactic.FieldSimp
import Mathlib.Tactic.Linarith

/-!
# The budget of a request

A request states the most it may cost, `maxBudget`, and the statement is part of what is hashed and
signed.  `handleRequest` computes a price from the length of the payload and never compares the two.
So a completed call stays within its budget exactly when its payload is short enough for it.
-/

namespace A2aAgentLayer.Protocol.BudgetLimit

open A2aAgentLayer.Lib.Utf16 A2aAgentLayer.Lib.Run A2aAgentLayer.Lib.DecimalValue
open A2aAgentLayer.Lib.NumberText A2aAgentLayer.Lib.JsObject
open A2aAgentLayer.Metering.MeteringService
open A2aAgentLayer.Protocol.Processing A2aAgentLayer.Protocol.HandleRequest
open A2aAgentLayer.Protocol.MeteredCalls

/-- The receipt of every completed call is stored, and its price is at most the budget. -/
def WithinBudget (s : State) : Prop :=
  ∀ (i : ℕ) (c : Call) (r : Receipt), s.calls[i]? = some c → c.phase = .completed r →
    (i, r) ∈ s.receipts ∧ fixedValue r.priceComputed ≤ value c.dto.maxBudget

/-- The payload has at most four units for each ten-thousandth of the budget. -/
def Affordable (dto : A2aRequestDto) : Prop :=
  ((stringify dto.requestPayload.tree).length : ℤ) ≤ 4 * ⌊10000 * value dto.maxBudget⌋

/-! ### The price -/

theorem readNat_padded (width n : ℕ) : readNat (padded width n) = n := by
  rw [padded, readNat_append, readNat_zeros, readNat_natText, Nat.mul_zero, Nat.zero_add]

/-- A price has eight digits behind the point and states ten-thousandths. -/
theorem fixedValue_priceComputed (tokensUsed : ℕ) :
    fixedValue (priceComputed tokensUsed) = tokensUsed / 10000 := by
  have hfour : (natText (tokensUsed % 10000)).length ≤ 4 := by
    rw [natText, List.length_map]
    exact (Nat.length_toDigits_le_iff (by decide) (by decide)).mpr (by omega)
  have htext : priceComputed tokensUsed = natText (tokensUsed / 10000)
      ++ unit '.' :: (padded 4 (tokensUsed % 10000) ++ js "0000") := by
    simp [priceComputed, js]
  have hfraction : (padded 4 (tokensUsed % 10000) ++ js "0000").length = 8 := by
    rw [List.length_append, length_padded hfour]
    rfl
  have hzeros : js "0000" = List.replicate 4 (unit '0') := by decide
  have hdigits : readNat (natText (tokensUsed / 10000)
      ++ (padded 4 (tokensUsed % 10000) ++ js "0000")) = 10000 * tokensUsed := by
    rw [readNat_append, hfraction, readNat_append, readNat_natText, readNat_padded, hzeros,
      readNat_zeros, List.length_replicate]
    omega
  rw [htext, fixedValue_append (fun u => digit_of_mem_natText), hdigits, hfraction]
  push_cast
  ring

theorem price_le_iff (length : ℕ) (budget : ℚ) :
    (((length + 3) / 4 : ℕ) : ℚ) / 10000 ≤ budget ↔ (length : ℤ) ≤ 4 * ⌊10000 * budget⌋ := by
  have htokens : (((length + 3) / 4 : ℕ) : ℚ) / 10000 ≤ budget
      ↔ (((length + 3) / 4 : ℕ) : ℤ) ≤ ⌊10000 * budget⌋ := by
    rw [Int.le_floor, div_le_iff₀ (by norm_num), mul_comm budget]
    rfl
  rw [htokens]
  omega

/-! ### Runs -/

/-- A completed call has stored its receipt, with the price of its payload. -/
theorem completed_price {env : Env} {policies : List Policies.Evaluator.Policy} {since : ℤ}
    {es : List Event} {s : State} (hrun : run (step env) (initial policies since) es = some s)
    {i : ℕ} {c : Call} {r : Receipt} (hc : s.calls[i]? = some c) (hphase : c.phase = .completed r) :
    (i, r) ∈ s.receipts ∧ r.priceComputed
      = priceComputed (((stringify c.dto.requestPayload.tree).length + 3) / 4) := by
  have hleaves := (metered hrun).calls i c hc
  rw [hphase] at hleaves
  obtain ⟨params, nonce, createdAt, ⟨started, stamped, finished, rfl⟩, hr, -, hreceipts⟩ := hleaves
  constructor
  · have hmem : r ∈ written i s.receipts := by
      rw [hreceipts]
      exact List.mem_singleton_self r
    obtain ⟨⟨j, receipt⟩, hrow, rfl⟩ := List.mem_map.mp hmem
    obtain ⟨hstored, hj⟩ := List.mem_filter.mp hrow
    obtain rfl : j = i := of_decide_eq_true hj
    exact hstored
  · rw [hr]
    rfl

/-- **Who is billed within the budget.**  In every run the completed calls stay within their budgets
exactly when each of them has a payload that its budget affords. -/
theorem withinBudget_iff {env : Env} {policies : List Policies.Evaluator.Policy} {since : ℤ}
    {es : List Event} {s : State} (hrun : run (step env) (initial policies since) es = some s) :
    WithinBudget s ↔ ∀ (i : ℕ) (c : Call) (r : Receipt), s.calls[i]? = some c →
      c.phase = .completed r → Affordable c.dto := by
  refine forall_congr' fun i => forall_congr' fun c => forall_congr' fun r =>
    forall_congr' fun hc => forall_congr' fun hphase => ?_
  obtain ⟨hstored, hprice⟩ := completed_price hrun hc hphase
  rw [and_iff_right hstored, hprice, fixedValue_priceComputed, Affordable]
  exact price_le_iff _ _

/-! ### A request without a budget -/

/-- A request that may cost nothing. -/
def freeRequest : A2aRequestDto := { requestWith (js "n-1") with maxBudget := .ofNat 0 }

/-- It is answered. -/
def answered (dto : A2aRequestDto) : List Event :=
  [.request dto 0 0, .call 0 (.decide 1 1 1), .call 0 (.record 2 (js "r-1")), .call 0 .sign,
    .call 0 (.store 3)]

theorem withinBudget_answered : ∃ s,
    run (step window) (initial [] 0) (answered (requestWith (js "n-1"))) = some s
      ∧ (WithinBudget s ↔ ∀ (i : ℕ) (c : Call) (r : Receipt), s.calls[i]? = some c →
        c.phase = .completed r → Affordable c.dto) := by
  obtain ⟨s, hs⟩ := Option.isSome_iff_exists.mp (by decide +kernel :
    (run (step window) (initial [] 0) (answered (requestWith (js "n-1")))).isSome = true)
  exact ⟨s, hs, withinBudget_iff hs⟩

/-- A request that may cost nothing is billed. -/
theorem freeRequest_billed :
    ¬ ∀ (env : Env) (policies : List Policies.Evaluator.Policy) (since : ℤ) (es : List Event)
        (s : State), run (step env) (initial policies since) es = some s → WithinBudget s := by
  intro h
  have hends : (run (step window) (initial [] 0) (answered freeRequest)).map (fun s =>
      (s.receipts.map Prod.fst, s.calls.map fun c =>
        ((stringify c.dto.requestPayload.tree).length, c.dto.maxBudget)))
      = some ([0], [(18, JsNumber.ofNat 0)]) := by
    decide +kernel
  obtain ⟨s, hs, hfacts⟩ := Option.map_eq_some_iff.mp hends
  obtain ⟨hreceipts, hcalls⟩ := Prod.mk.inj hfacts
  have hfirst : 0 ∈ s.receipts.map Prod.fst := by
    rw [hreceipts]
    exact List.mem_singleton_self 0
  obtain ⟨⟨i, r⟩, hrow, rfl⟩ := List.mem_map.mp hfirst
  obtain ⟨c, hc, hphase⟩ := call_of_receipt hs hrow
  have hmem : ((stringify c.dto.requestPayload.tree).length, c.dto.maxBudget)
      ∈ [(18, JsNumber.ofNat 0)] := by
    rw [← hcalls]
    exact List.mem_map_of_mem (List.mem_of_getElem? hc)
  obtain ⟨hlength, hbudget⟩ := Prod.mk.inj (List.mem_singleton.mp hmem)
  have hwithin := (h window [] 0 _ s hs 0 c r hc hphase).2
  have hzero : value (JsNumber.ofNat 0) = 0 := value_of_zero (by decide)
  rw [(completed_price hs hc hphase).2, fixedValue_priceComputed, price_le_iff, hlength, hbudget,
    hzero, mul_zero, Int.floor_zero] at hwithin
  omega

end A2aAgentLayer.Protocol.BudgetLimit
