import A2aAgentLayer.Protocol.HandleRuns

/-!
# What a call leaves behind

The usage record, the signature and the receipt of a request come one after the other, each may
fail, and nothing ties them together.  What a call has written is determined by how far it got:
nothing, a usage record, or a usage record and the signed receipt.
-/

namespace A2aAgentLayer.Protocol.MeteredCalls

open A2aAgentLayer.Lib.Utf16 A2aAgentLayer.Lib.Run
open A2aAgentLayer.Metering.MeteringService A2aAgentLayer.Policies.Evaluator
open A2aAgentLayer.Protocol.Processing A2aAgentLayer.Protocol.HandleRequest

/-- The rows of one call. -/
def written {α : Type*} (i : ℕ) (rows : List (ℕ × α)) : List α :=
  (rows.filter fun row => decide (row.1 = i)).map Prod.snd

/-- What the call computed for its receipt. -/
def Prepared (env : Env) (dto : A2aRequestDto) (params : ReceiptParams) : Prop :=
  ∃ started stamped finished,
    params = receiptParams env.sha256 env.keccak256 dto started stamped finished

/-- One usage record of the request, with the metrics of its receipt. -/
def Billed (dto : A2aRequestDto) (params : ReceiptParams) (usage : List UsageRecord) : Prop :=
  ∃ createdAt, usage = [usageRecord dto params.usageMetrics createdAt]

/-- The rows of a call in each phase. -/
def Leaves (env : Env) (dto : A2aRequestDto) (usage : List UsageRecord) (receipts : List Receipt) :
    Phase → Prop
  | .deciding => usage = [] ∧ receipts = []
  | .recording params => Prepared env dto params ∧ usage = [] ∧ receipts = []
  | .signing params _ => Prepared env dto params ∧ Billed dto params usage ∧ receipts = []
  | .storing params nonce signature =>
      Prepared env dto params ∧ signature = env.wallet (messageToSign params nonce)
        ∧ Billed dto params usage ∧ receipts = []
  | .completed receipt => ∃ params nonce createdAt, Prepared env dto params
      ∧ receipt = signedReceipt params nonce (env.wallet (messageToSign params nonce)) createdAt
      ∧ Billed dto params usage ∧ receipts = [receipt]
  | .failed .signing | .failed .receiptWrite =>
      (∃ params, Prepared env dto params ∧ Billed dto params usage) ∧ receipts = []
  | .failed _ => usage = [] ∧ receipts = []

/-- **One step of a call.** -/
theorem Leaves.callStep {env : Env} {policies : List Policy} {now : ℤ} {dto : A2aRequestDto}
    {usage : List UsageRecord} {receipts : List Receipt} {phase : Phase} {e : CallEvent}
    {effect : Effect} (h : Leaves env dto usage receipts phase)
    (hstep : callStep env policies now dto phase e = some effect) :
    Leaves env dto (usage ++ effect.usage) (receipts ++ effect.receipts) effect.phase := by
  unfold HandleRequest.callStep at hstep
  split at hstep
  case h_1 started stamped finished =>
    obtain ⟨rfl, rfl⟩ := h
    rw [Option.ite_none_right_eq_some] at hstep
    obtain ⟨-, hstep⟩ := hstep
    split at hstep
    · obtain rfl := Option.some.inj hstep
      exact ⟨rfl, rfl⟩
    · obtain rfl := Option.some.inj hstep
      exact ⟨⟨started, stamped, finished, rfl⟩, rfl, rfl⟩
  case h_2 =>
    obtain rfl := Option.some.inj hstep
    obtain ⟨rfl, rfl⟩ := h
    exact ⟨rfl, rfl⟩
  case h_3 params createdAt nonce =>
    obtain rfl := Option.some.inj hstep
    obtain ⟨hparams, rfl, rfl⟩ := h
    exact ⟨hparams, ⟨createdAt, rfl⟩, rfl⟩
  case h_4 =>
    obtain rfl := Option.some.inj hstep
    obtain ⟨-, rfl, rfl⟩ := h
    exact ⟨rfl, rfl⟩
  case h_5 =>
    obtain rfl := Option.some.inj hstep
    obtain ⟨hparams, ⟨createdAt, rfl⟩, rfl⟩ := h
    exact ⟨hparams, rfl, ⟨createdAt, rfl⟩, rfl⟩
  case h_6 =>
    obtain rfl := Option.some.inj hstep
    obtain ⟨hparams, ⟨createdAt, rfl⟩, rfl⟩ := h
    exact ⟨⟨_, hparams, createdAt, rfl⟩, rfl⟩
  case h_7 stored =>
    obtain rfl := Option.some.inj hstep
    obtain ⟨hparams, rfl, ⟨createdAt, rfl⟩, rfl⟩ := h
    exact ⟨_, _, stored, hparams, rfl, ⟨createdAt, rfl⟩, rfl⟩
  case h_8 =>
    obtain rfl := Option.some.inj hstep
    obtain ⟨hparams, -, ⟨createdAt, rfl⟩, rfl⟩ := h
    exact ⟨⟨_, hparams, createdAt, rfl⟩, rfl⟩
  case h_9 => cases hstep

/-! ### Runs -/

theorem written_append {α : Type*} (i : ℕ) (rows more : List (ℕ × α)) :
    written i (rows ++ more) = written i rows ++ written i more := by
  rw [written, List.filter_append, List.map_append, ← written, ← written]

theorem written_self {α : Type*} (i : ℕ) (added : List α) :
    written i (added.map (i, ·)) = added := by
  rw [written, List.filter_eq_self.mpr, List.map_map]
  · exact List.map_id' added
  · intro row hrow
    obtain ⟨a, -, rfl⟩ := List.mem_map.mp hrow
    exact decide_eq_true rfl

theorem written_other {α : Type*} {i j : ℕ} (h : i ≠ j) (added : List α) :
    written j (added.map (i, ·)) = [] := by
  rw [written, List.filter_eq_nil_iff.mpr, List.map_nil]
  intro row hrow
  obtain ⟨a, -, rfl⟩ := List.mem_map.mp hrow
  simpa using h

/-- The rows of every call are those of its phase, and no row is of another call. -/
structure Metered (env : Env) (s : State) : Prop where
  calls : ∀ i c, s.calls[i]? = some c →
    Leaves env c.dto (written i s.usage) (written i s.receipts) c.phase
  strangers : ∀ i, s.calls.length ≤ i → written i s.usage = [] ∧ written i s.receipts = []

theorem metered_step {env : Env} (s : State) (e : Event) (t : State) (hs : Metered env s)
    (hstep : step env s e = some t) : Metered env t := by
  cases e with
  | request dto reached written =>
      obtain ⟨-, rfl⟩ := step_request.mp hstep
      refine ⟨fun i c hc => ?_, fun i hi => ?_⟩
      · rcases getElem?_concat_eq_some.mp hc with hc | ⟨rfl, rfl⟩
        · exact hs.calls i c hc
        · have hnone := hs.strangers s.calls.length le_rfl
          show Leaves env dto _ _ (if _ then .deciding else .failed .replayed)
          split_ifs
          · exact hnone
          · exact hnone
      · refine hs.strangers i ?_
        rw [List.length_append] at hi
        omega
  | evict now =>
      obtain ⟨-, rfl⟩ := step_evict.mp hstep
      exact ⟨hs.calls, hs.strangers⟩
  | setPolicies policies =>
      obtain rfl := Option.some.inj hstep
      exact ⟨hs.calls, hs.strangers⟩
  | call j e =>
      obtain ⟨call, effect, hcall, heffect, rfl⟩ := step_call hstep
      have hj := (List.getElem?_eq_some_iff.mp hcall).1
      refine ⟨fun i c hc => ?_, fun i hi => ?_⟩
      · show Leaves env c.dto (written i (s.usage ++ effect.usage.map (j, ·)))
          (written i (s.receipts ++ effect.receipts.map (j, ·))) c.phase
        rw [written_append, written_append]
        by_cases hij : j = i
        · subst hij
          obtain rfl := Option.some.inj ((List.getElem?_set_self hj).symm.trans hc)
          rw [written_self, written_self]
          exact (hs.calls j call hcall).callStep heffect
        · rw [written_other hij, written_other hij, List.append_nil, List.append_nil]
          exact hs.calls i c ((List.getElem?_set_ne hij).symm.trans hc)
      · replace hi : s.calls.length ≤ i := (List.length_set ..).symm.trans_le hi
        have hne : j ≠ i := by omega
        show written i (s.usage ++ _) = [] ∧ written i (s.receipts ++ _) = []
        rw [written_append, written_append, written_other hne, written_other hne, List.append_nil,
          List.append_nil]
        exact hs.strangers i hi

theorem metered {env : Env} {policies : List Policy} {since : ℤ} {es : List Event} {s : State}
    (hrun : run (step env) (initial policies since) es = some s) : Metered env s :=
  run_invariant (step env) metered_step
    ⟨fun _ _ hc => by simp [initial] at hc, fun _ _ => ⟨rfl, rfl⟩⟩ hrun

/-! ### Usage records and receipts -/

/-- All calls are over. -/
def Settled (s : State) : Prop :=
  ∀ c ∈ s.calls, (∃ receipt, c.phase = .completed receipt) ∨ ∃ why, c.phase = .failed why

/-- The call failed after its usage record was written. -/
def FailedLate (c : Call) : Prop := c.phase = .failed .signing ∨ c.phase = .failed .receiptWrite

/-- Usage records and receipts correspond: the same request has as many of either, for the same
sessions. -/
def InStep (s : State) : Prop :=
  ∀ i, (written i s.usage).map (·.sessionId) = (written i s.receipts).map (·.sessionId)

/-- What the calls of a run leave in the two tables. -/
structure Outcome (s : State) : Prop where
  completed : ∀ i c r, s.calls[i]? = some c → c.phase = .completed r →
    ∃ u, written i s.usage = [u] ∧ written i s.receipts = [r]
      ∧ u.sessionId = c.dto.sessionId ∧ r.sessionId = c.dto.sessionId
  failedLate : ∀ i c, s.calls[i]? = some c → FailedLate c →
    ∃ u, written i s.usage = [u] ∧ written i s.receipts = [] ∧ u.sessionId = c.dto.sessionId
  failedEarly : ∀ i c why, s.calls[i]? = some c → c.phase = .failed why → ¬ FailedLate c →
    written i s.usage = [] ∧ written i s.receipts = []
  receipts : ∀ i r, (i, r) ∈ s.receipts →
    ∃ u, written i s.usage = [u] ∧ written i s.receipts = [r] ∧ u.sessionId = r.sessionId
  inStep_iff : Settled s → (InStep s ↔ ∀ c ∈ s.calls, ¬ FailedLate c)

theorem Leaves.completed {env : Env} {dto : A2aRequestDto} {usage : List UsageRecord}
    {receipts : List Receipt} {r : Receipt} (h : Leaves env dto usage receipts (.completed r)) :
    ∃ u, usage = [u] ∧ receipts = [r] ∧ u.sessionId = dto.sessionId
      ∧ r.sessionId = dto.sessionId := by
  obtain ⟨params, nonce, createdAt, ⟨started, stamped, finished, rfl⟩, rfl, ⟨at', rfl⟩, rfl⟩ := h
  exact ⟨_, rfl, rfl, rfl, rfl⟩

theorem Leaves.failedLate {env : Env} {c : Call} {usage : List UsageRecord}
    {receipts : List Receipt} (h : Leaves env c.dto usage receipts c.phase) (hlate : FailedLate c) :
    ∃ u, usage = [u] ∧ receipts = [] ∧ u.sessionId = c.dto.sessionId := by
  rcases hlate with hphase | hphase
  all_goals
    rw [hphase] at h
    obtain ⟨⟨params, -, createdAt, rfl⟩, rfl⟩ := h
    exact ⟨_, rfl, rfl, rfl⟩

theorem Leaves.failedEarly {env : Env} {c : Call} {usage : List UsageRecord}
    {receipts : List Receipt} {why : Failure} (h : Leaves env c.dto usage receipts c.phase)
    (hphase : c.phase = .failed why) (hearly : ¬ FailedLate c) : usage = [] ∧ receipts = [] := by
  rw [hphase] at h
  cases why with
  | signing => exact absurd (.inl hphase) hearly
  | receiptWrite => exact absurd (.inr hphase) hearly
  | replayed => exact h
  | policyLookup => exact h
  | forbidden message => exact h
  | usageWrite => exact h

/-- A call has a receipt only when it completed. -/
theorem Leaves.completed_of_receipt {env : Env} {dto : A2aRequestDto} {usage : List UsageRecord}
    {receipts : List Receipt} {phase : Phase} {r : Receipt}
    (h : Leaves env dto usage receipts phase)
    (hr : r ∈ receipts) : phase = .completed r := by
  cases phase with
  | deciding => simp [h.2] at hr
  | recording params => simp [h.2.2] at hr
  | signing params nonce => simp [h.2.2] at hr
  | storing params nonce signature => simp [h.2.2.2] at hr
  | completed receipt =>
      obtain ⟨_, _, _, -, -, -, rfl⟩ := h
      rw [List.mem_singleton.mp hr]
  | failed why => cases why <;> simp [h.2] at hr

/-- A receipt is the one of its call, which completed. -/
theorem call_of_receipt {env : Env} {policies : List Policy} {since : ℤ} {es : List Event}
    {s : State} (hrun : run (step env) (initial policies since) es = some s) {i : ℕ} {r : Receipt}
    (hr : (i, r) ∈ s.receipts) :
    ∃ c, s.calls[i]? = some c ∧ c.phase = .completed r := by
  have hmetered := metered hrun
  have hmem : r ∈ written i s.receipts :=
    List.mem_map.mpr ⟨(i, r), List.mem_filter.mpr ⟨hr, decide_eq_true rfl⟩, rfl⟩
  have hi : i < s.calls.length := by
    by_contra hge
    rw [(hmetered.strangers i (not_lt.mp hge)).2] at hmem
    cases hmem
  have hc := List.getElem?_eq_getElem hi
  exact ⟨_, hc, (hmetered.calls i _ hc).completed_of_receipt hmem⟩

/-- Every receipt carries the signature of the wallet over the message of its call. -/
theorem signed_of_receipt {env : Env} {policies : List Policy} {since : ℤ} {es : List Event}
    {s : State} (hrun : run (step env) (initial policies since) es = some s) {i : ℕ} {r : Receipt}
    (hr : (i, r) ∈ s.receipts) :
    ∃ params nonce createdAt,
      r = signedReceipt params nonce (env.wallet (messageToSign params nonce)) createdAt := by
  obtain ⟨c, hc, hphase⟩ := call_of_receipt hrun hr
  have hleaves := (metered hrun).calls i c hc
  rw [hphase] at hleaves
  obtain ⟨params, nonce, createdAt, -, hr, -⟩ := hleaves
  exact ⟨params, nonce, createdAt, hr⟩

/-- **What a run leaves in the two tables.** -/
theorem outcome {env : Env} {policies : List Policy} {since : ℤ} {es : List Event} {s : State}
    (hrun : run (step env) (initial policies since) es = some s) : Outcome s := by
  have hmetered := metered hrun
  have hcompleted : ∀ i c r, s.calls[i]? = some c → c.phase = .completed r →
      ∃ u, written i s.usage = [u] ∧ written i s.receipts = [r]
        ∧ u.sessionId = c.dto.sessionId ∧ r.sessionId = c.dto.sessionId := by
    intro i c r hc hphase
    exact Leaves.completed (hphase ▸ hmetered.calls i c hc)
  refine ⟨hcompleted, fun i c hc hlate => (hmetered.calls i c hc).failedLate hlate,
    fun i c why hc hphase hearly => (hmetered.calls i c hc).failedEarly hphase hearly, ?_, ?_⟩
  · intro i r hr
    obtain ⟨c, hc, hphase⟩ := call_of_receipt hrun hr
    obtain ⟨u, husage, hreceipts, hu, hr⟩ := hcompleted i c r hc hphase
    exact ⟨u, husage, hreceipts, hu.trans hr.symm⟩
  · intro hsettled
    constructor
    · intro hstep c hmem hlate
      obtain ⟨i, hc⟩ := List.mem_iff_getElem?.mp hmem
      obtain ⟨u, husage, hreceipts, -⟩ := (hmetered.calls i c hc).failedLate hlate
      have hsame := hstep i
      rw [husage, hreceipts] at hsame
      cases hsame
    · intro hnone i
      rcases Nat.lt_or_ge i s.calls.length with hi | hi
      · have hc := List.getElem?_eq_getElem hi
        rcases hsettled _ (List.mem_of_getElem? hc) with ⟨r, hphase⟩ | ⟨why, hphase⟩
        · obtain ⟨u, husage, hreceipts, hu, hr⟩ := hcompleted i _ r hc hphase
          rw [husage, hreceipts, List.map_singleton, List.map_singleton, hu, hr]
        · obtain ⟨husage, hreceipts⟩ := (hmetered.calls i _ hc).failedEarly hphase
            (hnone _ (List.mem_of_getElem? hc))
          rw [husage, hreceipts]
          rfl
      · rw [(hmetered.strangers i hi).1, (hmetered.strangers i hi).2]
        rfl

/-- A request whose receipt is not signed, after one that is answered. -/
def secondUnsigned : List Event :=
  [ .request (requestWith (js "n-1")) 0 0, .call 0 (.decide 1 1 1),
    .call 0 (.record 2 (js "r-1")), .call 0 .sign, .call 0 (.store 3),
    .request (requestWith (js "n-2")) 4 4, .call 1 (.decide 5 5 5),
    .call 1 (.record 6 (js "r-2")), .call 1 .signFails ]

theorem outcome_secondUnsigned : ∃ s, run (step window) (initial [] 0) secondUnsigned = some s
    ∧ s.usage.map Prod.fst = [0, 1] ∧ s.receipts.map Prod.fst = [0] ∧ Outcome s := by
  have hrows : (run (step window) (initial [] 0) secondUnsigned).map
      (fun s => (s.usage.map Prod.fst, s.receipts.map Prod.fst)) = some ([0, 1], [0]) := by
    decide +kernel
  obtain ⟨s, hs, hboth⟩ := Option.map_eq_some_iff.mp hrows
  obtain ⟨husage, hreceipts⟩ := Prod.mk.inj hboth
  exact ⟨s, hs, husage, hreceipts, outcome hs⟩

/-- A request whose receipt is not signed. -/
def unsigned : List Event :=
  [ .request (requestWith (js "n-2")) 4 4, .call 0 (.decide 5 5 5),
    .call 0 (.record 6 (js "r-2")), .call 0 .signFails ]

/-- The call threw and left a usage record. -/
theorem unsigned_metered : ∃ s, run (step window) (initial [] 0) unsigned = some s
    ∧ Settled s ∧ s.calls.map (·.phase) = [.failed .signing]
    ∧ (written 0 s.usage).map (·.sessionId) = [js "sess-001"] ∧ ¬ InStep s := by
  have hrows : (run (step window) (initial [] 0) unsigned).map (fun s => (s.calls.map (·.phase),
      (written 0 s.usage).map (·.sessionId), (written 0 s.receipts).map (·.sessionId)))
      = some ([.failed .signing], [js "sess-001"], []) := by decide +kernel
  obtain ⟨s, hs, hfacts⟩ := Option.map_eq_some_iff.mp hrows
  obtain ⟨hphases, hfacts⟩ := Prod.mk.inj hfacts
  obtain ⟨husage, hreceipts⟩ := Prod.mk.inj hfacts
  refine ⟨s, hs, fun c hc => ?_, hphases, husage, fun hstep => ?_⟩
  · have hphase : c.phase ∈ s.calls.map (·.phase) := List.mem_map_of_mem hc
    rw [hphases] at hphase
    exact .inr ⟨_, List.mem_singleton.mp hphase⟩
  · have hsame := hstep 0
    rw [husage, hreceipts] at hsame
    cases hsame

end A2aAgentLayer.Protocol.MeteredCalls
