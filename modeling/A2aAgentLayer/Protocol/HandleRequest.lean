import A2aAgentLayer.Protocol.NonceStore
import A2aAgentLayer.Protocol.Processing

/-!
# Interleaved `handleRequest` calls

A call runs without interruption up to its first `await`: it hashes the envelope and passes the
nonce step.  After that it waits in turn for the policies, the usage record, the signature and the
receipt, and each wait may end in a failure.  The state holds every call by its number, the rows of
the two tables with the number of the call that wrote them, the nonce store and the table of
policies, which anyone may change between two steps.

`callStep` is what one call does at the end of a wait; `step` puts it into the system.
-/

namespace A2aAgentLayer.Protocol.HandleRequest

open A2aAgentLayer.Lib.Utf16 A2aAgentLayer.Lib.JsObject
open A2aAgentLayer.Metering.MeteringService A2aAgentLayer.Policies.Evaluator
open A2aAgentLayer.Protocol.NonceStore A2aAgentLayer.Protocol.Processing

/-- The window of the nonce store, the digests and the signature of the service wallet. -/
structure Env where
  windowMs : ℤ
  sha256 : ByteArray → List UInt8
  keccak256 : ByteArray → List UInt8
  wallet : JsString → JsString

/-- What a call throws. -/
inductive Failure where
  | replayed
  | policyLookup
  | forbidden (message : String)
  | usageWrite
  | signing
  | receiptWrite
  deriving DecidableEq

/-- What a call waits for, or how it ended. -/
inductive Phase where
  | deciding
  | recording (params : ReceiptParams)
  | signing (params : ReceiptParams) (nonce : JsString)
  | storing (params : ReceiptParams) (nonce signature : JsString)
  | completed (receipt : Receipt)
  | failed (why : Failure)
  deriving DecidableEq

/-- A call, with the instant at which it reached the nonce step. -/
structure Call where
  dto : A2aRequestDto
  reached : ℤ
  phase : Phase

structure State where
  now : ℤ
  entries : Entries
  policies : List Policy
  calls : List Call
  usage : List (ℕ × UsageRecord)
  receipts : List (ℕ × Receipt)

/-- How a wait ends. -/
inductive CallEvent where
  | decide (started stamped finished : ℤ)
  | lookupFails
  | record (createdAt : ℤ) (nonce : JsString)
  | recordFails
  | sign
  | signFails
  | store (createdAt : ℤ)
  | storeFails

inductive Event where
  | request (dto : A2aRequestDto) (reached written : ℤ)
  | evict (now : ℤ)
  | setPolicies (policies : List Policy)
  | call (i : ℕ) (e : CallEvent)

/-! ### One call -/

/-- `if (dto.nonce)`: the nonce that is checked. -/
def checkedNonce : Optional JsString → Option JsString
  | .value (u :: nonce) => some (u :: nonce)
  | _ => none

/-- The nonce step: the entries it leaves, and whether the call goes on. -/
def nonceStep (env : Env) (entries : Entries) (dto : A2aRequestDto) (reached written : ℤ) :
    Entries × Bool :=
  match checkedNonce dto.nonce with
  | none => (entries, true)
  | some nonce => assertFresh env.windowMs entries dto.agentFromId nonce reached written

/-- The new phase, the rows written and the clock. -/
structure Effect where
  phase : Phase
  usage : List UsageRecord := []
  receipts : List Receipt := []
  now : ℤ

def callStep (env : Env) (policies : List Policy) (now : ℤ) (dto : A2aRequestDto) :
    Phase → CallEvent → Option Effect
  | .deciding, .decide started stamped finished =>
      if now ≤ started ∧ started ≤ stamped ∧ stamped ≤ finished then
        match assertAllowed policies dto.agentToId dto.context with
        | .deny reason =>
            some { phase := .failed (.forbidden (forbiddenMessage reason)), now := finished }
        | .allow _ =>
            some { phase := .recording
                    (receiptParams env.sha256 env.keccak256 dto started stamped finished)
                   now := finished }
      else none
  | .deciding, .lookupFails => some { phase := .failed .policyLookup, now := now }
  | .recording params, .record createdAt nonce =>
      some { phase := .signing params nonce
             usage := [usageRecord dto params.usageMetrics createdAt]
             now := now }
  | .recording _, .recordFails => some { phase := .failed .usageWrite, now := now }
  | .signing params nonce, .sign =>
      some { phase := .storing params nonce (env.wallet (messageToSign params nonce)), now := now }
  | .signing _ _, .signFails => some { phase := .failed .signing, now := now }
  | .storing params nonce signature, .store createdAt =>
      let receipt := signedReceipt params nonce signature createdAt
      some { phase := .completed receipt, receipts := [receipt], now := now }
  | .storing _ _ _, .storeFails => some { phase := .failed .receiptWrite, now := now }
  | _, _ => none

/-! ### The system -/

def initial (policies : List Policy) (since : ℤ) : State := ⟨since, ∅, policies, [], [], []⟩

def step (env : Env) (s : State) : Event → Option State
  | .request dto reached written =>
      if s.now ≤ reached ∧ reached ≤ written then
        let (entries, fresh) := nonceStep env s.entries dto reached written
        let phase := if fresh then .deciding else .failed .replayed
        some { s with
          now := written, entries := entries, calls := s.calls ++ [⟨dto, reached, phase⟩] }
      else none
  | .evict now =>
      if s.now ≤ now then
        some { s with now := now, entries := evictExpired env.windowMs s.entries now }
      else none
  | .setPolicies policies => some { s with policies := policies }
  | .call i e =>
      match s.calls[i]? with
      | none => none
      | some call =>
          match callStep env s.policies s.now call.dto call.phase e with
          | none => none
          | some effect =>
              some { s with
                now := effect.now
                calls := s.calls.set i { call with phase := effect.phase }
                usage := s.usage ++ effect.usage.map (i, ·)
                receipts := s.receipts ++ effect.receipts.map (i, ·) }

/-! ### What a step does -/

/-- The call was allowed by the policies. -/
def Phase.allowed : Phase → Prop
  | .deciding | .failed .replayed | .failed .policyLookup | .failed (.forbidden _) => False
  | _ => True

/-- A nonce that is not checked passes and leaves no entry. -/
theorem nonceStep_of_none {env : Env} {entries : Entries} {dto : A2aRequestDto}
    {reached written : ℤ} (h : checkedNonce dto.nonce = none) :
    nonceStep env entries dto reached written = (entries, true) := by
  rw [nonceStep, h]

theorem nonceStep_of_some {env : Env} {entries : Entries} {dto : A2aRequestDto}
    {reached written : ℤ} {nonce : JsString} (h : checkedNonce dto.nonce = some nonce) :
    nonceStep env entries dto reached written
      = assertFresh env.windowMs entries dto.agentFromId nonce reached written := by
  rw [nonceStep, h]

/-- What one call can do: nothing once it ended; it never comes back to the nonce step; rows are
written by allowed calls. -/
theorem callStep_effect {env : Env} {policies : List Policy} {now : ℤ} {dto : A2aRequestDto}
    {phase : Phase} {e : CallEvent} {effect : Effect}
    (h : callStep env policies now dto phase e = some effect) :
    (∀ why, phase ≠ .failed why) ∧ effect.phase ≠ .failed .replayed ∧ now ≤ effect.now
      ∧ (phase.allowed → effect.phase.allowed)
      ∧ (effect.usage ≠ [] ∨ effect.receipts ≠ [] → effect.phase.allowed) := by
  unfold callStep at h
  split at h
  · rw [Option.ite_none_right_eq_some] at h
    obtain ⟨⟨hstarted, hstamped, hfinished⟩, h⟩ := h
    split at h
    · obtain rfl := Option.some.inj h
      simp [Phase.allowed]
      omega
    · obtain rfl := Option.some.inj h
      simp [Phase.allowed]
      omega
  all_goals first | (obtain rfl := Option.some.inj h; simp [Phase.allowed]) | cases h

theorem step_request {env : Env} {s t : State} {dto : A2aRequestDto} {reached written : ℤ} :
    step env s (.request dto reached written) = some t ↔
      (s.now ≤ reached ∧ reached ≤ written) ∧ t = { s with
        now := written
        entries := (nonceStep env s.entries dto reached written).1
        calls := s.calls ++ [⟨dto, reached,
          if (nonceStep env s.entries dto reached written).2 then .deciding
          else .failed .replayed⟩] } := by
  rw [step, Option.ite_none_right_eq_some, Option.some.injEq, eq_comm (b := t)]

theorem step_evict {env : Env} {s t : State} {now : ℤ} :
    step env s (.evict now) = some t ↔ s.now ≤ now
      ∧ t = { s with now := now, entries := evictExpired env.windowMs s.entries now } := by
  rw [step, Option.ite_none_right_eq_some, Option.some.injEq, eq_comm (b := t)]

theorem step_call {env : Env} {s t : State} {i : ℕ} {e : CallEvent}
    (h : step env s (.call i e) = some t) : ∃ call effect, s.calls[i]? = some call
      ∧ callStep env s.policies s.now call.dto call.phase e = some effect
      ∧ t = { s with
          now := effect.now
          calls := s.calls.set i { call with phase := effect.phase }
          usage := s.usage ++ effect.usage.map (i, ·)
          receipts := s.receipts ++ effect.receipts.map (i, ·) } := by
  rw [step] at h
  split at h
  · cases h
  · rename_i call hcall
    split at h
    · cases h
    · rename_i effect heffect
      exact ⟨call, effect, hcall, heffect, (Option.some.inj h).symm⟩

/-- A call that the policies deny is over. -/
theorem callStep_deny {env : Env} {policies : List Policy} {now : ℤ} {dto : A2aRequestDto}
    {phase : Phase} {started stamped finished : ℤ} {effect : Effect} {reason : String}
    (hdeny : assertAllowed policies dto.agentToId dto.context = .deny reason)
    (h : callStep env policies now dto phase (.decide started stamped finished) = some effect) :
    effect.phase = .failed (.forbidden (forbiddenMessage reason)) := by
  cases phase with
  | deciding =>
      simp only [callStep, hdeny, Option.ite_none_right_eq_some, Option.some.injEq] at h
      rw [← h.2]
  | _ => cases h

/-- A call that has failed stays as it is. -/
theorem failed_stays {env : Env} {s t : State} {e : Event} {i : ℕ} {c : Call} {why : Failure}
    (hc : s.calls[i]? = some c) (hfailed : c.phase = .failed why)
    (hstep : step env s e = some t) : t.calls[i]? = some c := by
  cases e with
  | request dto reached written =>
      obtain ⟨_, rfl⟩ := step_request.mp hstep
      exact (List.getElem?_append_left (List.getElem?_eq_some_iff.mp hc).1).trans hc
  | evict now =>
      obtain ⟨_, rfl⟩ := step_evict.mp hstep
      exact hc
  | setPolicies policies =>
      obtain rfl := Option.some.inj hstep
      exact hc
  | call j e =>
      obtain ⟨call, effect, hcall, heffect, rfl⟩ := step_call hstep
      have hne : j ≠ i := by
        rintro rfl
        obtain rfl := Option.some.inj (hc.symm.trans hcall)
        exact (callStep_effect heffect).1 why hfailed
      exact (List.getElem?_set_ne hne).trans hc

/-! ### A request -/

def window : Env := ⟨defaultWindowMs, fun _ => [], fun _ => [], id⟩

def requestWith (nonce : JsString) : A2aRequestDto where
  agentFromId := js "did:prom:agent-a"
  agentToId := js "did:prom:agent-b"
  sessionId := js "sess-001"
  requestPayload := Crypto.RequestCanonicalization.helloPayload
  requestHash := js "cde27e22f6a9114bc2efea29ec1e212463184b99f944828dcaaa4025617e7bd6"
  maxBudget := .ofNat 1
  policyDigest := .undefined
  nonce := .value nonce
  signature := js "0x01"

end A2aAgentLayer.Protocol.HandleRequest
