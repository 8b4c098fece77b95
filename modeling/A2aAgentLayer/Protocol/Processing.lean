import A2aAgentLayer.Common.FieldValidators
import A2aAgentLayer.Crypto.RequestCanonicalization
import A2aAgentLayer.Metering.MeteringService
import A2aAgentLayer.Policies.Evaluator

/-!
# What `handleRequest` computes between its awaits

The request as the DTO admits it, the canonical hash, the context of the policy decision, and the
result, the metrics and the price of an allowed request.  The two digests are parameters.
-/

namespace A2aAgentLayer.Protocol.Processing

open A2aAgentLayer.Lib.Utf16 A2aAgentLayer.Lib.NumberText
open A2aAgentLayer.Lib.JsonTree A2aAgentLayer.Lib.JsObject
open A2aAgentLayer.Common.FieldValidators A2aAgentLayer.Crypto.RequestCanonicalization
open A2aAgentLayer.Metering.MeteringService A2aAgentLayer.Policies.Evaluator

/-! ### The request -/

structure A2aRequestDto where
  agentFromId : JsString
  agentToId : JsString
  sessionId : JsString
  requestPayload : JsonValue
  requestHash : JsString
  maxBudget : JsNumber
  policyDigest : Optional JsString
  nonce : Optional JsString
  signature : JsString

/-- `@IsNotEmpty()` on a value that was present in the body. -/
def isNotEmptyValue : Json → Bool
  | .null => false
  | .str s => isNotEmpty s
  | _ => true

/-- The validators of `A2aRequestDto`. -/
def A2aRequestDto.valid (dto : A2aRequestDto) : Bool :=
  isDid dto.agentFromId && isDid dto.agentToId && isNotEmpty dto.sessionId
    && isNotEmptyValue dto.requestPayload.tree && isKeccak256Hash dto.requestHash
    && !dto.maxBudget.negative && optionally isKeccak256Hash dto.policyDigest
    && optionally (fun _ => true) dto.nonce && isNotEmpty dto.signature

def A2aRequestDto.envelope (dto : A2aRequestDto) : SignedRequestEnvelope where
  agentFromId := dto.agentFromId
  agentToId := dto.agentToId
  sessionId := dto.sessionId
  requestPayload := dto.requestPayload
  maxBudget := dto.maxBudget
  policyDigest := dto.policyDigest
  nonce := dto.nonce

/-- The context `assertAllowed` is asked about. -/
def A2aRequestDto.context (dto : A2aRequestDto) : PolicyEvaluationContext where
  subject := dto.agentFromId
  action := js "invoke"
  resource := dto.sessionId

/-! ### Timestamps -/

/-- Decimal text with leading zeros up to a width. -/
def padded (width n : ℕ) : JsString :=
  List.replicate (width - (natText n).length) (unit '0') ++ natText n

theorem length_padded {width n : ℕ} (h : (natText n).length ≤ width) :
    (padded width n).length = width := by
  rw [padded, List.length_append, List.length_replicate]
  omega

theorem digit_of_mem_padded {width n : ℕ} {u : CodeUnit} (h : u ∈ padded width n) :
    isDigitUnit u = true := by
  rcases List.mem_append.mp h with h | h
  · rw [List.eq_of_mem_replicate h]
    decide
  · exact digit_of_mem_natText h

/-- Year, month and day of a number of days since the epoch; years start in March inside. -/
def civilFromDays (days : ℤ) : ℤ × ℕ × ℕ :=
  let z := days + 719468
  let era := z / 146097
  let doe := (z % 146097).toNat
  let yoe := (doe - doe / 1460 + doe / 36524 - doe / 146096) / 365
  let doy := doe - (365 * yoe + yoe / 4 - yoe / 100)
  let mp := (5 * doy + 2) / 153
  let month := if mp < 10 then mp + 3 else mp - 9
  (yoe + era * 400 + (if month ≤ 2 then 1 else 0), month, doy - (153 * mp + 2) / 5 + 1)

def yearText (year : ℤ) : JsString :=
  if 0 ≤ year ∧ year ≤ 9999 then padded 4 year.toNat
  else (if year < 0 then unit '-' else unit '+') :: padded 6 year.natAbs

def toISOString (date : ℤ) : JsString :=
  let (year, month, day) := civilFromDays (date / 86400000)
  let ms := (date % 86400000).toNat
  yearText year ++ js "-" ++ padded 2 month ++ js "-" ++ padded 2 day ++ js "T"
    ++ padded 2 (ms / 3600000) ++ js ":" ++ padded 2 (ms / 60000 % 60) ++ js ":"
    ++ padded 2 (ms / 1000 % 60) ++ js "." ++ padded 3 (ms % 1000) ++ js "Z"

example : toISOString 1780063200000 = js "2026-05-29T14:00:00.000Z" := by decide +kernel

/-! ### The work of an allowed request -/

section Digests

variable (sha256 keccak256 : ByteArray → List UInt8)

def hashData (data : JsString) : JsString := js "0x" ++ hexText (keccak256 (utf8Encode data))

def resultPayload (dto : A2aRequestDto) (timestamp : ℤ) : Json :=
  .obj [(js "agentFrom", .str dto.agentToId), (js "agentTo", .str dto.agentFromId),
    (js "sessionId", .str dto.sessionId),
    (js "result", .str (js "Processed request from " ++ dto.agentFromId)),
    (js "timestamp", .str (toISOString timestamp))]

/-- `(tokensUsed * 0.0001).toFixed(8)`.  The length of a string bounds the tokens by `2³⁰`, so the
rounding of the product does not reach the eighth digit. -/
def priceComputed (tokensUsed : ℕ) : JsString :=
  natText (tokensUsed / 10000) ++ js "." ++ padded 4 (tokensUsed % 10000) ++ js "0000"

/-- `started`, `stamped` and `finished` are the three readings of the clock. -/
def usageMetrics (dto : A2aRequestDto) (started stamped finished : ℤ) : UsageMetrics :=
  let payloadLength := (stringify dto.requestPayload.tree).length
  { tokensUsed := (payloadLength + 3) / 4
    cpuMs := (finished - started).toNat
    bytesIn := payloadLength
    bytesOut := (stringify (resultPayload dto stamped)).length
    toolCallsCount := 1 }

/-- The row `recordUsage` stores. -/
def usageRecord (dto : A2aRequestDto) (m : UsageMetrics) (createdAt : ℤ) : UsageRecord where
  sessionId := dto.sessionId
  agentId := dto.agentToId
  tokensUsed := m.tokensUsed
  cpuMs := m.cpuMs
  bytesIn := m.bytesIn
  bytesOut := m.bytesOut
  modelId := none
  toolCallsCount := m.toolCallsCount
  createdAt := createdAt

/-- The argument of `createSignedReceipt`. -/
def receiptParams (dto : A2aRequestDto) (started stamped finished : ℤ) : ReceiptParams :=
  let metrics := usageMetrics dto started stamped finished
  { sessionId := dto.sessionId
    requestHash := hashCanonicalRequest sha256 dto.envelope
    resultHash := some (hashData keccak256 (stringify (resultPayload dto stamped)))
    usageMetrics := metrics
    priceComputed := priceComputed metrics.tokensUsed }

end Digests

end A2aAgentLayer.Protocol.Processing
