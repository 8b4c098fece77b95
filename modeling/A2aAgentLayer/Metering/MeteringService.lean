import A2aAgentLayer.Lib.JsObject

/-!
# Usage records and receipts

The two tables `MeteringService` writes, and the message the service wallet signs for a receipt.
Identifiers that the database generates are left to the tables that hold the rows.
-/

namespace A2aAgentLayer.Metering.MeteringService

open A2aAgentLayer.Lib.Utf16 A2aAgentLayer.Lib.NumberText
open A2aAgentLayer.Lib.JsonTree A2aAgentLayer.Lib.JsObject

/-- A row of `usage_records`; the integer columns hold what PostgreSQL stores, and instants are
milliseconds since the epoch. -/
structure UsageRecord where
  sessionId : JsString
  agentId : JsString
  tokensUsed : ℤ
  cpuMs : ℤ
  bytesIn : ℤ
  bytesOut : ℤ
  modelId : Option JsString
  toolCallsCount : ℤ
  createdAt : ℤ
  deriving DecidableEq

/-- The metrics of one request. -/
structure UsageMetrics where
  tokensUsed : ℕ
  cpuMs : ℕ
  bytesIn : ℕ
  bytesOut : ℕ
  toolCallsCount : ℕ
  deriving DecidableEq

/-- A row of `receipts`. -/
structure Receipt where
  sessionId : JsString
  requestHash : JsString
  resultHash : Option JsString
  usageMetrics : UsageMetrics
  priceComputed : JsString
  nonce : JsString
  signature : JsString
  createdAt : ℤ
  deriving DecidableEq

/-- What `createSignedReceipt` is called with. -/
structure ReceiptParams where
  sessionId : JsString
  requestHash : JsString
  resultHash : Option JsString
  usageMetrics : UsageMetrics
  priceComputed : JsString
  deriving DecidableEq

def UsageMetrics.toJson (m : UsageMetrics) : Json :=
  .obj [(js "tokensUsed", .num (.ofNat m.tokensUsed)), (js "cpuMs", .num (.ofNat m.cpuMs)),
    (js "bytesIn", .num (.ofNat m.bytesIn)), (js "bytesOut", .num (.ofNat m.bytesOut)),
    (js "toolCallsCount", .num (.ofNat m.toolCallsCount))]

/-- The message the wallet signs. -/
def messageToSign (params : ReceiptParams) (nonce : JsString) : JsString :=
  stringify (.obj
    [(js "sessionId", .str params.sessionId), (js "requestHash", .str params.requestHash),
     (js "resultHash", (params.resultHash.map Json.str).getD .null),
     (js "usageMetrics", params.usageMetrics.toJson),
     (js "priceComputed", .str params.priceComputed), (js "nonce", .str nonce)])

/-- The row `createSignedReceipt` stores. -/
def signedReceipt (params : ReceiptParams) (nonce signature : JsString) (createdAt : ℤ) :
    Receipt where
  sessionId := params.sessionId
  requestHash := params.requestHash
  resultHash := params.resultHash
  usageMetrics := params.usageMetrics
  priceComputed := params.priceComputed
  nonce := nonce
  signature := signature
  createdAt := createdAt

end A2aAgentLayer.Metering.MeteringService
