import A2aAgentLayer.Metering.ReceiptRows
import A2aAgentLayer.Protocol.MeteredCalls

/-!
# Rebuilding the message of a stored receipt

The wallet signs the metrics in the order of the object literal, and the rows return them in
another, so the message rebuilt from a row states the values that were signed and is never the text
that was.
-/

namespace A2aAgentLayer.Metering.StoredReceipts

open A2aAgentLayer.Lib.Utf16 A2aAgentLayer.Lib.Run
open A2aAgentLayer.Lib.JsonTree A2aAgentLayer.Lib.JsObject A2aAgentLayer.Lib.Jsonb
open A2aAgentLayer.Metering.MeteringService A2aAgentLayer.Metering.ReceiptRows
open A2aAgentLayer.Policies.Evaluator
open A2aAgentLayer.Protocol.HandleRequest A2aAgentLayer.Protocol.MeteredCalls

/-! ### Reading receipts back -/

section Columns

-- what `decimal(18,8)` makes of the text of a price
variable (decimal : JsString → JsString)

/-- The row of a receipt. -/
def reloaded (r : Receipt) : ReceiptRow where
  sessionId := r.sessionId
  requestHash := r.requestHash
  resultHash := r.resultHash
  usageMetrics := jsonb r.usageMetrics.toJson
  priceComputed := decimal r.priceComputed
  nonce := r.nonce
  signature := r.signature
  createdAt := r.createdAt

def getReceiptsBySession (receipts : List Receipt) (sessionId : JsString) : List ReceiptRow :=
  (receipts.map (reloaded decimal)).filter fun row => decide (row.sessionId = sessionId)

/-- Where the price comes back as it was written, the row states the values that were signed. -/
theorem same_reloaded {params : ReceiptParams} {nonce signature : JsString} {createdAt : ℤ}
    (hprice : decimal params.priceComputed = params.priceComputed) :
    ∃ signed rebuilt, messageToSign params nonce = stringify signed
      ∧ (reloaded decimal (signedReceipt params nonce signature createdAt)).message
          = stringify rebuilt
      ∧ SameUpToKeyOrder signed rebuilt := by
  refine ⟨_, _, messageToSign_eq params nonce, rfl, ?_⟩
  show SameUpToKeyOrder _ (receiptObject params.sessionId params.requestHash params.resultHash
    (jsonb params.usageMetrics.toJson) (decimal params.priceComputed) nonce)
  rw [hprice]
  exact same_receiptObject _ _ _ _ _ (same_jsonb _)

theorem message_ne_messageToSign (params : ReceiptParams) (nonce signature : JsString)
    (createdAt : ℤ) :
    (reloaded decimal (signedReceipt params nonce signature createdAt)).message
      ≠ messageToSign params nonce :=
  fun heq => inOrder_jsonb_ne params.usageMetrics (inOrder_metrics_of_message heq)

/-- **No stored receipt can be verified.** -/
theorem rebuilt_ne_signed {env : Env} {policies : List Policy} {since : ℤ} {es : List Event}
    {s : State} (hrun : run (step env) (initial policies since) es = some s)
    {sessionId : JsString} {row : ReceiptRow}
    (hrow : row ∈ getReceiptsBySession decimal (s.receipts.map Prod.snd) sessionId) :
    ∃ i r params nonce createdAt, (i, r) ∈ s.receipts ∧ row = reloaded decimal r
      ∧ r = signedReceipt params nonce (env.wallet (messageToSign params nonce)) createdAt
      ∧ row.message ≠ messageToSign params nonce := by
  obtain ⟨hrow, -⟩ := List.mem_filter.mp hrow
  obtain ⟨r, hr, rfl⟩ := List.mem_map.mp hrow
  obtain ⟨⟨i, r⟩, hmem, rfl⟩ := List.mem_map.mp hr
  obtain ⟨params, nonce, createdAt, hsigned⟩ := signed_of_receipt hrun hmem
  refine ⟨i, r, params, nonce, createdAt, hmem, rfl, hsigned, ?_⟩
  show (reloaded decimal r).message ≠ messageToSign params nonce
  rw [hsigned]
  exact message_ne_messageToSign decimal params nonce _ createdAt

end Columns

/-- A request that is answered. -/
def answered : List Event :=
  [ .request (requestWith (js "n-1")) 0 0, .call 0 (.decide 1 1 1),
    .call 0 (.record 2 (js "r-1")), .call 0 .sign, .call 0 (.store 3) ]

/-- The message of its receipt. -/
def answeredMessage : JsString :=
  js "\x7b\"sessionId\":\"sess-001\",\"requestHash\":\"\",\"resultHash\":\"0x\","
    ++ js "\"usageMetrics\":\x7b\"tokensUsed\":5,\"cpuMs\":0,"
    ++ js "\"bytesIn\":18,\"bytesOut\":174,\"toolCallsCount\":1\x7d,"
    ++ js "\"priceComputed\":\"0.00050000\",\"nonce\":\"r-1\"\x7d"

/-- The message rebuilt from its row. -/
def answeredRebuilt : JsString :=
  js "\x7b\"sessionId\":\"sess-001\",\"requestHash\":\"\",\"resultHash\":\"0x\","
    ++ js "\"usageMetrics\":\x7b\"cpuMs\":0,\"bytesIn\":18,"
    ++ js "\"bytesOut\":174,\"tokensUsed\":5,\"toolCallsCount\":1\x7d,"
    ++ js "\"priceComputed\":\"0.00050000\",\"nonce\":\"r-1\"\x7d"

/-- The row of the answered request. -/
theorem answered_row : ∃ s row, run (step window) (initial [] 0) answered = some s
    ∧ getReceiptsBySession id (s.receipts.map Prod.snd) (js "sess-001") = [row]
    ∧ row.signature = window.wallet answeredMessage ∧ row.message = answeredRebuilt := by
  have hrow : (run (step window) (initial [] 0) answered).map (fun s =>
      (getReceiptsBySession id (s.receipts.map Prod.snd) (js "sess-001")).map
        fun row => (row.signature, row.message)) = some [(answeredMessage, answeredRebuilt)] := by
    decide +kernel
  obtain ⟨s, hs, hrows⟩ := Option.map_eq_some_iff.mp hrow
  obtain ⟨row, hrows, hboth⟩ := List.map_eq_singleton_iff.mp hrows
  obtain ⟨hsignature, hmessage⟩ := Prod.mk.inj hboth
  exact ⟨s, row, hs, hrows, hsignature, hmessage⟩

theorem rebuilt_ne_signed_answered : ∃ s row,
    run (step window) (initial [] 0) answered = some s
    ∧ row ∈ getReceiptsBySession id (s.receipts.map Prod.snd) (js "sess-001")
    ∧ ∃ i r params nonce createdAt, (i, r) ∈ s.receipts ∧ row = reloaded id r
        ∧ r = signedReceipt params nonce (window.wallet (messageToSign params nonce)) createdAt
        ∧ row.message ≠ messageToSign params nonce := by
  obtain ⟨s, row, hs, hrows, -, -⟩ := answered_row
  have hrow : row ∈ getReceiptsBySession id (s.receipts.map Prod.snd) (js "sess-001") := by
    rw [hrows]
    exact List.mem_singleton_self row
  exact ⟨s, row, hs, hrow, rebuilt_ne_signed id hs hrow⟩

/-- What is signed and what is rebuilt are two texts. -/
theorem answered_unverifiable : ∃ s row, run (step window) (initial [] 0) answered = some s
    ∧ row ∈ getReceiptsBySession id (s.receipts.map Prod.snd) (js "sess-001")
    ∧ row.signature = window.wallet answeredMessage ∧ row.message = answeredRebuilt
    ∧ answeredRebuilt ≠ answeredMessage := by
  obtain ⟨s, row, hs, hrows, hsignature, hmessage⟩ := answered_row
  refine ⟨s, row, hs, ?_, hsignature, hmessage, by decide +kernel⟩
  rw [hrows]
  exact List.mem_singleton_self row

end A2aAgentLayer.Metering.StoredReceipts
