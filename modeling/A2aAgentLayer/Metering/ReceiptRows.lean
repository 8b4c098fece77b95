import A2aAgentLayer.Lib.Jsonb
import A2aAgentLayer.Metering.MeteringService

/-!
# Rows of receipts and their message

A row of `receipts` as a query returns it, and the message that states its values.  The metrics come
back from their `jsonb` column in the order of their keys, `cpuMs` first, and not in the order in
which `handleRequest` writes them down.
-/

namespace A2aAgentLayer.Metering.ReceiptRows

open A2aAgentLayer.Lib.Utf16 A2aAgentLayer.Lib.NumberText
open A2aAgentLayer.Lib.JsonTree A2aAgentLayer.Lib.JsonText A2aAgentLayer.Lib.JsObject
open A2aAgentLayer.Lib.Jsonb
open A2aAgentLayer.Metering.MeteringService

/-! ### Rows and their message -/

/-- A row of `receipts` as a query returns it. -/
@[ext] structure ReceiptRow where
  sessionId : JsString
  requestHash : JsString
  resultHash : Option JsString
  usageMetrics : Json
  priceComputed : JsString
  nonce : JsString
  signature : JsString
  createdAt : ℤ

/-- The object whose text is signed. -/
def receiptObject (sessionId requestHash : JsString) (resultHash : Option JsString)
    (usageMetrics : Json) (priceComputed nonce : JsString) : Json :=
  .obj [(js "sessionId", .str sessionId), (js "requestHash", .str requestHash),
    (js "resultHash", (resultHash.map Json.str).getD .null), (js "usageMetrics", usageMetrics),
    (js "priceComputed", .str priceComputed), (js "nonce", .str nonce)]

/-- `JSON.stringify({ sessionId, requestHash, resultHash, usageMetrics, priceComputed, nonce })`. -/
def ReceiptRow.message (row : ReceiptRow) : JsString :=
  stringify (receiptObject row.sessionId row.requestHash row.resultHash row.usageMetrics
    row.priceComputed row.nonce)

theorem messageToSign_eq (params : ReceiptParams) (nonce : JsString) :
    messageToSign params nonce = stringify (receiptObject params.sessionId params.requestHash
      params.resultHash params.usageMetrics.toJson params.priceComputed nonce) := rfl

/-- Only the metrics have members of their own. -/
theorem inOrder_receiptObject (sessionId requestHash : JsString) (resultHash : Option JsString)
    (usageMetrics : Json) (priceComputed nonce : JsString) :
    inOrder (receiptObject sessionId requestHash resultHash usageMetrics priceComputed nonce)
      = receiptObject sessionId requestHash resultHash (inOrder usageMetrics) priceComputed
          nonce := by
  have hresult : inOrder ((resultHash.map Json.str).getD .null)
      = (resultHash.map Json.str).getD .null := by cases resultHash <;> rfl
  rw [receiptObject, inOrder_obj, ownOrder_of_named]
  · simp only [List.map_cons, List.map_nil, hresult]
    rfl
  · show ∀ key ∈ [js "sessionId", js "requestHash", js "resultHash", js "usageMetrics",
      js "priceComputed", js "nonce"], arrayIndex key = none
    decide +kernel

theorem same_receiptObject (s h : JsString) (r : Option JsString) {m m' : Json} (p n : JsString)
    (hm : SameUpToKeyOrder m m') :
    SameUpToKeyOrder (receiptObject s h r m p n) (receiptObject s h r m' p n) := by
  refine (same_obj _ _).mpr ⟨.refl _, ?_⟩
  rintro member hmember
  simp only [List.mem_cons, List.not_mem_nil, or_false] at hmember
  rcases hmember with rfl | rfl | rfl | rfl | rfl | rfl
  case inr.inr.inr.inl => exact ⟨m', by simp, hm⟩
  all_goals exact ⟨_, by simp, same_refl _⟩

/-- One message states one object of metrics, members in order. -/
theorem inOrder_metrics_of_message {s s' h h' : JsString} {r r' : Option JsString} {m m' : Json}
    {p p' n n' : JsString}
    (heq : stringify (receiptObject s h r m p n) = stringify (receiptObject s' h' r' m' p' n')) :
    inOrder m = inOrder m' := by
  have hobject := serialize_inj heq
  rw [inOrder_receiptObject, inOrder_receiptObject] at hobject
  simp only [receiptObject, Json.obj.injEq, List.cons.injEq, Prod.mk.injEq] at hobject
  exact hobject.2.2.2.1.2

/-! ### The metrics and their column -/

theorem inOrder_toJson (m : UsageMetrics) : inOrder m.toJson = m.toJson := by
  rw [UsageMetrics.toJson, inOrder_obj, ownOrder_of_named]
  · rfl
  · show ∀ key ∈ [js "tokensUsed", js "cpuMs", js "bytesIn", js "bytesOut", js "toolCallsCount"],
      arrayIndex key = none
    decide +kernel

/-- The metrics as the column returns them. -/
def byKey (m : UsageMetrics) : Json :=
  .obj [(js "cpuMs", .num (.ofNat m.cpuMs)), (js "bytesIn", .num (.ofNat m.bytesIn)),
    (js "bytesOut", .num (.ofNat m.bytesOut)), (js "tokensUsed", .num (.ofNat m.tokensUsed)),
    (js "toolCallsCount", .num (.ofNat m.toolCallsCount))]

theorem jsonb_toJson (m : UsageMetrics) : jsonb m.toJson = byKey m := by
  rw [UsageMetrics.toJson, jsonb_obj, byKey]
  congr 1
  refine columnOrder_eq ?_ ?_
  · exact (@List.perm_middle _ (js "tokensUsed", Json.num (.ofNat m.tokensUsed))
      [(js "cpuMs", Json.num (.ofNat m.cpuMs)), (js "bytesIn", Json.num (.ofNat m.bytesIn)),
        (js "bytesOut", Json.num (.ofNat m.bytesOut))]
      [(js "toolCallsCount", Json.num (.ofNat m.toolCallsCount))]).symm
  · show [sortKey (js "cpuMs"), sortKey (js "bytesIn"), sortKey (js "bytesOut"),
      sortKey (js "tokensUsed"), sortKey (js "toolCallsCount")].Pairwise (· < ·)
    decide +kernel

theorem inOrder_byKey (m : UsageMetrics) : inOrder (byKey m) = byKey m := by
  rw [byKey, inOrder_obj, ownOrder_of_named]
  · rfl
  · show ∀ key ∈ [js "cpuMs", js "bytesIn", js "bytesOut", js "tokensUsed", js "toolCallsCount"],
      arrayIndex key = none
    decide +kernel

/-- **The column never returns metrics in the order in which they were signed.** -/
theorem inOrder_jsonb_ne (m : UsageMetrics) : inOrder (jsonb m.toJson) ≠ inOrder m.toJson := by
  rw [jsonb_toJson, inOrder_byKey, inOrder_toJson]
  intro heq
  have hkeys : js "cpuMs" = js "tokensUsed" :=
    congrArg Prod.fst (List.cons.inj (Json.obj.inj heq)).1
  exact absurd hkeys (by decide)

end A2aAgentLayer.Metering.ReceiptRows
