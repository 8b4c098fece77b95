import A2aAgentLayer.Lib.EntityTable
import A2aAgentLayer.Lib.Run
import A2aAgentLayer.Metering.ReceiptRows

/-!
# The billing ledger

`recordUsage` and `createReceipt` save whatever entity they are given, and `createSignedReceipt`
saves one it builds.  A save inserts, unless the entity carries the id of a stored row: then the
columns it names are written over that row.  What the column types make of a value is a parameter.
-/

namespace A2aAgentLayer.Metering.Ledger

open A2aAgentLayer.Lib.Utf16 A2aAgentLayer.Lib.NumberText A2aAgentLayer.Lib.Run
open A2aAgentLayer.Lib.JsonTree A2aAgentLayer.Lib.JsObject A2aAgentLayer.Lib.EntityTable
open A2aAgentLayer.Metering.MeteringService A2aAgentLayer.Metering.ReceiptRows

variable {α : Type}

/-! ### Entities and columns -/

/-- The own properties of a partial entity. -/
abbrev Body := List (JsString × Json)

/-- What a column of a type stores for a value that is sent to it; `none` when the database refuses
the value. -/
structure Columns where
  uuid : Json → Option JsString
  varchar : Json → Option JsString
  int : Json → Option ℤ
  bigint : Json → Option ℤ
  jsonbAccepts : Json → Bool
  decimal : Json → Option JsString
  timestamp : Json → Option ℤ

def Columns.jsonb (cols : Columns) (value : Json) : Option Json :=
  if cols.jsonbAccepts value then some (Lib.Jsonb.jsonb value) else none

/-- A `NOT NULL` column; `otherwise` is its value when the entity does not name it. -/
def required (convert : Json → Option α) (body : Body) (key : JsString) (otherwise : Option α) :
    Option α :=
  match body.lookup key with
  | none => otherwise
  | some .null => none
  | some value => convert value

/-- A column that may be `NULL`. -/
def nullable (convert : Json → Option α) (body : Body) (key : JsString) (otherwise : Option α) :
    Option (Option α) :=
  match body.lookup key with
  | none => some otherwise
  | some .null => some none
  | some value => (convert value).map some

/-- A column that is named takes the value it is sent. -/
theorem required_of_lookup {convert : Json → Option α} {body : Body} {key : JsString} {value : Json}
    {otherwise : Option α} {a : α} (hvalue : body.lookup key = some value)
    (h : required convert body key otherwise = some a) : convert value = some a := by
  rw [required, hvalue] at h
  cases value with
  | null => cases h
  | _ => exact h

/-- The id of an entity.  `null` is no id, and its column refuses it. -/
def carriedId (cols : Columns) (body : Body) : Carried JsString :=
  match body.lookup (js "id") with
  | none => .absent
  | some .null => .refused
  | some value =>
      match value, cols.uuid value with
      | _, none => .refused
      | .str s, some id => if s = id then .exact id else .spelled id
      | _, some id => .spelled id

/-- The row of a usage record, new or after an update. -/
def usageRow (cols : Columns) (body : Body) (now : ℤ) (stored : Option UsageRecord) :
    Option UsageRecord := do
  let sessionId ← required cols.varchar body (js "sessionId") (stored.map (·.sessionId))
  let agentId ← required cols.varchar body (js "agentId") (stored.map (·.agentId))
  let tokensUsed ← required cols.int body (js "tokensUsed") (stored.map (·.tokensUsed))
  let cpuMs ← required cols.int body (js "cpuMs") (stored.map (·.cpuMs))
  let bytesIn ← required cols.bigint body (js "bytesIn") (stored.map (·.bytesIn))
  let bytesOut ← required cols.bigint body (js "bytesOut") (stored.map (·.bytesOut))
  let modelId ← nullable cols.varchar body (js "modelId") (stored.bind (·.modelId))
  let toolCallsCount ← required cols.int body (js "toolCallsCount")
    (some ((stored.map (·.toolCallsCount)).getD 0))
  let createdAt ← required cols.timestamp body (js "createdAt")
    (some ((stored.map (·.createdAt)).getD now))
  return { sessionId, agentId, tokensUsed, cpuMs, bytesIn, bytesOut, modelId, toolCallsCount,
           createdAt }

/-- The row of a receipt, new or after an update. -/
def receiptRow (cols : Columns) (body : Body) (now : ℤ) (stored : Option ReceiptRow) :
    Option ReceiptRow := do
  let sessionId ← required cols.varchar body (js "sessionId") (stored.map (·.sessionId))
  let requestHash ← required cols.varchar body (js "requestHash") (stored.map (·.requestHash))
  let resultHash ← nullable cols.varchar body (js "resultHash") (stored.bind (·.resultHash))
  let usageMetrics ← required cols.jsonb body (js "usageMetrics") (stored.map (·.usageMetrics))
  let priceComputed ← required cols.decimal body (js "priceComputed")
    (stored.map (·.priceComputed))
  let nonce ← required cols.varchar body (js "nonce") (stored.map (·.nonce))
  let signature ← required cols.varchar body (js "signature") (stored.map (·.signature))
  let createdAt ← required cols.timestamp body (js "createdAt")
    (some ((stored.map (·.createdAt)).getD now))
  return { sessionId, requestHash, resultHash, usageMetrics, priceComputed, nonce, signature,
           createdAt }

/-- The columns of a row, one by one. -/
theorem receiptRow_eq_some {cols : Columns} {body : Body} {now : ℤ} {stored : Option ReceiptRow}
    {row : ReceiptRow} :
    receiptRow cols body now stored = some row ↔
      required cols.varchar body (js "sessionId") (stored.map (·.sessionId)) = some row.sessionId
      ∧ required cols.varchar body (js "requestHash") (stored.map (·.requestHash))
          = some row.requestHash
      ∧ nullable cols.varchar body (js "resultHash") (stored.bind (·.resultHash))
          = some row.resultHash
      ∧ required cols.jsonb body (js "usageMetrics") (stored.map (·.usageMetrics))
          = some row.usageMetrics
      ∧ required cols.decimal body (js "priceComputed") (stored.map (·.priceComputed))
          = some row.priceComputed
      ∧ required cols.varchar body (js "nonce") (stored.map (·.nonce)) = some row.nonce
      ∧ required cols.varchar body (js "signature") (stored.map (·.signature))
          = some row.signature
      ∧ required cols.timestamp body (js "createdAt")
          (some ((stored.map (·.createdAt)).getD now)) = some row.createdAt := by
  constructor
  · intro h
    simp only [receiptRow, Option.bind_eq_bind, Option.bind_eq_some_iff, Option.pure_def,
      Option.some.injEq] at h
    obtain ⟨_, h₁, _, h₂, _, h₃, _, h₄, _, h₅, _, h₆, _, h₇, _, h₈, rfl⟩ := h
    exact ⟨h₁, h₂, h₃, h₄, h₅, h₆, h₇, h₈⟩
  · rintro ⟨h₁, h₂, h₃, h₄, h₅, h₆, h₇, h₈⟩
    simp only [receiptRow, h₁, h₂, h₃, h₄, h₅, h₆, h₇, h₈, Option.bind_eq_bind, Option.bind_some,
      Option.pure_def]

/-! ### The operations -/

/-- The two tables of the ledger. -/
structure State where
  usage : Table JsString UsageRecord
  receipts : Table JsString ReceiptRow

def empty : State := ⟨[], []⟩

/-- The argument of `createSignedReceipt`. -/
structure ReceiptArguments where
  sessionId : JsString
  requestHash : JsString
  resultHash : Optional JsString
  usageMetrics : Json
  priceComputed : JsString

/-- `params.resultHash ?? null`. -/
def ReceiptArguments.storedResult (params : ReceiptArguments) : Option JsString :=
  match params.resultHash with
  | .value s => some s
  | _ => none

def ReceiptArguments.message (params : ReceiptArguments) (nonce : JsString) : JsString :=
  stringify (receiptObject params.sessionId params.requestHash params.storedResult
    params.usageMetrics params.priceComputed nonce)

/-- The entity `createSignedReceipt` saves. -/
def receiptEntity (params : ReceiptArguments) (nonce signature : JsString) : Body :=
  [(js "sessionId", .str params.sessionId), (js "requestHash", .str params.requestHash),
    (js "resultHash", (params.storedResult.map Json.str).getD .null),
    (js "usageMetrics", params.usageMetrics), (js "priceComputed", .str params.priceComputed),
    (js "nonce", .str nonce), (js "signature", .str signature)]

/-- A text column returns strings as they were sent. -/
def Columns.KeepsText (cols : Columns) : Prop := ∀ s t, cols.varchar (.str s) = some t → t = s

/-- The row of the entity that `createSignedReceipt` saves. -/
theorem receiptRow_receiptEntity {cols : Columns} (htext : cols.KeepsText)
    {params : ReceiptArguments} {nonce signature : JsString} {now : ℤ} {row : ReceiptRow}
    (h : receiptRow cols (receiptEntity params nonce signature) now none = some row) :
    row.sessionId = params.sessionId ∧ row.requestHash = params.requestHash
      ∧ row.resultHash = params.storedResult
      ∧ row.usageMetrics = Lib.Jsonb.jsonb params.usageMetrics
      ∧ cols.decimal (.str params.priceComputed) = some row.priceComputed
      ∧ row.nonce = nonce ∧ row.signature = signature ∧ row.createdAt = now := by
  have hkeys : ((receiptEntity params nonce signature).map Prod.fst).Nodup := by
    show [js "sessionId", js "requestHash", js "resultHash", js "usageMetrics",
      js "priceComputed", js "nonce", js "signature"].Nodup
    decide
  have hlookup : ∀ key value, (key, value) ∈ receiptEntity params nonce signature →
      (receiptEntity params nonce signature).lookup key = some value :=
    fun key value hmem => lookup_of_mem hkeys hmem
  obtain ⟨hsession, hrequest, hresult, hmetrics, hprice, hnonce, hsignature, hcreated⟩ :=
    receiptRow_eq_some.mp h
  refine ⟨?_, ?_, ?_, ?_, ?_, ?_, ?_, ?_⟩
  · exact htext _ _ (required_of_lookup (hlookup _ _ (by simp [receiptEntity])) hsession)
  · exact htext _ _ (required_of_lookup (hlookup _ _ (by simp [receiptEntity])) hrequest)
  · rw [nullable, hlookup (js "resultHash") ((params.storedResult.map Json.str).getD .null)
      (by simp [receiptEntity])] at hresult
    cases hstored : params.storedResult with
    | none =>
        rw [hstored] at hresult
        exact (Option.some.inj hresult).symm
    | some result =>
        rw [hstored] at hresult
        obtain ⟨t, ht, hrow⟩ := Option.map_eq_some_iff.mp hresult
        rw [← hrow, htext result t ht]
  · have hjsonb : cols.jsonb params.usageMetrics = some row.usageMetrics :=
      required_of_lookup (hlookup _ _ (by simp [receiptEntity])) hmetrics
    rw [Columns.jsonb, Option.ite_none_right_eq_some] at hjsonb
    exact (Option.some.inj hjsonb.2).symm
  · exact required_of_lookup (hlookup _ _ (by simp [receiptEntity])) hprice
  · exact htext _ _ (required_of_lookup (hlookup _ _ (by simp [receiptEntity])) hnonce)
  · exact htext _ _ (required_of_lookup (hlookup _ _ (by simp [receiptEntity])) hsignature)
  · have habsent : (receiptEntity params nonce signature).lookup (js "createdAt") = none := by
      refine lookup_of_notMem ?_
      show js "createdAt" ∉ [js "sessionId", js "requestHash", js "resultHash", js "usageMetrics",
        js "priceComputed", js "nonce", js "signature"]
      decide
    rw [required, habsent] at hcreated
    exact (Option.some.inj hcreated).symm

section Calls

variable (cols : Columns)

/-- `none` is a call that throws.  `generated` is the id of a new row, `now` its `createdAt`. -/
def recordUsage (s : State) (data : Body) (generated : JsString) (now : ℤ) : Option State :=
  (save s.usage (carriedId cols data) generated (usageRow cols data now)).map
    fun usage => { s with usage }

def createReceipt (s : State) (data : Body) (generated : JsString) (now : ℤ) : Option State :=
  (save s.receipts (carriedId cols data) generated (receiptRow cols data now)).map
    fun receipts => { s with receipts }

/-- `signature` is what the wallet returns, `none` when it fails. -/
def createSignedReceipt (s : State) (params : ReceiptArguments) (nonce : JsString)
    (signature : Option JsString) (generated : JsString) (now : ℤ) : Option State :=
  signature.bind fun signature =>
    createReceipt cols s (receiptEntity params nonce signature) generated now

inductive Call where
  | recordUsage (data : Body) (generated : JsString) (now : ℤ)
  | createSignedReceipt (params : ReceiptArguments) (nonce : JsString)
      (signature : Option JsString) (generated : JsString) (now : ℤ)
  | createReceipt (data : Body) (generated : JsString) (now : ℤ)

/-- The state after a call that succeeds. -/
def Call.reply (s : State) : Call → Option State
  | .recordUsage data generated now => Ledger.recordUsage cols s data generated now
  | .createSignedReceipt params nonce signature generated now =>
      Ledger.createSignedReceipt cols s params nonce signature generated now
  | .createReceipt data generated now => Ledger.createReceipt cols s data generated now

/-- A call that throws leaves the tables as they are. -/
def step (s : State) (call : Call) : Option State := some ((call.reply cols s).getD s)

/-! ### Calls that append -/

/-- No stored row takes the values of the entity. -/
def Appends (s : State) : Call → Prop
  | .recordUsage data _ now => ∀ stored, target s.usage (carriedId cols data) = some stored →
      usageRow cols data now (some stored) = none
  | .createSignedReceipt .. => True
  | .createReceipt data _ now => ∀ stored, target s.receipts (carriedId cols data) = some stored →
      receiptRow cols data now (some stored) = none

/-- The call adds one row to its table and touches no other row. -/
def Adds (s t : State) : Call → Prop
  | .recordUsage .. => Grows s.usage t.usage ∧ t.receipts = s.receipts
  | _ => Grows s.receipts t.receipts ∧ t.usage = s.usage

theorem recordUsage_adds_iff {s : State} {data : Body} {generated : JsString} {now : ℤ} :
    (∀ t, recordUsage cols s data generated now = some t →
        Grows s.usage t.usage ∧ t.receipts = s.receipts)
      ↔ ∀ stored, target s.usage (carriedId cols data) = some stored →
          usageRow cols data now (some stored) = none :=
  forall_map_save_iff fun _ => and_iff_left rfl

theorem createReceipt_adds_iff {s : State} {data : Body} {generated : JsString} {now : ℤ} :
    (∀ t, createReceipt cols s data generated now = some t →
        Grows s.receipts t.receipts ∧ t.usage = s.usage)
      ↔ ∀ stored, target s.receipts (carriedId cols data) = some stored →
          receiptRow cols data now (some stored) = none :=
  forall_map_save_iff fun _ => and_iff_left rfl

/-- The entity of a signed receipt carries no id. -/
theorem carriedId_receiptEntity (params : ReceiptArguments) (nonce signature : JsString) :
    carriedId cols (receiptEntity params nonce signature) = .absent := by
  have hid : (receiptEntity params nonce signature).lookup (js "id") = none := by
    refine lookup_of_notMem ?_
    show js "id" ∉ [js "sessionId", js "requestHash", js "resultHash", js "usageMetrics",
      js "priceComputed", js "nonce", js "signature"]
    decide
  rw [carriedId, hid]

/-- A signed receipt is inserted. -/
theorem createSignedReceipt_eq_some {s t : State} {params : ReceiptArguments}
    {nonce signature generated : JsString} {now : ℤ}
    (h : createSignedReceipt cols s params nonce (some signature) generated now = some t) :
    ∃ row, receiptRow cols (receiptEntity params nonce signature) now none = some row
      ∧ t.receipts = s.receipts ++ [(generated, row)] := by
  obtain ⟨receipts, hsave, rfl⟩ := Option.map_eq_some_iff.mp h
  rw [carriedId_receiptEntity] at hsave
  obtain ⟨id, row, hid, -, hrow, rfl⟩ := save_of_target_none rfl hsave
  obtain rfl := Option.some.inj hid
  exact ⟨row, hrow, rfl⟩

theorem createSignedReceipt_adds {s t : State} {params : ReceiptArguments} {nonce : JsString}
    {signature : Option JsString} {generated : JsString} {now : ℤ}
    (h : createSignedReceipt cols s params nonce signature generated now = some t) :
    Grows s.receipts t.receipts ∧ t.usage = s.usage := by
  obtain ⟨signature, rfl, h⟩ := Option.bind_eq_some_iff.mp h
  refine (createReceipt_adds_iff cols).mpr ?_ t h
  rw [carriedId_receiptEntity]
  exact nofun

/-- **A call appends exactly if no stored row takes the values of its entity.** -/
theorem appends_iff (s : State) (call : Call) :
    (∀ t, call.reply cols s = some t → Adds s t call) ↔ Appends cols s call := by
  cases call with
  | recordUsage data generated now => exact recordUsage_adds_iff cols
  | createSignedReceipt params nonce signature generated now =>
      exact iff_of_true (fun t ht => createSignedReceipt_adds cols ht) trivial
  | createReceipt data generated now => exact createReceipt_adds_iff cols

/-! ### Runs -/

/-- Every stored row is still there, as it was. -/
def Kept (s t : State) : Prop := s.usage <+: t.usage ∧ s.receipts <+: t.receipts

theorem Kept.refl (s : State) : Kept s s := ⟨List.prefix_rfl, List.prefix_rfl⟩

theorem Kept.trans {s t u : State} (h : Kept s t) (h' : Kept t u) : Kept s u :=
  ⟨h.1.trans h'.1, h.2.trans h'.2⟩

theorem Adds.kept {s t : State} {call : Call} (h : Adds s t call) : Kept s t := by
  cases call with
  | recordUsage data generated now => exact ⟨h.1.keeps, h.2 ▸ List.prefix_rfl⟩
  | createSignedReceipt params nonce signature generated now =>
      exact ⟨h.2 ▸ List.prefix_rfl, h.1.keeps⟩
  | createReceipt data generated now => exact ⟨h.2 ▸ List.prefix_rfl, h.1.keeps⟩

/-- A call that appends, or throws, keeps the rows. -/
theorem kept_step {s t : State} {call : Call} (h : Appends cols s call)
    (hstep : step cols s call = some t) : Kept s t := by
  obtain rfl := Option.some.inj hstep
  cases hreply : call.reply cols s with
  | none => exact Kept.refl s
  | some t => exact ((appends_iff cols s call).mpr h t hreply).kept

/-- The rows of every moment are kept to the end, and every call that succeeds adds one. -/
structure AppendOnly (start : State) (calls : List Call) (final : State) : Prop where
  kept : ∀ before m, before <+: calls → run (step cols) start before = some m → Kept m final
  added : AllSteps (step cols) (fun s call => ∀ t, call.reply cols s = some t → Adds s t call)
    start calls

/-- **The ledger is append-only exactly if no stored row takes the values of an entity.** -/
theorem appendOnly_iff {start s : State} {calls : List Call}
    (hrun : run (step cols) start calls = some s) :
    AppendOnly cols start calls s ↔ AllSteps (step cols) (Appends cols) start calls := by
  constructor
  · intro h
    exact h.added.mono fun m call => (appends_iff cols m call).mp
  · intro h
    refine ⟨?_, h.mono fun m call => (appends_iff cols m call).mpr⟩
    refine run_induction_of_steps (step cols)
      (P := fun es t => ∀ before m, before <+: es → run (step cols) start before = some m →
        Kept m t)
      ?_ ?_ calls s hrun h
    · intro before m hbefore hm
      obtain rfl := List.prefix_nil.mp hbefore
      exact Option.some.inj hm ▸ Kept.refl start
    · intro es t call u ht _ ih happends hstep before m hbefore hm
      rcases List.prefix_concat_iff.mp hbefore with rfl | hbefore
      · obtain ⟨t', ht', hstep'⟩ := (run_snoc (step cols)).mp hm
        obtain rfl := Option.some.inj (ht.symm.trans ht')
        obtain rfl := Option.some.inj (hstep.symm.trans hstep')
        exact Kept.refl u
      · exact (ih before m hbefore hm).trans (kept_step cols happends hstep)

end Calls

/-! ### A record that is written over -/

/-- The integer a number stands for. -/
def integral (x : JsNumber) : Option ℤ :=
  if (x.digits.length : ℤ) ≤ x.point then
    let zeros : List ℕ := List.replicate (x.point - x.digits.length).toNat 0
    let magnitude : ℕ := (x.digits.map Fin.val ++ zeros).foldl (fun acc d => 10 * acc + d) 0
    some (if x.negative then -(magnitude : ℤ) else magnitude)
  else none

/-- Column types that take the values of the calls below as PostgreSQL does. -/
def sampleColumns : Columns where
  uuid | .str s => some s | _ => none
  varchar | .str s => some s | _ => none
  int | .num x => integral x | _ => none
  bigint | .str s => some (readNat s) | .num x => integral x | _ => none
  jsonbAccepts _ := true
  decimal | .str s => some s | _ => none
  timestamp _ := none

def recordId : JsString := js "6b1f4c1e-0d3a-4c55-9a58-2f3c1b7f0e11"

/-- A record as `handleRequest` saves it. -/
def recorded : Call :=
  .recordUsage
    [(js "sessionId", .str (js "sess-001")), (js "agentId", .str (js "did:prom:agent-b")),
      (js "tokensUsed", .num (.ofNat 1200)), (js "cpuMs", .num (.ofNat 3)),
      (js "bytesIn", .str (js "4800")), (js "bytesOut", .str (js "174")),
      (js "toolCallsCount", .num (.ofNat 1))]
    recordId 1780063200000

/-- A body that names the id of the record and one column. -/
def overwriting : Call :=
  .recordUsage [(js "id", .str recordId), (js "tokensUsed", .num (.ofNat 0))]
    (js "0d6a7c2b-5a0e-4f0b-8f53-0e5e7b0a9c3d") 1780063201000

theorem appendOnly_iff_overwriting : ∃ s,
    run (step sampleColumns) empty [recorded, overwriting] = some s
    ∧ (AppendOnly sampleColumns empty [recorded, overwriting] s
        ↔ AllSteps (step sampleColumns) (Appends sampleColumns) empty [recorded, overwriting]) :=
  ⟨_, rfl, appendOnly_iff sampleColumns rfl⟩

/-- The second call succeeds and leaves the ledger with one record, of no tokens. -/
theorem overwriting_loses : ∃ m s, run (step sampleColumns) empty [recorded] = some m
    ∧ m.usage.map (fun entry => (entry.1, entry.2.tokensUsed)) = [(recordId, 1200)]
    ∧ overwriting.reply sampleColumns m = some s
    ∧ s.usage.map (fun entry => (entry.1, entry.2.tokensUsed)) = [(recordId, 0)]
    ∧ ¬ AppendOnly sampleColumns empty [recorded, overwriting] s := by
  have hboth : (run (step sampleColumns) empty [recorded]).map (fun m =>
      (m.usage.map fun entry => (entry.1, entry.2.tokensUsed),
        (overwriting.reply sampleColumns m).map fun s =>
          s.usage.map fun entry => (entry.1, entry.2.tokensUsed)))
      = some ([(recordId, 1200)], some [(recordId, 0)]) := by
    decide +kernel
  obtain ⟨m, hm, hrows⟩ := Option.map_eq_some_iff.mp hboth
  obtain ⟨hbefore, hafter⟩ := Prod.mk.inj hrows
  obtain ⟨s, hs, hafter⟩ := Option.map_eq_some_iff.mp hafter
  refine ⟨m, s, hm, hbefore, hs, hafter, fun happend => ?_⟩
  have hkept := (happend.kept [recorded] m (List.prefix_append [recorded] [overwriting]) hm).1
  have hmem : (recordId, (1200 : ℤ))
      ∈ s.usage.map fun entry => (entry.1, entry.2.tokensUsed) :=
    (hkept.map _).subset (hbefore ▸ List.mem_singleton_self _)
  rw [hafter] at hmem
  exact absurd hmem (by decide)

end A2aAgentLayer.Metering.Ledger
