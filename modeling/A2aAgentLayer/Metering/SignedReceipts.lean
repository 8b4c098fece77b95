import A2aAgentLayer.Metering.Ledger
import A2aAgentLayer.Metering.StoredReceipts

/-!
# Which receipts are authentic

Receipts reach their table by two ways.  `createSignedReceipt`, for `handleRequest` or another
caller, has the wallet sign the message of its arguments and then saves them with the signature, and
other calls may come in between.  `createReceipt` saves a body as it is.

A receipt is authentic when the wallet signed a message that states its values.  All receipts are
authentic, and no two have one nonce, exactly as long as every body that `createReceipt` saves
presents a receipt that was signed and is not in the table.
-/

namespace A2aAgentLayer.Metering.SignedReceipts

open A2aAgentLayer.Lib.Utf16 A2aAgentLayer.Lib.NumberText A2aAgentLayer.Lib.Run
open A2aAgentLayer.Lib.JsonTree A2aAgentLayer.Lib.JsObject A2aAgentLayer.Lib.EntityTable
open A2aAgentLayer.Metering.MeteringService A2aAgentLayer.Metering.ReceiptRows
open A2aAgentLayer.Metering.Ledger A2aAgentLayer.Protocol.Processing

/-! ### Calls -/

/-- The column types, the wallet and the digests. -/
structure Env where
  cols : Columns
  wallet : JsString → JsString
  sha256 : ByteArray → List UInt8
  keccak256 : ByteArray → List UInt8

/-- The arguments and the nonce of a message that the wallet signed. -/
structure Signing where
  params : ReceiptArguments
  nonce : JsString

/-- The ledger, everything the wallet has signed, and the receipts that wait to be saved. -/
structure State where
  ledger : Ledger.State
  signed : List Signing
  pending : List Signing

def initial : State := ⟨Ledger.empty, [], []⟩

/-- The arguments `handleRequest` passes. -/
def ofParams (params : ReceiptParams) : ReceiptArguments where
  sessionId := params.sessionId
  requestHash := params.requestHash
  resultHash := (params.resultHash.map Optional.value).getD .undefined
  usageMetrics := params.usageMetrics.toJson
  priceComputed := params.priceComputed

theorem message_ofParams (params : ReceiptParams) (nonce : JsString) :
    (ofParams params).message nonce = messageToSign params nonce := by
  obtain ⟨sessionId, requestHash, resultHash, usageMetrics, priceComputed⟩ := params
  cases resultHash <;> rfl

theorem storedResult_ofParams (params : ReceiptParams) :
    (ofParams params).storedResult = params.resultHash := by
  obtain ⟨sessionId, requestHash, resultHash, usageMetrics, priceComputed⟩ := params
  cases resultHash <;> rfl

/-- The row that is saved for `handleRequest` is the one a query returns for its receipt. -/
theorem row_of_handleRequest {cols : Columns} (htext : cols.KeepsText) {params : ReceiptParams}
    {nonce signature : JsString} {now : ℤ} {row : ReceiptRow}
    (h : receiptRow cols (receiptEntity (ofParams params) nonce signature) now none = some row) :
    row = StoredReceipts.reloaded (fun text => (cols.decimal (.str text)).getD text)
      (signedReceipt params nonce signature now) := by
  obtain ⟨hsession, hrequest, hresult, hmetrics, hprice, hnonce, hsignature, hcreated⟩ :=
    receiptRow_receiptEntity htext h
  rw [storedResult_ofParams] at hresult
  refine ReceiptRow.ext hsession hrequest hresult hmetrics ?_ hnonce hsignature hcreated
  show row.priceComputed = (cols.decimal (.str params.priceComputed)).getD params.priceComputed
  replace hprice : cols.decimal (.str params.priceComputed) = some row.priceComputed := hprice
  rw [hprice, Option.getD_some]

/-- Authentic as it may be, that row does not rebuild what was signed. -/
theorem message_ne_of_handleRequest {cols : Columns} (htext : cols.KeepsText)
    {params : ReceiptParams} {nonce signature : JsString} {now : ℤ} {row : ReceiptRow}
    (h : receiptRow cols (receiptEntity (ofParams params) nonce signature) now none = some row) :
    row.message ≠ (ofParams params).message nonce := by
  rw [row_of_handleRequest htext h, message_ofParams]
  exact StoredReceipts.message_ne_messageToSign _ params nonce signature now

/-- `sign` is `createSignedReceipt` up to the signature of the wallet, `handleRequest` the same with
its arguments, and `save` is the rest of one of these calls. -/
inductive Event where
  | sign (params : ReceiptArguments) (nonce : JsString)
  | handleRequest (dto : A2aRequestDto) (started stamped finished : ℤ) (nonce : JsString)
  | save (k : ℕ) (generated : JsString) (now : ℤ)
  | createReceipt (data : Body) (generated : JsString) (now : ℤ)

section Service

variable (env : Env)

/-- `randomUUID` does not repeat a nonce. -/
def sign (s : State) (signing : Signing) : Option State :=
  if s.signed.any fun other => other.nonce = signing.nonce then none
  else some { s with signed := s.signed ++ [signing], pending := s.pending ++ [signing] }

/-- A call that the database refuses leaves the ledger as it is. -/
def step (s : State) : Event → Option State
  | .sign params nonce => SignedReceipts.sign s ⟨params, nonce⟩
  | .handleRequest dto started stamped finished nonce =>
      SignedReceipts.sign s
        ⟨ofParams (receiptParams env.sha256 env.keccak256 dto started stamped finished), nonce⟩
  | .save k generated now =>
      match s.pending[k]? with
      | none => none
      | some signing =>
          some { s with
            ledger := (createSignedReceipt env.cols s.ledger signing.params signing.nonce
              (some (env.wallet (signing.params.message signing.nonce))) generated now).getD
                s.ledger
            pending := s.pending.eraseIdx k }
  | .createReceipt data generated now =>
      some { s with
        ledger := (Ledger.createReceipt env.cols s.ledger data generated now).getD s.ledger }

/-! ### Authentic receipts -/

/-- The number a decimal text states. -/
def amount (text : JsString) : Bool × List (Fin 10) × ℤ :=
  if (readNumber text).2.1 = [] then (false, [], 0) else readNumber text

/-- The row carries the signature of the wallet over a message that states its values. -/
structure SignedAs (row : ReceiptRow) (signing : Signing) : Prop where
  sessionId : row.sessionId = signing.params.sessionId
  requestHash : row.requestHash = signing.params.requestHash
  resultHash : row.resultHash = signing.params.storedResult
  usageMetrics : SameUpToKeyOrder signing.params.usageMetrics row.usageMetrics
  priceComputed : amount row.priceComputed = amount signing.params.priceComputed
  nonce : row.nonce = signing.nonce
  signature : row.signature = env.wallet (signing.params.message signing.nonce)

/-- Every receipt is authentic and no two have one nonce. -/
structure Authentic (s : State) : Prop where
  signed : ∀ entry ∈ s.ledger.receipts, ∃ signing ∈ s.signed, SignedAs env entry.2 signing
  nonces : (s.ledger.receipts.map fun entry => entry.2.nonce).Nodup

/-- Over the row it updates, if any, the body names the values of a signed message and the
signature. -/
structure Presents (data : Body) (stored : Option ReceiptRow) (signing : Signing) : Prop where
  sessionId : required env.cols.varchar data (js "sessionId") (stored.map (·.sessionId))
    = some signing.params.sessionId
  requestHash : required env.cols.varchar data (js "requestHash") (stored.map (·.requestHash))
    = some signing.params.requestHash
  resultHash : nullable env.cols.varchar data (js "resultHash") (stored.bind (·.resultHash))
    = some signing.params.storedResult
  usageMetrics : ∃ metrics, required env.cols.jsonb data (js "usageMetrics")
    (stored.map (·.usageMetrics)) = some metrics
      ∧ SameUpToKeyOrder signing.params.usageMetrics metrics
  priceComputed : ∃ price, required env.cols.decimal data (js "priceComputed")
    (stored.map (·.priceComputed)) = some price ∧ amount price = amount signing.params.priceComputed
  nonce : required env.cols.varchar data (js "nonce") (stored.map (·.nonce)) = some signing.nonce
  signature : required env.cols.varchar data (js "signature") (stored.map (·.signature))
    = some (env.wallet (signing.params.message signing.nonce))

variable {env}

/-- A body presents what the row it writes is signed as. -/
theorem presents_iff {data : Body} {now : ℤ} {stored : Option ReceiptRow} {row : ReceiptRow}
    {signing : Signing} (h : receiptRow env.cols data now stored = some row) :
    Presents env data stored signing ↔ SignedAs env row signing := by
  obtain ⟨hsession, hrequest, hresult, hmetrics, hprice, hnonce, hsignature, -⟩ :=
    receiptRow_eq_some.mp h
  constructor
  · rintro ⟨h₁, h₂, h₃, ⟨metrics, h₄, hsame⟩, ⟨price, h₅, hamount⟩, h₆, h₇⟩
    obtain rfl := Option.some.inj (hmetrics.symm.trans h₄)
    obtain rfl := Option.some.inj (hprice.symm.trans h₅)
    exact ⟨Option.some.inj (hsession.symm.trans h₁), Option.some.inj (hrequest.symm.trans h₂),
      Option.some.inj (hresult.symm.trans h₃), hsame, hamount,
      Option.some.inj (hnonce.symm.trans h₆), Option.some.inj (hsignature.symm.trans h₇)⟩
  · rintro ⟨h₁, h₂, h₃, hsame, hamount, h₆, h₇⟩
    exact ⟨h₁ ▸ hsession, h₂ ▸ hrequest, h₃ ▸ hresult, ⟨_, hmetrics, hsame⟩, ⟨_, hprice, hamount⟩,
      h₆ ▸ hnonce, h₇ ▸ hsignature⟩

/-! ### The condition on a call -/

/-- No other receipt than the one with the id has the nonce. -/
def Unborne (receipts : Table JsString ReceiptRow) (id : Option JsString) (nonce : JsString) :
    Prop :=
  ∀ entry ∈ receipts, some entry.1 ≠ id → entry.2.nonce ≠ nonce

variable (env)

/-- A body that is saved presents a signed receipt that the table does not hold otherwise; a signed
receipt that is saved has a price its column keeps and a nonce the table does not hold. -/
def Meets (s : State) : Event → Prop
  | .sign .. => True
  | .handleRequest .. => True
  | .save k generated now => ∀ signing, s.pending[k]? = some signing →
      Accepts s.ledger.receipts .absent generated (receiptRow env.cols
        (receiptEntity signing.params signing.nonce
          (env.wallet (signing.params.message signing.nonce))) now) →
      (∀ price, env.cols.decimal (.str signing.params.priceComputed) = some price →
        amount price = amount signing.params.priceComputed)
      ∧ Unborne s.ledger.receipts (some generated) signing.nonce
  | .createReceipt data generated now =>
      Accepts s.ledger.receipts (carriedId env.cols data) generated (receiptRow env.cols data now) →
      ∃ signing ∈ s.signed,
        Presents env data (target s.ledger.receipts (carriedId env.cols data)) signing
        ∧ Unborne s.ledger.receipts ((carriedId env.cols data).idOr generated) signing.nonce

/-! ### What a step preserves -/

/-- Ids and nonces are generated once, and only signed receipts wait. -/
structure Consistent (s : State) : Prop where
  ids : (s.ledger.receipts.map Prod.fst).Nodup
  nonces : (s.signed.map (·.nonce)).Nodup
  pending : s.pending ⊆ s.signed

variable {env}

theorem createReceipt_ne_none_iff {ledger : Ledger.State} {data : Body} {generated : JsString}
    {now : ℤ} :
    Ledger.createReceipt env.cols ledger data generated now ≠ none ↔
      Accepts ledger.receipts (carriedId env.cols data) generated
        (receiptRow env.cols data now) := by
  rw [← save_ne_none_iff, Ledger.createReceipt, ne_eq, Option.map_eq_none_iff]

theorem nodup_createReceipt {ledger after : Ledger.State} {data : Body} {generated : JsString}
    {now : ℤ} (hids : (ledger.receipts.map Prod.fst).Nodup)
    (h : Ledger.createReceipt env.cols ledger data generated now = some after) :
    (after.receipts.map Prod.fst).Nodup := by
  obtain ⟨receipts, hsave, rfl⟩ := Option.map_eq_some_iff.mp h
  exact nodup_save hids hsave

theorem Consistent.createReceipt {s : State} (hs : Consistent s) (data : Body)
    (generated : JsString) (now : ℤ) {pending : List Signing} (hpending : pending ⊆ s.pending) :
    Consistent { s with
      ledger := (Ledger.createReceipt env.cols s.ledger data generated now).getD s.ledger
      pending := pending } := by
  refine ⟨?_, hs.nonces, fun signing h => hs.pending (hpending h)⟩
  cases hreply : Ledger.createReceipt env.cols s.ledger data generated now with
  | none => exact hs.ids
  | some after => exact nodup_createReceipt hs.ids hreply

theorem sign_eq_some {s t : State} {signing : Signing} :
    SignedReceipts.sign s signing = some t ↔ signing.nonce ∉ s.signed.map (·.nonce)
      ∧ { s with signed := s.signed ++ [signing], pending := s.pending ++ [signing] } = t := by
  have hany : (s.signed.any fun other => other.nonce = signing.nonce) = true
      ↔ signing.nonce ∈ s.signed.map (·.nonce) := by
    simp only [List.any_eq_true, decide_eq_true_eq, List.mem_map]
  rw [SignedReceipts.sign, Option.ite_none_left_eq_some, Option.some.injEq, hany]

theorem Consistent.sign {s t : State} {signing : Signing} (hs : Consistent s)
    (h : SignedReceipts.sign s signing = some t) : Consistent t := by
  obtain ⟨hnew, rfl⟩ := sign_eq_some.mp h
  refine ⟨hs.ids, ?_, ?_⟩
  · show ((s.signed ++ [signing]).map (·.nonce)).Nodup
    rw [List.map_append, List.map_singleton, ← List.concat_eq_append]
    exact List.Nodup.concat hnew hs.nonces
  · exact List.append_subset.mpr ⟨List.subset_append_of_subset_left _ hs.pending,
      List.subset_append_right _ _⟩

theorem consistent_step (s : State) (e : Event) (t : State) (hs : Consistent s)
    (hstep : step env s e = some t) : Consistent t := by
  cases e with
  | sign params nonce => exact hs.sign hstep
  | handleRequest dto started stamped finished nonce => exact hs.sign hstep
  | save k generated now =>
      rw [step] at hstep
      split at hstep
      · cases hstep
      · obtain rfl := Option.some.inj hstep
        exact hs.createReceipt _ generated now (List.eraseIdx_subset ..)
  | createReceipt data generated now =>
      obtain rfl := Option.some.inj hstep
      exact hs.createReceipt data generated now (List.Subset.refl _)

/-- Signing touches no receipt. -/
theorem Authentic.sign {s t : State} {signing : Signing} (h : Authentic env s)
    (hsign : SignedReceipts.sign s signing = some t) : Authentic env t := by
  obtain ⟨-, rfl⟩ := sign_eq_some.mp hsign
  refine ⟨fun entry hentry => ?_, h.nonces⟩
  obtain ⟨earlier, hmem, hsigned⟩ := h.signed entry hentry
  exact ⟨earlier, List.mem_append_left _ hmem, hsigned⟩

/-- **A save keeps all receipts authentic exactly if the row it writes is authentic and no other row
has its nonce.** -/
theorem authentic_createReceipt_iff {s : State} {data : Body} {generated : JsString} {now : ℤ}
    {after : Ledger.State} (hs : Consistent s) (hgood : Authentic env s) (pending : List Signing)
    (h : Ledger.createReceipt env.cols s.ledger data generated now = some after) :
    ∃ row, receiptRow env.cols data now (target s.ledger.receipts (carriedId env.cols data))
        = some row
      ∧ (Authentic env { s with ledger := after, pending := pending } ↔
          (∃ signing ∈ s.signed, SignedAs env row signing)
          ∧ Unborne s.ledger.receipts ((carriedId env.cols data).idOr generated) row.nonce) := by
  have hids := nodup_createReceipt hs.ids h
  obtain ⟨receipts, hsave, rfl⟩ := Option.map_eq_some_iff.mp h
  obtain ⟨id, row, hid, hrow, hmem⟩ := mem_save hsave
  have hwritten : (id, row) ∈ receipts := (hmem _).mpr (.inl rfl)
  refine ⟨row, hrow, ?_⟩
  rw [hid]
  constructor
  · intro hauthentic
    refine ⟨hauthentic.signed _ hwritten, fun entry hentry hne hnonce => hne ?_⟩
    have hkept : entry ∈ receipts :=
      (hmem entry).mpr (.inr ⟨hentry, fun heq => hne (congrArg some heq)⟩)
    rw [List.inj_on_of_nodup_map hauthentic.nonces hkept hwritten hnonce]
  · rintro ⟨hsigned, hunborne⟩
    refine ⟨fun entry hentry => ?_, ?_⟩
    · rcases (hmem entry).mp hentry with rfl | ⟨hentry, -⟩
      · exact hsigned
      · exact hgood.signed entry hentry
    · refine List.Nodup.map_on ?_ hids.of_map
      intro a ha b hb hnonce
      rcases (hmem a).mp ha with rfl | ⟨ha, hane⟩
      · rcases (hmem b).mp hb with rfl | ⟨hb, hbne⟩
        · rfl
        · exact absurd hnonce.symm (hunborne b hb fun heq => hbne (Option.some.inj heq))
      · rcases (hmem b).mp hb with rfl | ⟨hb, hbne⟩
        · exact absurd hnonce (hunborne a ha fun heq => hane (Option.some.inj heq))
        · exact List.inj_on_of_nodup_map hgood.nonces ha hb hnonce

/-- The row of a signed receipt differs from what was signed at most in its price. -/
theorem signedAs_receiptEntity_iff (htext : env.cols.KeepsText) {signing : Signing} {now : ℤ}
    {row : ReceiptRow}
    (h : receiptRow env.cols (receiptEntity signing.params signing.nonce
      (env.wallet (signing.params.message signing.nonce))) now none = some row) :
    SignedAs env row signing ↔
      ∀ price, env.cols.decimal (.str signing.params.priceComputed) = some price →
        amount price = amount signing.params.priceComputed := by
  obtain ⟨hsession, hrequest, hresult, hmetrics, hprice, hnonce, hsignature, -⟩ :=
    receiptRow_receiptEntity htext h
  constructor
  · intro hsigned price hdecimal
    obtain rfl := Option.some.inj (hprice.symm.trans hdecimal)
    exact hsigned.priceComputed
  · intro hamount
    refine ⟨hsession, hrequest, hresult, ?_, hamount _ hprice, hnonce, hsignature⟩
    rw [hmetrics]
    exact Lib.Jsonb.same_jsonb _

/-- A row is signed by the receipt with its nonce or not at all. -/
theorem exists_signedAs_iff {s : State} (hs : Consistent s) {row : ReceiptRow} {signing : Signing}
    (hmem : signing ∈ s.signed) (hnonce : row.nonce = signing.nonce) :
    (∃ other ∈ s.signed, SignedAs env row other) ↔ SignedAs env row signing := by
  constructor
  · rintro ⟨other, hother, hsigned⟩
    have hsame : other.nonce = signing.nonce := hsigned.nonce.symm.trans hnonce
    rw [← List.inj_on_of_nodup_map hs.nonces hother hmem hsame]
    exact hsigned
  · exact fun hsigned => ⟨signing, hmem, hsigned⟩

/-- A receipt that waits is saved well exactly on its condition. -/
theorem authentic_save_iff (htext : env.cols.KeepsText) {s : State} (hs : Consistent s)
    (hgood : Authentic env s) {k : ℕ} {signing : Signing} (hpending : s.pending[k]? = some signing)
    (generated : JsString) (now : ℤ) :
    Authentic env { s with
        ledger := (createSignedReceipt env.cols s.ledger signing.params signing.nonce
          (some (env.wallet (signing.params.message signing.nonce))) generated now).getD s.ledger
        pending := s.pending.eraseIdx k }
      ↔ Meets env s (.save k generated now) := by
  cases hreply : createSignedReceipt env.cols s.ledger signing.params signing.nonce
      (some (env.wallet (signing.params.message signing.nonce))) generated now with
  | none =>
      refine iff_of_true ⟨hgood.signed, hgood.nonces⟩ fun other hother hsaved => ?_
      obtain rfl := Option.some.inj (hpending.symm.trans hother)
      rw [← carriedId_receiptEntity env.cols] at hsaved
      exact absurd hreply (createReceipt_ne_none_iff.mpr hsaved)
  | some after =>
      obtain ⟨row, hrow, hiff⟩ :=
        authentic_createReceipt_iff hs hgood (s.pending.eraseIdx k) hreply
      have hsaved := createReceipt_ne_none_iff.mp (hreply ▸ Option.some_ne_none after)
      rw [carriedId_receiptEntity] at hrow hiff hsaved
      have hnonce := (receiptRow_receiptEntity htext hrow).2.2.2.2.2.1
      have hmem := hs.pending (List.mem_of_getElem? hpending)
      refine Iff.trans hiff ?_
      rw [exists_signedAs_iff hs hmem hnonce, signedAs_receiptEntity_iff htext hrow, hnonce]
      constructor
      · intro hboth other hother _
        obtain rfl := Option.some.inj (hpending.symm.trans hother)
        exact hboth
      · intro hmeets
        exact hmeets signing hpending hsaved

/-- A body is saved well exactly on its condition. -/
theorem authentic_body_iff {s : State} (hs : Consistent s) (hgood : Authentic env s) (data : Body)
    (generated : JsString) (now : ℤ) :
    Authentic env { s with
        ledger := (Ledger.createReceipt env.cols s.ledger data generated now).getD s.ledger }
      ↔ Meets env s (.createReceipt data generated now) := by
  cases hreply : Ledger.createReceipt env.cols s.ledger data generated now with
  | none =>
      refine iff_of_true ⟨hgood.signed, hgood.nonces⟩ fun hsaved => ?_
      exact absurd hreply (createReceipt_ne_none_iff.mpr hsaved)
  | some after =>
      obtain ⟨row, hrow, hiff⟩ := authentic_createReceipt_iff hs hgood s.pending hreply
      refine Iff.trans hiff ?_
      constructor
      · rintro ⟨⟨signing, hmem, hsigned⟩, hunborne⟩ -
        exact ⟨signing, hmem, (presents_iff hrow).mpr hsigned, hsigned.nonce ▸ hunborne⟩
      · intro hmeets
        have hsaved := createReceipt_ne_none_iff.mp (hreply ▸ Option.some_ne_none after)
        obtain ⟨signing, hmem, hpresents, hunborne⟩ := hmeets hsaved
        have hsigned := (presents_iff hrow).mp hpresents
        exact ⟨⟨signing, hmem, hsigned⟩, hsigned.nonce ▸ hunborne⟩

theorem authentic_step_iff (htext : env.cols.KeepsText) (s : State) (e : Event) (t : State)
    (hs : Consistent s) (hgood : Authentic env s) (hstep : step env s e = some t) :
    Authentic env t ↔ Meets env s e := by
  cases e with
  | sign params nonce => exact iff_of_true (hgood.sign hstep) trivial
  | handleRequest dto started stamped finished nonce =>
      exact iff_of_true (hgood.sign hstep) trivial
  | save k generated now =>
      rw [step] at hstep
      split at hstep
      · cases hstep
      · rename_i signing hpending
        obtain rfl := Option.some.inj hstep
        exact authentic_save_iff htext hs hgood hpending generated now
  | createReceipt data generated now =>
      obtain rfl := Option.some.inj hstep
      exact authentic_body_iff hs hgood data generated now

/-- **When every stored receipt is authentic.**  Along a run all receipts are authentic, each with a
nonce of its own, exactly if every call meets its condition. -/
theorem authentic_throughout_iff (htext : env.cols.KeepsText) {es : List Event} {s : State}
    (hrun : run (step env) initial es = some s) :
    (∀ ps m, ps <+: es → run (step env) initial ps = some m → Authentic env m)
      ↔ AllSteps (step env) (Meets env) initial es :=
  throughout_iff (step env) ⟨List.nodup_nil, List.nodup_nil, List.Subset.refl _⟩
    ⟨nofun, List.nodup_nil⟩ consistent_step (authentic_step_iff htext) es s hrun

/-! ### Runs without `createReceipt` -/

/-- A price with at most eight fraction digits. -/
def AtScale (text : JsString) : Prop :=
  ∃ whole fraction : JsString, text = whole ++ unit '.' :: fraction ∧ fraction.length ≤ 8
    ∧ ∀ u ∈ whole ++ fraction, isDigitUnit u = true

theorem atScale_priceComputed (tokensUsed : ℕ) : AtScale (priceComputed tokensUsed) := by
  have hfour : (natText (tokensUsed % 10000)).length ≤ 4 := by
    rw [natText, List.length_map]
    exact (Nat.length_toDigits_le_iff (by decide) (by decide)).mpr (by omega)
  have hzeros : (js "0000").all isDigitUnit = true := by decide
  refine ⟨natText (tokensUsed / 10000), padded 4 (tokensUsed % 10000) ++ js "0000", ?_, ?_, ?_⟩
  · simp [priceComputed, js]
  · rw [List.length_append, length_padded hfour]
    decide
  · intro u hu
    rcases List.mem_append.mp hu with hu | hu
    · exact digit_of_mem_natText hu
    rcases List.mem_append.mp hu with hu | hu
    · exact digit_of_mem_padded hu
    · exact List.all_eq_true.mp hzeros u hu

/-- `decimal(18,8)` keeps the number when it has room for its digits. -/
def KeepsPrices (cols : Columns) : Prop :=
  ∀ text price, AtScale text → cols.decimal (.str text) = some price → amount price = amount text

/-- A call of the signing way. -/
def Signs : Event → Prop
  | .sign params _ => AtScale params.priceComputed
  | .handleRequest .. => True
  | .save .. => True
  | .createReceipt .. => False

/-- The receipts that wait have prices that will be kept, and nonces of their own. -/
structure Waiting (s : State) : Prop where
  prices : ∀ signing ∈ s.pending, AtScale signing.params.priceComputed
  stored : ∀ entry ∈ s.ledger.receipts, entry.2.nonce ∈ s.signed.map (·.nonce)
  nonces : (s.ledger.receipts.map (fun entry => entry.2.nonce) ++ s.pending.map (·.nonce)).Nodup

theorem Waiting.sign {s t : State} {signing : Signing} (h : Waiting s) (hs : Consistent s)
    (hprice : AtScale signing.params.priceComputed)
    (hsign : SignedReceipts.sign s signing = some t) : Waiting t := by
  obtain ⟨hnew, rfl⟩ := sign_eq_some.mp hsign
  refine ⟨fun waiting hwaiting => ?_, fun entry hentry => ?_, ?_⟩
  · rcases List.mem_append.mp hwaiting with hwaiting | hwaiting
    · exact h.prices waiting hwaiting
    · rw [List.mem_singleton.mp hwaiting]
      exact hprice
  · rw [List.map_append]
    exact List.mem_append_left _ (h.stored entry hentry)
  · rw [List.map_append, List.map_singleton, ← List.append_assoc, ← List.concat_eq_append]
    refine List.Nodup.concat (fun ha => hnew ?_) h.nonces
    rcases List.mem_append.mp ha with ha | ha
    · obtain ⟨entry, hentry, hnonce⟩ := List.mem_map.mp ha
      exact hnonce ▸ h.stored entry hentry
    · exact List.map_subset _ hs.pending ha

theorem Waiting.save {s : State} (h : Waiting s) (htext : env.cols.KeepsText) {k : ℕ}
    {signing : Signing} (hpending : s.pending[k]? = some signing) (hmem : signing ∈ s.signed)
    (generated : JsString) (now : ℤ) :
    Waiting { s with
      ledger := (createSignedReceipt env.cols s.ledger signing.params signing.nonce
        (some (env.wallet (signing.params.message signing.nonce))) generated now).getD s.ledger
      pending := s.pending.eraseIdx k } := by
  obtain ⟨hk, rfl⟩ := List.getElem?_eq_some_iff.mp hpending
  have hprices : ∀ signing ∈ s.pending.eraseIdx k, AtScale signing.params.priceComputed :=
    fun signing hsigning => h.prices signing (List.eraseIdx_subset hsigning)
  -- the nonce of the receipt moves from those that wait to those that are stored
  have hnonces : (s.ledger.receipts.map (fun entry => entry.2.nonce)
      ++ s.pending[k].nonce :: (s.pending.eraseIdx k).map (·.nonce)).Nodup := by
    have hperm := (List.getElem_cons_eraseIdx_perm hk).map (·.nonce)
    exact (List.Perm.append_left _ hperm).nodup_iff.mpr h.nonces
  cases hreply : createSignedReceipt env.cols s.ledger s.pending[k].params s.pending[k].nonce
      (some (env.wallet (s.pending[k].params.message s.pending[k].nonce))) generated now with
  | none => exact ⟨hprices, h.stored, hnonces.sublist ((List.sublist_cons_self _ _).append_left _)⟩
  | some after =>
      obtain ⟨row, hrow, hafter⟩ := createSignedReceipt_eq_some env.cols hreply
      have hnonce : row.nonce = s.pending[k].nonce :=
        (receiptRow_receiptEntity htext hrow).2.2.2.2.2.1
      refine ⟨hprices, fun entry hentry => ?_, ?_⟩
      · replace hentry : entry ∈ after.receipts := hentry
        rw [hafter] at hentry
        rcases List.mem_append.mp hentry with hentry | hentry
        · exact h.stored entry hentry
        · rw [List.mem_singleton.mp hentry, hnonce]
          exact List.mem_map_of_mem hmem
      · show (after.receipts.map (fun entry => entry.2.nonce)
          ++ (s.pending.eraseIdx k).map (·.nonce)).Nodup
        rw [hafter, List.map_append, List.map_singleton, hnonce, List.append_assoc,
          List.singleton_append]
        exact hnonces

theorem waiting_step (htext : env.cols.KeepsText) (s : State) (e : Event) (t : State)
    (hs : Consistent s) (h : Waiting s) (hsigns : Signs e) (hstep : step env s e = some t) :
    Waiting t := by
  cases e with
  | sign params nonce => exact @Waiting.sign s t ⟨params, nonce⟩ h hs hsigns hstep
  | handleRequest dto started stamped finished nonce =>
      exact h.sign hs (atScale_priceComputed _) hstep
  | save k generated now =>
      rw [step] at hstep
      split at hstep
      · cases hstep
      · rename_i signing hpending
        obtain rfl := Option.some.inj hstep
        exact h.save htext hpending (hs.pending (List.mem_of_getElem? hpending)) generated now
  | createReceipt data generated now => exact hsigns.elim

/-- While no body is saved, every call meets its condition. -/
theorem Waiting.meets (hprices : KeepsPrices env.cols) {s : State} (h : Waiting s) {e : Event}
    (hsigns : Signs e) : Meets env s e := by
  cases e with
  | sign params nonce => trivial
  | handleRequest dto started stamped finished nonce => trivial
  | save k generated now =>
      intro signing hpending _
      have hmem := List.mem_of_getElem? hpending
      refine ⟨fun price => hprices _ price (h.prices signing hmem), fun entry hentry _ hnonce => ?_⟩
      have hdisjoint := (List.nodup_append.mp h.nonces).2.2
      exact hdisjoint _ (List.mem_map_of_mem hentry) _ (List.mem_map_of_mem hmem) hnonce
  | createReceipt data generated now => exact hsigns.elim

/-- **The signing way alone keeps all receipts authentic.** -/
theorem authentic_of_signs (htext : env.cols.KeepsText) (hprices : KeepsPrices env.cols)
    {es : List Event} {s : State} (hrun : run (step env) initial es = some s)
    (hsigns : ∀ e ∈ es, Signs e) : Authentic env s := by
  have hall : ∀ es s, run (step env) initial es = some s → (∀ e ∈ es, Signs e) →
      Consistent s ∧ Waiting s ∧ Authentic env s := by
    refine run_induction (step env) (fun _ => ?_) ?_
    · exact ⟨⟨List.nodup_nil, List.nodup_nil, List.Subset.refl _⟩, ⟨nofun, nofun, List.nodup_nil⟩,
        ⟨nofun, List.nodup_nil⟩⟩
    · intro es s e t _ ih hstep hsigns
      rw [List.forall_mem_append, List.forall_mem_singleton] at hsigns
      obtain ⟨hs, hwaiting, hgood⟩ := ih hsigns.1
      exact ⟨consistent_step s e t hs hstep, waiting_step htext s e t hs hwaiting hsigns.2 hstep,
        (authentic_step_iff htext s e t hs hgood hstep).mpr (hwaiting.meets hprices hsigns.2)⟩
  exact (hall es s hrun hsigns).2.2

end Service

/-! ### A receipt nobody signed -/

def sampleEnv : Env where
  cols := sampleColumns
  wallet message := js "0x" ++ message
  sha256 _ := []
  keccak256 _ := []

theorem keepsText_sampleColumns : sampleColumns.KeepsText :=
  fun _ _ h => (Option.some.inj h).symm

/-- A request whose receipt is signed and saved. -/
def answered : List Event :=
  [ .handleRequest (Protocol.HandleRequest.requestWith (js "n-1")) 1 1 1 (js "r-1"),
    .save 0 (js "6b1f4c1e-0d3a-4c55-9a58-2f3c1b7f0e11") 2 ]

theorem authentic_throughout_iff_answered : ∃ s,
    run (step sampleEnv) initial answered = some s
    ∧ s.ledger.receipts.map (fun entry => (entry.2.priceComputed, entry.2.nonce))
        = [(js "0.00050000", js "r-1")]
    ∧ ((∀ ps m, ps <+: answered → run (step sampleEnv) initial ps = some m →
          Authentic sampleEnv m)
        ↔ AllSteps (step sampleEnv) (Meets sampleEnv) initial answered) := by
  have hrows : (run (step sampleEnv) initial answered).map (fun s =>
      s.ledger.receipts.map fun entry => (entry.2.priceComputed, entry.2.nonce))
      = some [(js "0.00050000", js "r-1")] := by
    decide +kernel
  obtain ⟨s, hs, hrows⟩ := Option.map_eq_some_iff.mp hrows
  exact ⟨s, hs, hrows, authentic_throughout_iff keepsText_sampleColumns hs⟩

/-- A body with a price and a signature of its author's choice. -/
def forged : List Event :=
  [ .createReceipt
      [(js "sessionId", .str (js "sess-001")), (js "requestHash", .str (js "00")),
        (js "usageMetrics", .obj [(js "tokensUsed", .num (.ofNat 1))]),
        (js "priceComputed", .str (js "999.00000000")), (js "nonce", .str (js "n-1")),
        (js "signature", .str (js "0xdead"))]
      (js "6b1f4c1e-0d3a-4c55-9a58-2f3c1b7f0e11") 1780063200000 ]

/-- It is stored, and the wallet has signed nothing. -/
theorem forged_unauthentic : ∃ s, run (step sampleEnv) initial forged = some s
    ∧ s.ledger.receipts.map (fun entry => (entry.2.priceComputed, entry.2.signature))
        = [(js "999.00000000", js "0xdead")]
    ∧ s.signed = [] ∧ ¬ Authentic sampleEnv s := by
  have hstate : (run (step sampleEnv) initial forged).map (fun s =>
      (s.signed.length,
        s.ledger.receipts.map fun entry => (entry.2.priceComputed, entry.2.signature)))
      = some (0, [(js "999.00000000", js "0xdead")]) := by
    decide +kernel
  obtain ⟨s, hs, hboth⟩ := Option.map_eq_some_iff.mp hstate
  obtain ⟨hlength, hrows⟩ := Prod.mk.inj hboth
  have hnone : s.signed = [] := List.length_eq_zero_iff.mp hlength
  refine ⟨s, hs, hrows, hnone, fun hauthentic => ?_⟩
  have hmem : (js "999.00000000", js "0xdead")
      ∈ s.ledger.receipts.map (fun entry => (entry.2.priceComputed, entry.2.signature)) := by
    rw [hrows]
    exact List.mem_singleton_self _
  obtain ⟨entry, hentry, -⟩ := List.mem_map.mp hmem
  obtain ⟨signing, hsigning, -⟩ := hauthentic.signed entry hentry
  rw [hnone] at hsigning
  cases hsigning

end A2aAgentLayer.Metering.SignedReceipts
