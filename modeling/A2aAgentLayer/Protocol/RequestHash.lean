import A2aAgentLayer.Common.SanitizePipe
import A2aAgentLayer.Protocol.Processing

/-!
# The hash of an honest client

The body of a request goes through `SanitizePipe` and `ValidationPipe` before `handleRequest` hashes
what is left of it and compares the hash with the one the client sent.  The client has hashed the
body it sent.

`ValidationPipe` copies the payload.  What its copies look like is a parameter: they lack the
members of certain names.
-/

namespace A2aAgentLayer.Protocol.RequestHash

open A2aAgentLayer.Lib.Utf16 A2aAgentLayer.Lib.JsonTree A2aAgentLayer.Lib.JsObject
open A2aAgentLayer.Lib.JsonRewrite A2aAgentLayer.Common.FieldValidators
open A2aAgentLayer.Common.SanitizePipe A2aAgentLayer.Crypto.RequestCanonicalization
open A2aAgentLayer.Protocol.Processing

/-! ### From the wire to the hash -/

def bodyMembers (dto : A2aRequestDto) : List (JsString × Json) :=
  [(js "agentFromId", .str dto.agentFromId), (js "agentToId", .str dto.agentToId),
    (js "sessionId", .str dto.sessionId), (js "requestPayload", dto.requestPayload.tree),
    (js "requestHash", .str dto.requestHash), (js "maxBudget", .num dto.maxBudget)]
    ++ unlessUndefined (js "policyDigest") dto.policyDigest
    ++ unlessUndefined (js "nonce") dto.nonce ++ [(js "signature", .str dto.signature)]

/-- The JSON object of a request. -/
def body (dto : A2aRequestDto) : Json := .obj (bodyMembers dto)

def sanitizeOptional : Optional JsString → Optional JsString
  | .undefined => .undefined
  | .null => .null
  | .value s => .value (sanitizeString s)

def sanitizePayload (payload : JsonValue) : JsonValue :=
  ⟨sanitize payload.tree, uniqueKeys_sanitize payload.unique⟩

/-- The request that the sanitized body holds. -/
def sanitized (dto : A2aRequestDto) : A2aRequestDto where
  agentFromId := sanitizeString dto.agentFromId
  agentToId := sanitizeString dto.agentToId
  sessionId := sanitizeString dto.sessionId
  requestPayload := sanitizePayload dto.requestPayload
  requestHash := sanitizeString dto.requestHash
  maxBudget := dto.maxBudget
  policyDigest := sanitizeOptional dto.policyDigest
  nonce := sanitizeOptional dto.nonce
  signature := sanitizeString dto.signature

/-- The properties of `A2aRequestDto`. -/
def properties : List JsString :=
  [js "agentFromId", js "agentToId", js "sessionId", js "requestPayload", js "requestHash",
    js "maxBudget"] ++ [js "policyDigest"] ++ [js "nonce"] ++ [js "signature"]

theorem map_unlessUndefined (key : JsString) (value : Optional JsString) :
    (unlessUndefined key value).map (fun m => (m.1, sanitize m.2))
      = unlessUndefined key (sanitizeOptional value) := by
  cases value with
  | undefined => rfl
  | null => rfl
  | value s => rfl

/-- The pipe sees the body, and leaves the body of the sanitized request. -/
theorem sanitize_body (dto : A2aRequestDto) : sanitize (body dto) = body (sanitized dto) := by
  have hkeys : (bodyMembers dto |>.map Prod.fst).Sublist properties := by
    simp only [bodyMembers, List.map_append]
    exact (((List.Sublist.refl _).append (keys_unlessUndefined _ _)).append
      (keys_unlessUndefined _ _)).append (List.Sublist.refl _)
  have hnamed : (properties.all fun key => arrayIndex key == none && key != protoKey) = true := by
    decide
  rw [body, sanitize_named (hkeys.nodup (by decide))]
  · rw [body]
    simp only [bodyMembers, List.map_append, map_unlessUndefined]
    rfl
  · intro key hkey
    simpa using List.all_eq_true.mp hnamed key (hkeys.subset hkey)

/-- The copies that `ValidationPipe` may make of a payload: members of reserved names are left out.
There may be none, or several: the prototype that the assignment of a `__proto__` member sets is not
part of a payload here. -/
structure PayloadCopy where
  reserved : JsString → Bool
  Copies : JsonValue → JsonValue → Prop
  same : ∀ payload copied, Copies payload copied →
    SameUpToKeyOrder (rewrite (fun k => !reserved k) id payload.tree) copied.tree

/-- The request that `ValidationPipe` checks, with its copy of the payload. -/
def transformed (raw : A2aRequestDto) (payload : JsonValue) : A2aRequestDto :=
  { sanitized raw with requestPayload := payload }

/-- The pipes let the request `raw` through, and `handleRequest` is called with `dto`. -/
def Received (validation : PayloadCopy) (raw dto : A2aRequestDto) : Prop :=
  dto.valid = true ∧ ∃ payload,
    validation.Copies (sanitized raw).requestPayload payload ∧ dto = transformed raw payload

section Digest

variable (sha256 : ByteArray → List UInt8)

/-- Whether `handleRequest` reports a hash mismatch. -/
def hashMismatch (dto : A2aRequestDto) : Bool :=
  dto.requestHash != hashCanonicalRequest sha256 dto.envelope

end Digest

/-- The digest that a request hash spells: without `0x`, in lower case. -/
def spelled (requestHash : JsString) : JsString :=
  ((afterPrefix (js "0x") requestHash).getD requestHash).map lower

/-- The spelling without `0x` and without capital letters. -/
def Bare (requestHash : JsString) : Prop :=
  afterPrefix (js "0x") requestHash = none ∧ ∀ u ∈ requestHash, isUpper u = false

/-! ### What the pipes change -/

def CleanOptional : Optional JsString → Prop
  | .value s => Clean s
  | _ => True

/-- Nothing that is hashed is changed on the way: the hashed strings are clean, and so are those of
the payload, which has no members of reserved names.  A member named `__proto__` and what is in it
does not matter, for it is not hashed. -/
structure CleanRequest (reserved : JsString → Bool) (dto : A2aRequestDto) : Prop where
  agentFromId : Clean dto.agentFromId
  agentToId : Clean dto.agentToId
  sessionId : Clean dto.sessionId
  policyDigest : CleanOptional dto.policyDigest
  nonce : CleanOptional dto.nonce
  payload : Throughout (fun k => decide (k ≠ protoKey)) (fun k => reserved k = false) Clean
    dto.requestPayload.tree

theorem sanitizeOptional_eq_self_iff {value : Optional JsString} :
    sanitizeOptional value = value ↔ CleanOptional value := by
  cases value with
  | undefined => exact iff_of_true rfl trivial
  | null => exact iff_of_true rfl trivial
  | value s =>
      show Optional.value (sanitizeString s) = .value s ↔ Clean s
      rw [Optional.value.injEq, sanitizeString_eq_self_iff]

theorem withoutProto_eq_rewrite (j : Json) :
    withoutProto j = rewrite (fun k => decide (k ≠ protoKey)) id j := by
  induction j using Json.induction with
  | null => rfl
  | bool b => rfl
  | num x => rfl
  | str s => rfl
  | arr elements ih =>
      rw [withoutProto_arr, rewrite_arr]
      congr 1
      exact List.map_congr_left ih
  | obj members ih =>
      rw [withoutProto_obj, rewrite_obj]
      congr 1
      refine List.map_congr_left fun m hm => ?_
      rw [ih m (List.mem_of_mem_filter hm)]

/-- **The payload that is hashed is the client's up to key order exactly when it is clean** and has
no members of reserved names. -/
theorem same_payload_iff {validation : PayloadCopy} {payload copied : JsonValue}
    (hcopy : validation.Copies (sanitizePayload payload) copied) :
    SameUpToKeyOrder (withoutProto payload.tree) (withoutProto copied.tree)
      ↔ Throughout (fun k => decide (k ≠ protoKey)) (fun k => validation.reserved k = false) Clean
        payload.tree := by
  have hunique := payload.unique
  -- what is hashed is one rewrite of what was sent
  have hcopied : SameUpToKeyOrder (rewrite (fun k => !validation.reserved k) id
      (rewrite (fun k => decide (k ≠ protoKey)) sanitizeString payload.tree)) copied.tree :=
    same_trans (same_rewrite _ _ (uniqueKeys_rewrite _ _ hunique) (same_sanitize hunique))
      (validation.same _ _ hcopy)
  have hhashed := same_rewrite (fun k => decide (k ≠ protoKey)) id
    (uniqueKeys_rewrite _ _ (uniqueKeys_rewrite _ _ hunique)) hcopied
  rw [rewrite_rewrite, rewrite_rewrite] at hhashed
  have hback := same_symm (uniqueKeys_rewrite _ _ hunique) hhashed
  rw [withoutProto_eq_rewrite, withoutProto_eq_rewrite]
  have hrewrite : SameUpToKeyOrder (rewrite (fun k => decide (k ≠ protoKey)) id payload.tree)
      (rewrite (fun k => decide (k ≠ protoKey)) id copied.tree)
        ↔ SameUpToKeyOrder (rewrite (fun k => decide (k ≠ protoKey)) id payload.tree)
          (rewrite (fun k => decide (k ≠ protoKey) && !validation.reserved k
            && decide (k ≠ protoKey)) sanitizeString payload.tree) :=
    ⟨fun h => same_trans h hback, fun h => same_trans h hhashed⟩
  rw [hrewrite, same_rewrite_iff (fun k hk => (Bool.and_eq_true_iff.mp hk).2) hunique]
  refine throughout_congr (fun k hk => ?_) (fun s => sanitizeString_eq_self_iff) _
  rw [hk, Bool.true_and, Bool.and_true, Bool.not_eq_true']

/-- **The canonical string that is hashed is the client's exactly when the request is clean.** -/
theorem canonical_eq_iff {validation : PayloadCopy} {raw dto : A2aRequestDto}
    (hreceived : Received validation raw dto) :
    canonicalizeSignedRequest raw.envelope = canonicalizeSignedRequest dto.envelope
      ↔ CleanRequest validation.reserved raw := by
  obtain ⟨-, copied, hcopy, rfl⟩ := hreceived
  rw [canonicalizeSignedRequest_eq_iff]
  have hpayload := same_payload_iff hcopy
  constructor
  · rintro ⟨hfields, hsame⟩
    exact {
      agentFromId := sanitizeString_eq_self_iff.mp hfields.agentFromId.symm
      agentToId := sanitizeString_eq_self_iff.mp hfields.agentToId.symm
      sessionId := sanitizeString_eq_self_iff.mp hfields.sessionId.symm
      policyDigest := sanitizeOptional_eq_self_iff.mp hfields.policyDigest.symm
      nonce := sanitizeOptional_eq_self_iff.mp hfields.nonce.symm
      payload := hpayload.mp hsame }
  · intro h
    refine ⟨?_, hpayload.mpr h.payload⟩
    exact {
      agentFromId := (sanitizeString_eq_self_iff.mpr h.agentFromId).symm
      agentToId := (sanitizeString_eq_self_iff.mpr h.agentToId).symm
      sessionId := (sanitizeString_eq_self_iff.mpr h.sessionId).symm
      maxBudget := rfl
      policyDigest := (sanitizeOptional_eq_self_iff.mpr h.policyDigest).symm
      nonce := (sanitizeOptional_eq_self_iff.mpr h.nonce).symm }

/-! ### Spellings of a digest -/

theorem requestHash_received {validation : PayloadCopy} {raw dto : A2aRequestDto}
    (hreceived : Received validation raw dto) :
    dto.requestHash = sanitizeString raw.requestHash := by
  obtain ⟨-, copied, -, rfl⟩ := hreceived
  rfl

theorem isAlphanumeric_of_isHexUnit {u : CodeUnit} (h : isHexUnit u = true) :
    isAlphanumeric u = true := by
  have hends : unit 'f' ≤ unit 'z' ∧ unit 'F' ≤ unit 'Z' := by decide
  simp only [isHexUnit, Bool.or_eq_true, Bool.and_eq_true, decide_eq_true_eq] at h
  simp only [isAlphanumeric, isLower, isUpper, Bool.or_eq_true, Bool.and_eq_true,
    decide_eq_true_eq]
  rcases h with (h | h) | h
  · exact Or.inr h
  · exact Or.inl (Or.inl ⟨h.1, h.2.trans hends.1⟩)
  · exact Or.inl (Or.inr ⟨h.1, h.2.trans hends.2⟩)

/-- The pipe does not touch a hash. -/
theorem sanitizeString_hash {h : JsString} (hhash : isKeccak256Hash h = true) :
    sanitizeString h = h := by
  rw [sanitizeString_eq_self_iff]
  simp only [isKeccak256Hash, Bool.and_eq_true, List.all_eq_true] at hhash
  cases hafter : afterPrefix (js "0x") h with
  | none =>
      rw [hafter] at hhash
      exact clean_of_alphanumeric fun u hu => isAlphanumeric_of_isHexUnit (hhash.2 u hu)
  | some rest =>
      rw [hafter] at hhash
      have hlead : (js "0x").all isAlphanumeric = true := by decide
      rw [afterPrefix_eq_some.mp hafter]
      refine clean_of_alphanumeric fun u hu => ?_
      rcases List.mem_append.mp hu with hu | hu
      · exact List.all_eq_true.mp hlead u hu
      · exact isAlphanumeric_of_isHexUnit (hhash.2 u hu)

/-- A bare spelling is the digest itself, and no other spelling is. -/
theorem eq_spelled_iff {h : JsString} : h = spelled h ↔ Bare h := by
  rw [spelled, Bare]
  cases hafter : afterPrefix (js "0x") h with
  | none =>
      show h = h.map lower ↔ _
      rw [and_iff_right rfl]
      constructor
      · intro heq u hu
        exact lower_eq_self_iff.mp (List.map_inj_left.mp (heq.symm.trans (List.map_id h).symm) u hu)
      · intro hupper
        exact (List.map_id' h).symm.trans
          (List.map_congr_left fun u hu => (lower_eq_self_iff.mpr (hupper u hu)).symm)
  | some rest =>
      refine iff_of_false (fun heq => ?_) fun hbare => Option.some_ne_none _ hbare.1
      have hlen := congrArg List.length heq
      rw [Option.getD_some, List.length_map, afterPrefix_eq_some.mp hafter, List.length_append,
        show (js "0x").length = 2 from rfl] at hlen
      omega

/-- What a digest prints as is bare. -/
theorem bare_hexText (digest : List UInt8) : Bare (hexText digest) := by
  constructor
  · cases hafter : afterPrefix (js "0x") (hexText digest) with
    | none => rfl
    | some rest =>
        have hx : unit 'x' ∈ hexText digest := by
          rw [afterPrefix_eq_some.mp hafter]
          exact List.mem_append_left rest (List.contains_iff_mem.mp (by decide))
        have hnat := toNat_of_mem_hexText hx
        rw [show (unit 'x').toNat = 120 from rfl] at hnat
        omega
  · intro u hu
    have hnat := toNat_of_mem_hexText hu
    by_contra hupper
    have hrange := isUpper_iff.mp (Bool.not_eq_false _ |>.mp hupper)
    omega

section Digest

variable (sha256 : ByteArray → List UInt8) {validation : PayloadCopy} {raw dto : A2aRequestDto}

/-- No mismatch is reported exactly when the client's spelling is the recomputed hash. -/
theorem recognised_iff_eq (hreceived : Received validation raw dto)
    (hspelling : isKeccak256Hash raw.requestHash = true) :
    hashMismatch sha256 dto = false
      ↔ raw.requestHash = hashCanonicalRequest sha256 dto.envelope := by
  rw [hashMismatch, bne_eq_false_iff_eq, requestHash_received hreceived,
    sanitizeString_hash hspelling]

/-- The hash of a clean request is recognised, whatever the digest. -/
theorem recognised_of_clean (hreceived : Received validation raw dto)
    (hspelling : isKeccak256Hash raw.requestHash = true)
    (hdigest : spelled raw.requestHash = hashCanonicalRequest sha256 raw.envelope)
    (hbare : Bare raw.requestHash) (hclean : CleanRequest validation.reserved raw) :
    hashMismatch sha256 dto = false := by
  rw [recognised_iff_eq sha256 hreceived hspelling]
  calc raw.requestHash = spelled raw.requestHash := eq_spelled_iff.mpr hbare
    _ = hashCanonicalRequest sha256 raw.envelope := hdigest
    _ = hashCanonicalRequest sha256 dto.envelope := by
      rw [hashCanonicalRequest, (canonical_eq_iff hreceived).mpr hclean, hashCanonicalRequest]

end Digest

/-- **An honest client's hash is recognised exactly when** it is spelled without `0x` and in lower
case and the request is clean. -/
theorem hash_recognised_iff (sha256 : ByteArray → List UInt8) (hinj : Function.Injective sha256)
    (validation : PayloadCopy) (raw dto : A2aRequestDto)
    (hreceived : Received validation raw dto)
    (hspelling : isKeccak256Hash raw.requestHash = true)
    (hdigest : spelled raw.requestHash = hashCanonicalRequest sha256 raw.envelope) :
    hashMismatch sha256 dto = false
      ↔ Bare raw.requestHash ∧ CleanRequest validation.reserved raw := by
  constructor
  · intro hmatch
    have heq := (recognised_iff_eq sha256 hreceived hspelling).mp hmatch
    -- a recomputed hash is bare, so the client's is the digest itself
    have hbare : Bare raw.requestHash := by
      rw [heq]
      exact bare_hexText _
    have hhashes : hashCanonicalRequest sha256 raw.envelope
        = hashCanonicalRequest sha256 dto.envelope := by
      rw [← hdigest, ← eq_spelled_iff.mpr hbare, heq]
    rw [hashCanonicalRequest_eq_iff sha256 hinj] at hhashes
    exact ⟨hbare, (canonical_eq_iff hreceived).mp hhashes⟩
  · rintro ⟨hbare, hclean⟩
    exact recognised_of_clean sha256 hreceived hspelling hdigest hbare hclean

/-! ### Two requests with the hashes of their clients -/

/-- The copy leaves out `__proto__` and `constructor`. -/
def plainCopy : PayloadCopy where
  reserved key := key == protoKey || key == js "constructor"
  Copies payload copied :=
    copied.tree = rewrite (fun k => !(k == protoKey || k == js "constructor")) id payload.tree
  same payload copied h := by
    rw [h]
    exact same_refl _

/-- A request with the payload `{ prompt }`. -/
def promptRequest (prompt requestHash : JsString) : A2aRequestDto where
  agentFromId := js "did:prom:agent-from"
  agentToId := js "did:prom:agent-to"
  sessionId := js "550e8400-e29b-41d4-a716-446655440000"
  requestPayload := ⟨.obj [(js "prompt", .str prompt)], by simp⟩
  requestHash := requestHash
  maxBudget := one
  policyDigest := .undefined
  nonce := .undefined
  signature := js "0xsigned"

def plainRequest : A2aRequestDto :=
  promptRequest (js "hi") (js "94b68b1908427af5cb31daaad77a696ce1d7ceccbc5b05723166b19b87c518bc")

def markupRequest : A2aRequestDto :=
  promptRequest (js "<b>hi</b>")
    (js "f8899b360c6f93de1ea74c5b39f40ac46280988321339e9528c620e837cfa964")

/-- What `plainRequest` hashes to. -/
def plainDigest : List UInt8 :=
  [0x94, 0xb6, 0x8b, 0x19, 0x08, 0x42, 0x7a, 0xf5, 0xcb, 0x31, 0xda, 0xaa, 0xd7, 0x7a, 0x69, 0x6c,
   0xe1, 0xd7, 0xce, 0xcc, 0xbc, 0x5b, 0x05, 0x72, 0x31, 0x66, 0xb1, 0x9b, 0x87, 0xc5, 0x18, 0xbc]

def markupDigest : List UInt8 :=
  [0xf8, 0x89, 0x9b, 0x36, 0x0c, 0x6f, 0x93, 0xde, 0x1e, 0xa7, 0x4c, 0x5b, 0x39, 0xf4, 0x0a, 0xc4,
   0x62, 0x80, 0x98, 0x83, 0x21, 0x33, 0x9e, 0x95, 0x28, 0xc6, 0x20, 0xe8, 0x37, 0xcf, 0xa9, 0x64]

def canonicalBytes (dto : A2aRequestDto) : List UInt8 :=
  (utf8Encode (canonicalizeSignedRequest dto.envelope)).data.toList

def promptDigests : List (List UInt8 × List UInt8) :=
  [(canonicalBytes plainRequest, plainDigest), (canonicalBytes markupRequest, markupDigest)]

/-- An injective digest with the values SHA-256 has on the two requests. -/
def promptSha256 : ByteArray → List UInt8 := recordedDigest promptDigests

theorem promptSha256_injective : Function.Injective promptSha256 :=
  recordedDigest_injective (by decide) (by simp [promptDigests, plainDigest, markupDigest])

/-- The hash is not part of what is hashed. -/
theorem envelope_hi (requestHash : JsString) :
    (promptRequest (js "hi") requestHash).envelope = plainRequest.envelope := rfl

theorem valid_promptRequest (prompt : JsString) {requestHash : JsString}
    (hhash : isKeccak256Hash requestHash = true) :
    (promptRequest prompt requestHash).valid = true := by
  simp only [A2aRequestDto.valid, promptRequest, isNotEmptyValue, hhash]
  decide

/-- The prompt is the only string that the pipes may change. -/
theorem promptRequest_received {prompt prompt' requestHash : JsString}
    (hprompt : sanitizeString prompt = prompt') (hhash : isKeccak256Hash requestHash = true) :
    Received plainCopy (promptRequest prompt requestHash)
      (promptRequest prompt' requestHash) := by
  have hfields : sanitizeString (js "did:prom:agent-from") = js "did:prom:agent-from"
      ∧ sanitizeString (js "did:prom:agent-to") = js "did:prom:agent-to"
      ∧ sanitizeString (js "550e8400-e29b-41d4-a716-446655440000")
        = js "550e8400-e29b-41d4-a716-446655440000"
      ∧ sanitizeString (js "0xsigned") = js "0xsigned" := by decide +kernel
  have hnamed : ∀ key ∈ [(js "prompt", Json.str prompt)].map Prod.fst,
      arrayIndex key = none ∧ key ≠ protoKey := by
    intro key hkey
    rw [List.mem_singleton.mp hkey]
    show arrayIndex (js "prompt") = none ∧ js "prompt" ≠ protoKey
    decide
  have hnd : ([(js "prompt", Json.str prompt)].map Prod.fst).Nodup :=
    List.nodup_singleton (js "prompt")
  have hpayload : sanitize (.obj [(js "prompt", .str prompt)])
      = .obj [(js "prompt", .str prompt')] := by
    rw [sanitize_named hnd hnamed, ← hprompt]
    rfl
  have hcopy : plainCopy.Copies
      (sanitizePayload (promptRequest prompt requestHash).requestPayload)
      (promptRequest prompt' requestHash).requestPayload := by
    show Json.obj [(js "prompt", .str prompt')]
      = rewrite _ id (sanitize (.obj [(js "prompt", .str prompt)]))
    rw [hpayload]
    rfl
  have hdto : promptRequest prompt' requestHash = transformed (promptRequest prompt requestHash)
      (promptRequest prompt' requestHash).requestPayload := by
    obtain ⟨hfrom, hto, hsession, hsignature⟩ := hfields
    simp only [transformed, sanitized, promptRequest, sanitizeOptional, hfrom, hto, hsession,
      hsignature, sanitizeString_hash hhash]
  exact ⟨valid_promptRequest prompt' hhash, _, hcopy, hdto⟩

theorem plain_spelling : isKeccak256Hash plainRequest.requestHash = true := by decide

theorem markup_spelling : isKeccak256Hash markupRequest.requestHash = true := by decide

theorem plain_received : Received plainCopy plainRequest plainRequest :=
  promptRequest_received (by decide) plain_spelling

/-- The pipe takes the two tags out, and what is left is the payload of `plainRequest`. -/
theorem markup_received :
    Received plainCopy markupRequest (promptRequest (js "hi") markupRequest.requestHash) :=
  promptRequest_received (by decide) markup_spelling

theorem not_clean_markup : ¬ CleanRequest plainCopy.reserved markupRequest := by
  intro h
  have hpayload := (throughout_obj _ _ _ _).mp h.payload (js "prompt", .str (js "<b>hi</b>"))
    (List.mem_cons_self ..) (by decide)
  exact hpayload.2.noTag [] (js "b") (js "hi</b>") (by decide)

theorem canonicalBytes_ne : canonicalBytes plainRequest ≠ canonicalBytes markupRequest := by
  intro hbytes
  rw [canonicalBytes, canonicalBytes] at hbytes
  have hencode := ByteArray.ext (Array.toList_inj.mp hbytes.symm)
  refine not_clean_markup ?_
  rw [← canonical_eq_iff markup_received, envelope_hi]
  exact utf8Encode_inj (wellFormed_stringify _) (wellFormed_stringify _) hencode

theorem nodup_promptDigests : (promptDigests.map Prod.fst).Nodup := by
  simpa [promptDigests] using canonicalBytes_ne

theorem hash_plain :
    hashCanonicalRequest promptSha256 plainRequest.envelope = plainRequest.requestHash := by
  have hvalue : promptSha256 (utf8Encode (canonicalizeSignedRequest plainRequest.envelope))
      = plainDigest :=
    recordedDigest_of_mem nodup_promptDigests (List.mem_cons_self ..)
  rw [hashCanonicalRequest, hvalue]
  decide +kernel

theorem hash_markup :
    hashCanonicalRequest promptSha256 markupRequest.envelope = markupRequest.requestHash := by
  have hvalue : promptSha256 (utf8Encode (canonicalizeSignedRequest markupRequest.envelope))
      = markupDigest :=
    recordedDigest_of_mem nodup_promptDigests
      (List.mem_cons_of_mem _ (List.mem_singleton_self _))
  rw [hashCanonicalRequest, hvalue]
  decide +kernel

/-- The hash of the plain request is recognised. -/
theorem hash_recognised_plain : hashMismatch promptSha256 plainRequest = false := by
  have hbare : Bare plainRequest.requestHash := by
    rw [← hash_plain]
    exact bare_hexText _
  have hdigest := (eq_spelled_iff.mpr hbare).symm.trans hash_plain.symm
  have hclean : CleanRequest plainCopy.reserved plainRequest :=
    (canonical_eq_iff plain_received).mp rfl
  exact (hash_recognised_iff promptSha256 promptSha256_injective plainCopy plainRequest plainRequest
    plain_received plain_spelling hdigest).mpr ⟨hbare, hclean⟩

/-- **The payload `{"prompt":"<b>hi</b>"}` is hashed as `{"prompt":"hi"}`**: the hash of an honest
client is not recognised. -/
theorem markup_mismatch :
    ∃ dto, markupRequest.valid = true ∧ Received plainCopy markupRequest dto
      ∧ spelled markupRequest.requestHash
        = hashCanonicalRequest promptSha256 markupRequest.envelope
      ∧ hashMismatch promptSha256 dto = true := by
  have hbare : Bare markupRequest.requestHash := by
    rw [← hash_markup]
    exact bare_hexText _
  refine ⟨_, valid_promptRequest _ markup_spelling, markup_received,
    (eq_spelled_iff.mpr hbare).symm.trans hash_markup.symm, ?_⟩
  have hplain : hashCanonicalRequest promptSha256
      (promptRequest (js "hi") markupRequest.requestHash).envelope = plainRequest.requestHash := by
    rw [envelope_hi, hash_plain]
  rw [hashMismatch, hplain]
  decide

end A2aAgentLayer.Protocol.RequestHash
