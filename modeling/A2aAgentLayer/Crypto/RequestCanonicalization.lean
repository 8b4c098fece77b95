import A2aAgentLayer.Lib.JsObject

/-!
# Canonical request strings

`sortKeysDeep` rebuilds every object of a payload by assigning its members, in key order, to a fresh
`{}`.  `canonicalizeSignedRequest` prints the envelope with the rebuilt payload, and
`hashCanonicalRequest` digests the printed text.

The rebuilt payload depends on the payload up to key order only.  Assignment drops a member named
`__proto__`, so the canonical string identifies an envelope up to key order and up to such members,
and nothing else is lost.
-/

namespace A2aAgentLayer.Crypto.RequestCanonicalization

open A2aAgentLayer.Lib.Utf16 A2aAgentLayer.Lib.NumberText
open A2aAgentLayer.Lib.JsonTree A2aAgentLayer.Lib.JsonText A2aAgentLayer.Lib.JsObject

structure SignedRequestEnvelope where
  agentFromId : JsString
  agentToId : JsString
  sessionId : JsString
  requestPayload : JsonValue
  maxBudget : JsNumber
  policyDigest : Optional JsString
  nonce : Optional JsString

/-! ### Sorting keys -/

/-- `Object.keys(record).sort()`. -/
def sortedKeys (record : List (JsString × Json)) : List JsString :=
  ((ownOrder record).map Prod.fst).insertionSort (· ≤ ·)

mutual

def sortKeysDeep : Json → Json
  | .arr elements => .arr (sortElements elements)
  | .obj record =>
      .obj ((sortedKeys record).foldl
        (fun acc key => assign acc key (readProperty (sortMembers record) key)) [])
  | .null => .null
  | .bool b => .bool b
  | .num x => .num x
  | .str s => .str s

def sortElements : List Json → List Json
  | [] => []
  | v :: rest => sortKeysDeep v :: sortElements rest

/-- The members of a record with every value sorted already. -/
def sortMembers : List (JsString × Json) → List (JsString × Json)
  | [] => []
  | (k, v) :: rest => (k, sortKeysDeep v) :: sortMembers rest

end

theorem sortElements_eq_map (elements : List Json) :
    sortElements elements = elements.map sortKeysDeep := by
  induction elements with
  | nil => rfl
  | cons v rest ih => rw [sortElements, ih, List.map_cons]

theorem sortMembers_eq_map (members : List (JsString × Json)) :
    sortMembers members = members.map fun m => (m.1, sortKeysDeep m.2) := by
  induction members with
  | nil => rfl
  | cons m rest ih => rw [sortMembers, ih, List.map_cons]

theorem sortedKeys_perm (record : List (JsString × Json)) :
    (sortedKeys record).Perm (record.map Prod.fst) :=
  (List.perm_insertionSort _ _).trans ((ownOrder_perm record).map Prod.fst)

theorem sortedKeys_pairwise (record : List (JsString × Json)) :
    (sortedKeys record).Pairwise (· ≤ ·) :=
  List.pairwise_insertionSort _ _

/-- The sorted keys are those of the record whatever their order in it. -/
theorem sortedKeys_eq_of_perm {ms ns : List (JsString × Json)}
    (h : (ms.map Prod.fst).Perm (ns.map Prod.fst)) : sortedKeys ms = sortedKeys ns :=
  List.Perm.eq_of_pairwise' (sortedKeys_pairwise ms) (sortedKeys_pairwise ns)
    ((sortedKeys_perm ms).trans (h.trans (sortedKeys_perm ns).symm))

theorem sortKeysDeep_arr (elements : List Json) :
    sortKeysDeep (.arr elements) = .arr (elements.map sortKeysDeep) := by
  rw [sortKeysDeep, sortElements_eq_map]

/-- A record comes back as its sorted keys other than `__proto__`, with sorted values. -/
theorem sortKeysDeep_obj {record : List (JsString × Json)} (hnd : (record.map Prod.fst).Nodup) :
    sortKeysDeep (.obj record) = .obj (((sortedKeys record).filter (· ≠ protoKey)).map
      fun k => (k, sortKeysDeep (readProperty record k))) := by
  have hread : ∀ k ∈ sortedKeys record,
      readProperty (sortMembers record) k = sortKeysDeep (readProperty record k) := by
    intro k hk
    obtain ⟨m, hm, rfl⟩ := List.mem_map.mp ((sortedKeys_perm record).mem_iff.mp hk)
    have hm' := List.mem_map_of_mem (f := fun m => (m.1, sortKeysDeep m.2)) hm
    rw [← sortMembers_eq_map] at hm'
    have hnd' : ((sortMembers record).map Prod.fst).Nodup := by
      rw [sortMembers_eq_map, List.map_map]
      exact hnd
    rw [readProperty_of_mem hnd' hm', readProperty_of_mem hnd hm]
  rw [sortKeysDeep, foldl_assign _ _ _ ((sortedKeys_perm record).nodup_iff.mpr hnd) (by simp),
    List.nil_append]
  congr 1
  refine List.map_congr_left fun k hk => ?_
  rw [hread k (List.mem_of_mem_filter hk)]

/-- **Sorting forgets key order.** -/
theorem sortKeysDeep_eq_of_same {a b : Json} (ha : a.UniqueKeys) (hb : b.UniqueKeys)
    (h : SameUpToKeyOrder a b) : sortKeysDeep a = sortKeysDeep b := by
  induction a using Json.induction generalizing b with
  | null => rw [same_null_iff.mp h]
  | bool x => rw [same_bool_iff.mp h]
  | num x => rw [same_num_iff.mp h]
  | str s => rw [same_str_iff.mp h]
  | arr xs ih =>
      obtain ⟨ys, rfl, hxy⟩ := same_arr_iff.mp h
      rw [uniqueKeys_arr] at ha hb
      rw [sortKeysDeep_arr, sortKeysDeep_arr]
      clear h
      congr 1
      induction hxy with
      | nil => rfl
      | cons hx _ ihs =>
          rw [List.forall_mem_cons] at ha hb ih
          rw [List.map_cons, List.map_cons, ih.1 ha.1 hb.1 hx, ihs ih.2 ha.2 hb.2]
  | obj ms ih =>
      obtain ⟨ns, rfl, hkeys, hmem⟩ := same_obj_iff.mp h
      rw [uniqueKeys_obj] at ha hb
      rw [sortKeysDeep_obj ha.1, sortKeysDeep_obj hb.1, sortedKeys_eq_of_perm hkeys]
      congr 1
      refine List.map_congr_left fun k hk => ?_
      have hk' := (sortedKeys_perm ns).mem_iff.mp (List.mem_of_mem_filter hk)
      obtain ⟨m, hm, rfl⟩ := List.mem_map.mp (hkeys.mem_iff.mpr hk')
      obtain ⟨w, hw, hsame⟩ := hmem m hm
      rw [readProperty_of_mem ha.1 hm, readProperty_of_mem hb.1 hw,
        ih m hm (ha.2 m hm) (hb.2 _ hw) hsame]

/-! ### Members named `__proto__` -/

mutual

/-- A value without the members named `__proto__`, at every depth. -/
def withoutProto : Json → Json
  | .arr elements => .arr (elementsWithoutProto elements)
  | .obj members => .obj (membersWithoutProto members)
  | .null => .null
  | .bool b => .bool b
  | .num x => .num x
  | .str s => .str s

def elementsWithoutProto : List Json → List Json
  | [] => []
  | v :: rest => withoutProto v :: elementsWithoutProto rest

def membersWithoutProto : List (JsString × Json) → List (JsString × Json)
  | [] => []
  | (k, v) :: rest =>
      if k = protoKey then membersWithoutProto rest
      else (k, withoutProto v) :: membersWithoutProto rest

end

theorem withoutProto_arr (elements : List Json) :
    withoutProto (.arr elements) = .arr (elements.map withoutProto) := by
  have hmap : ∀ vs, elementsWithoutProto vs = vs.map withoutProto := by
    intro vs
    induction vs with
    | nil => rfl
    | cons v vs ih => rw [elementsWithoutProto, ih, List.map_cons]
  rw [withoutProto, hmap]

theorem withoutProto_obj (members : List (JsString × Json)) :
    withoutProto (.obj members) = .obj ((members.filter (·.1 ≠ protoKey)).map
      fun m => (m.1, withoutProto m.2)) := by
  have hmap : ∀ ms, membersWithoutProto ms =
      (ms.filter (·.1 ≠ protoKey)).map fun m => (m.1, withoutProto m.2) := by
    intro ms
    induction ms with
    | nil => rfl
    | cons m ms ih =>
        by_cases hk : m.1 = protoKey
        · rw [membersWithoutProto, if_pos hk, ih, List.filter_cons_of_neg (by simpa)]
        · rw [membersWithoutProto, if_neg hk, ih, List.filter_cons_of_pos (by simpa),
            List.map_cons]
  rw [withoutProto, hmap]

/-- The keys that remain are the keys other than `__proto__`. -/
theorem keys_withoutProto (members : List (JsString × Json)) :
    (((members.filter (·.1 ≠ protoKey)).map fun m => (m.1, withoutProto m.2)).map Prod.fst)
      = (members.map Prod.fst).filter (· ≠ protoKey) := by
  rw [List.map_map, List.filter_map]
  rfl

theorem uniqueKeys_withoutProto {j : Json} (h : j.UniqueKeys) : (withoutProto j).UniqueKeys := by
  induction j using Json.induction with
  | null => trivial
  | bool b => trivial
  | num x => trivial
  | str s => trivial
  | arr elements ih =>
      rw [uniqueKeys_arr] at h
      rw [withoutProto_arr, uniqueKeys_arr]
      intro v hv
      obtain ⟨w, hw, rfl⟩ := List.mem_map.mp hv
      exact ih w hw (h w hw)
  | obj members ih =>
      rw [uniqueKeys_obj] at h
      rw [withoutProto_obj, uniqueKeys_obj, keys_withoutProto]
      refine ⟨h.1.filter _, fun m hm => ?_⟩
      obtain ⟨n, hn, rfl⟩ := List.mem_map.mp hm
      have hn' := List.mem_of_mem_filter hn
      exact ih n hn' (h.2 n hn')

/-- **Sorting loses the `__proto__` members and nothing else.** -/
theorem same_sortKeysDeep {j : Json} (h : j.UniqueKeys) :
    SameUpToKeyOrder (withoutProto j) (sortKeysDeep j) := by
  induction j using Json.induction with
  | null => exact same_refl _
  | bool b => exact same_refl _
  | num x => exact same_refl _
  | str s => exact same_refl _
  | arr elements ih =>
      rw [uniqueKeys_arr] at h
      rw [withoutProto_arr, sortKeysDeep_arr, same_arr, List.forall₂_map_left_iff,
        List.forall₂_map_right_iff]
      exact List.forall₂_same.mpr fun v hv => ih v hv (h v hv)
  | obj members ih =>
      rw [uniqueKeys_obj] at h
      rw [withoutProto_obj, sortKeysDeep_obj h.1, same_obj, keys_withoutProto, List.map_map]
      refine ⟨?_, fun m hm => ?_⟩
      · have hid : (Prod.fst ∘ fun k => (k, sortKeysDeep (readProperty members k))) = id := rfl
        rw [hid, List.map_id]
        exact ((sortedKeys_perm members).filter _).symm
      · obtain ⟨n, hn, rfl⟩ := List.mem_map.mp hm
        obtain ⟨hn, hproto⟩ := List.mem_filter.mp hn
        have hkey : n.1 ∈ (sortedKeys members).filter (· ≠ protoKey) :=
          List.mem_filter.mpr
            ⟨(sortedKeys_perm members).mem_iff.mpr (List.mem_map_of_mem hn), hproto⟩
        refine ⟨_, List.mem_map_of_mem hkey, ?_⟩
        rw [readProperty_of_mem h.1 hn]
        exact ih n hn (h.2 n hn)

theorem uniqueKeys_sortKeysDeep {j : Json} (h : j.UniqueKeys) : (sortKeysDeep j).UniqueKeys :=
  uniqueKeys_of_same (uniqueKeys_withoutProto h) (same_sortKeysDeep h)

/-- What sorting drops may be dropped first. -/
theorem sortKeysDeep_withoutProto {j : Json} (h : j.UniqueKeys) :
    sortKeysDeep (withoutProto j) = sortKeysDeep j := by
  induction j using Json.induction with
  | null => rfl
  | bool b => rfl
  | num x => rfl
  | str s => rfl
  | arr elements ih =>
      rw [uniqueKeys_arr] at h
      rw [withoutProto_arr, sortKeysDeep_arr, sortKeysDeep_arr, List.map_map]
      congr 1
      exact List.map_congr_left fun v hv => ih v hv (h v hv)
  | obj members ih =>
      have hkept := uniqueKeys_withoutProto h
      rw [withoutProto_obj] at hkept ⊢
      rw [uniqueKeys_obj] at h hkept
      have hkeys : (sortedKeys ((members.filter (·.1 ≠ protoKey)).map
          fun m => (m.1, withoutProto m.2))).filter (· ≠ protoKey)
            = (sortedKeys members).filter (· ≠ protoKey) := by
        refine List.Perm.eq_of_pairwise' ((sortedKeys_pairwise _).filter _)
          ((sortedKeys_pairwise _).filter _) ?_
        have hperm := (sortedKeys_perm ((members.filter (·.1 ≠ protoKey)).map
          fun m => (m.1, withoutProto m.2))).filter (· ≠ protoKey)
        rw [keys_withoutProto, List.filter_filter] at hperm
        simp only [Bool.and_self] at hperm
        exact hperm.trans ((sortedKeys_perm members).filter _).symm
      rw [sortKeysDeep_obj hkept.1, sortKeysDeep_obj h.1, hkeys]
      congr 1
      refine List.map_congr_left fun k hk => ?_
      obtain ⟨hk, hproto⟩ := List.mem_filter.mp hk
      obtain ⟨n, hn, rfl⟩ := List.mem_map.mp ((sortedKeys_perm members).mem_iff.mp hk)
      have hn' : (n.1, withoutProto n.2) ∈ (members.filter (·.1 ≠ protoKey)).map
          fun m => (m.1, withoutProto m.2) :=
        List.mem_map.mpr ⟨n, List.mem_filter.mpr ⟨hn, hproto⟩, rfl⟩
      rw [readProperty_of_mem hkept.1 hn', readProperty_of_mem h.1 hn, ih n hn (h.2 n hn)]

/-- **Two payloads sort to values that are the same up to key order exactly when they differ in
nothing but key order and `__proto__` members.** -/
theorem same_sortKeysDeep_iff {a b : Json} (ha : a.UniqueKeys) (hb : b.UniqueKeys) :
    SameUpToKeyOrder (sortKeysDeep a) (sortKeysDeep b)
      ↔ SameUpToKeyOrder (withoutProto a) (withoutProto b) := by
  have hsa := same_sortKeysDeep ha
  have hsb := same_sortKeysDeep hb
  have hsa' := same_symm (uniqueKeys_withoutProto ha) hsa
  have hsb' := same_symm (uniqueKeys_withoutProto hb) hsb
  exact ⟨fun h => same_trans hsa (same_trans h hsb'), fun h => same_trans hsa' (same_trans h hsb)⟩

/-! ### The canonical string -/

/-- The members of `normalized`. -/
def normalizedMembers (envelope : SignedRequestEnvelope) : List (JsString × Json) :=
  [(js "agentFromId", .str envelope.agentFromId),
   (js "agentToId", .str envelope.agentToId),
   (js "sessionId", .str envelope.sessionId),
   (js "requestPayload", sortKeysDeep envelope.requestPayload.tree),
   (js "maxBudget", .num envelope.maxBudget)]
    ++ unlessUndefined (js "policyDigest") envelope.policyDigest
    ++ unlessUndefined (js "nonce") envelope.nonce

def canonicalizeSignedRequest (envelope : SignedRequestEnvelope) : JsString :=
  stringify (.obj (normalizedMembers envelope))

/-! One request in two envelopes. -/

/-- The two envelopes agree in every field but the payload. -/
structure SameFields (e e' : SignedRequestEnvelope) : Prop where
  agentFromId : e.agentFromId = e'.agentFromId
  agentToId : e.agentToId = e'.agentToId
  sessionId : e.sessionId = e'.sessionId
  maxBudget : e.maxBudget = e'.maxBudget
  policyDigest : e.policyDigest = e'.policyDigest
  nonce : e.nonce = e'.nonce

/-- Equal fields, and payloads equal up to the order of object keys. -/
def SameRequest (e e' : SignedRequestEnvelope) : Prop :=
  SameFields e e' ∧ SameUpToKeyOrder e.requestPayload.tree e'.requestPayload.tree

/-- Equal fields, and payloads that become equal up to key order, but only once the members named
`__proto__` are left out. -/
def DifferInProtoMembers (e e' : SignedRequestEnvelope) : Prop :=
  SameFields e e'
    ∧ SameUpToKeyOrder (withoutProto e.requestPayload.tree) (withoutProto e'.requestPayload.tree)
    ∧ ¬ SameUpToKeyOrder e.requestPayload.tree e'.requestPayload.tree

theorem nodup_keys_normalizedMembers (e : SignedRequestEnvelope) :
    ((normalizedMembers e).map Prod.fst).Nodup := by
  obtain ⟨_, _, _, _, _, policyDigest, nonce⟩ := e
  cases policyDigest <;> cases nonce <;>
    simp only [normalizedMembers, unlessUndefined, List.map_cons, List.map_append, List.map_nil] <;>
    decide

theorem uniqueKeys_normalizedMembers (e : SignedRequestEnvelope) :
    (Json.obj (normalizedMembers e)).UniqueKeys := by
  rw [uniqueKeys_obj]
  refine ⟨nodup_keys_normalizedMembers e, fun m hm => ?_⟩
  rcases List.mem_append.mp hm with hm | hm
  · rcases List.mem_append.mp hm with hm | hm
    · simp only [List.mem_cons, List.not_mem_nil, or_false] at hm
      rcases hm with rfl | rfl | rfl | rfl | rfl
      · trivial
      · trivial
      · trivial
      · exact uniqueKeys_sortKeysDeep e.requestPayload.unique
      · trivial
    · exact uniqueKeys_unlessUndefined m hm
  · exact uniqueKeys_unlessUndefined m hm

/-- What an optional field contributes to a lookup of its key. -/
def optionalText : Optional JsString → Option Json
  | .undefined => none
  | .null => some .null
  | .value s => some (.str s)

theorem optionalText_inj {a b : Optional JsString}
    (h : Option.Rel SameUpToKeyOrder (optionalText a) (optionalText b)) : a = b := by
  cases a <;> cases b <;> simp_all [optionalText, SameUpToKeyOrder]

theorem lookup_policyDigest (e : SignedRequestEnvelope) :
    (normalizedMembers e).lookup (js "policyDigest") = optionalText e.policyDigest := by
  obtain ⟨_, _, _, _, _, policyDigest, nonce⟩ := e
  cases policyDigest <;> cases nonce <;> rfl

theorem lookup_nonce (e : SignedRequestEnvelope) :
    (normalizedMembers e).lookup (js "nonce") = optionalText e.nonce := by
  obtain ⟨_, _, _, _, _, policyDigest, nonce⟩ := e
  cases policyDigest <;> cases nonce <;> rfl

/-- Normalized objects that are the same up to key order come from envelopes with equal fields. -/
theorem same_normalizedMembers {e e' : SignedRequestEnvelope}
    (h : SameUpToKeyOrder (.obj (normalizedMembers e)) (.obj (normalizedMembers e'))) :
    SameFields e e' ∧ SameUpToKeyOrder (sortKeysDeep e.requestPayload.tree)
      (sortKeysDeep e'.requestPayload.tree) := by
  have hlookup := same_lookup (nodup_keys_normalizedMembers e) (nodup_keys_normalizedMembers e') h
  have hread : ∀ key v v', (normalizedMembers e).lookup key = some v →
      (normalizedMembers e').lookup key = some v' → SameUpToKeyOrder v v' := by
    intro key v v' hv hv'
    have hrel := hlookup key
    rw [hv, hv'] at hrel
    cases hrel with
    | some hsame => exact hsame
  have hdigest := hlookup (js "policyDigest")
  rw [lookup_policyDigest, lookup_policyDigest] at hdigest
  have hnonce := hlookup (js "nonce")
  rw [lookup_nonce, lookup_nonce] at hnonce
  exact ⟨{ agentFromId := hread (js "agentFromId") _ _ rfl rfl
           agentToId := hread (js "agentToId") _ _ rfl rfl
           sessionId := hread (js "sessionId") _ _ rfl rfl
           maxBudget := hread (js "maxBudget") _ _ rfl rfl
           policyDigest := optionalText_inj hdigest
           nonce := optionalText_inj hnonce },
    hread (js "requestPayload") _ _ rfl rfl⟩

theorem canonicalizeSignedRequest_congr {e e' : SignedRequestEnvelope} (hfields : SameFields e e')
    (hsort : sortKeysDeep e.requestPayload.tree = sortKeysDeep e'.requestPayload.tree) :
    canonicalizeSignedRequest e = canonicalizeSignedRequest e' := by
  rw [canonicalizeSignedRequest, canonicalizeSignedRequest, normalizedMembers,
    normalizedMembers, hfields.agentFromId, hfields.agentToId, hfields.sessionId,
    hfields.maxBudget, hfields.policyDigest, hfields.nonce, hsort]

/-- **What a canonical string identifies:** the fields, and the payload up to key order and
`__proto__` members. -/
theorem canonicalizeSignedRequest_eq_iff (e e' : SignedRequestEnvelope) :
    canonicalizeSignedRequest e = canonicalizeSignedRequest e' ↔ SameFields e e'
      ∧ SameUpToKeyOrder (withoutProto e.requestPayload.tree)
          (withoutProto e'.requestPayload.tree) := by
  have hu := e.requestPayload.unique
  have hu' := e'.requestPayload.unique
  constructor
  · intro h
    obtain ⟨hfields, hpayload⟩ :=
      same_normalizedMembers (same_of_stringify_eq (uniqueKeys_normalizedMembers e') h)
    exact ⟨hfields, (same_sortKeysDeep_iff hu hu').mp hpayload⟩
  · rintro ⟨hfields, hpayload⟩
    have hsort := sortKeysDeep_eq_of_same (uniqueKeys_withoutProto hu)
      (uniqueKeys_withoutProto hu') hpayload
    rw [sortKeysDeep_withoutProto hu, sortKeysDeep_withoutProto hu'] at hsort
    exact canonicalizeSignedRequest_congr hfields hsort

/-- The pairs whose canonical strings identify one request are all but those that differ in
`__proto__` members. -/
theorem canonical_identifies_iff (e e' : SignedRequestEnvelope) :
    (canonicalizeSignedRequest e = canonicalizeSignedRequest e' → SameRequest e e')
      ↔ ¬ DifferInProtoMembers e e' := by
  rw [canonicalizeSignedRequest_eq_iff, SameRequest, DifferInProtoMembers]
  tauto

/-! ### The hash -/

/-- The lower-case hexadecimal text of a digest. -/
def hexText (digest : List UInt8) : JsString :=
  digest.flatMap fun byte => [hexDigit (byte.toNat / 16), hexDigit (byte.toNat % 16)]

theorem hexText_inj {d d' : List UInt8} (h : hexText d = hexText d') : d = d' := by
  induction d generalizing d' with
  | nil =>
      cases d' with
      | nil => rfl
      | cons b d' => cases h
  | cons a d ih =>
      cases d' with
      | nil => cases h
      | cons b d' =>
          simp only [hexText, List.flatMap_cons, List.cons_append, List.nil_append,
            List.cons.injEq] at h
          obtain ⟨hhigh, hlow, hrest⟩ := h
          have ha := a.toNat_lt
          have hb := b.toNat_lt
          have hhigh' := congrArg hexValue hhigh
          have hlow' := congrArg hexValue hlow
          rw [hexValue_hexDigit (by omega), hexValue_hexDigit (by omega)] at hhigh' hlow'
          have hbyte : a = b := UInt8.toNat_inj.mp (by omega)
          rw [hbyte, ih hrest]

/-- What the text of a digest is made of. -/
theorem eq_hexDigit_of_mem {digest : List UInt8} {u : CodeUnit} (h : u ∈ hexText digest) :
    ∃ n : Fin 16, u = hexDigit n.val := by
  obtain ⟨byte, -, hu⟩ := List.mem_flatMap.mp h
  have hbyte := byte.toNat_lt
  simp only [List.mem_cons, List.not_mem_nil, or_false] at hu
  rcases hu with rfl | rfl
  · exact ⟨⟨byte.toNat / 16, by omega⟩, rfl⟩
  · exact ⟨⟨byte.toNat % 16, by omega⟩, rfl⟩

/-- The units of such a text are digits and the letters from `a` to `f`. -/
theorem toNat_of_mem_hexText {digest : List UInt8} {u : CodeUnit} (h : u ∈ hexText digest) :
    (48 ≤ u.toNat ∧ u.toNat ≤ 57) ∨ (97 ≤ u.toNat ∧ u.toNat ≤ 102) := by
  have hall : ∀ n : Fin 16, (48 ≤ (hexDigit n.val).toNat ∧ (hexDigit n.val).toNat ≤ 57)
      ∨ (97 ≤ (hexDigit n.val).toNat ∧ (hexDigit n.val).toNat ≤ 102) := by decide
  obtain ⟨n, rfl⟩ := eq_hexDigit_of_mem h
  exact hall n

section Hash

variable (sha256 : ByteArray → List UInt8)

def hashCanonicalRequest (envelope : SignedRequestEnvelope) : JsString :=
  hexText (sha256 (utf8Encode (canonicalizeSignedRequest envelope)))

/-- With an injective digest the hash identifies what the canonical string does. -/
theorem hashCanonicalRequest_eq_iff (hinj : Function.Injective sha256)
    (e e' : SignedRequestEnvelope) :
    hashCanonicalRequest sha256 e = hashCanonicalRequest sha256 e'
      ↔ canonicalizeSignedRequest e = canonicalizeSignedRequest e' := by
  constructor
  · intro h
    exact utf8Encode_inj (wellFormed_stringify _) (wellFormed_stringify _)
      (hinj (hexText_inj h))
  · intro h
    rw [hashCanonicalRequest, hashCanonicalRequest, h]

/-- **Collisions of canonical strings and of their hashes.**  Two envelopes share their string, or
their hash, without being one request exactly when they differ in `__proto__` members only. -/
theorem canonical_request_identified_iff (hinj : Function.Injective sha256)
    (e e' : SignedRequestEnvelope) :
    ((canonicalizeSignedRequest e = canonicalizeSignedRequest e' → SameRequest e e')
        ↔ ¬ DifferInProtoMembers e e')
      ∧ ((hashCanonicalRequest sha256 e = hashCanonicalRequest sha256 e' → SameRequest e e')
        ↔ ¬ DifferInProtoMembers e e') := by
  rw [hashCanonicalRequest_eq_iff sha256 hinj]
  exact ⟨canonical_identifies_iff e e', canonical_identifies_iff e e'⟩

end Hash

/-- A digest with the given values, and elsewhere the text itself behind more zeros than a digest
has bytes. -/
def recordedDigest (values : List (List UInt8 × List UInt8)) (bytes : ByteArray) : List UInt8 :=
  (values.lookup bytes.data.toList).getD (List.replicate 33 0 ++ bytes.data.toList)

theorem mem_of_lookup {values : List (List UInt8 × List UInt8)} {text digest : List UInt8}
    (h : values.lookup text = some digest) : (text, digest) ∈ values := by
  obtain ⟨before, after, rfl, -⟩ := List.lookup_eq_some_iff.mp h
  exact List.mem_append_right before (List.mem_cons_self ..)

theorem recordedDigest_injective {values : List (List UInt8 × List UInt8)}
    (hnd : (values.map Prod.snd).Nodup) (hlen : ∀ v ∈ values, v.2.length ≤ 32) :
    Function.Injective (recordedDigest values) := by
  -- a recorded value is shorter than any other
  have hshort : ∀ {text digest rest}, values.lookup text = some digest →
      digest ≠ List.replicate 33 0 ++ rest := by
    rintro text digest rest hlookup rfl
    have hle := hlen _ (mem_of_lookup hlookup)
    rw [List.length_append, List.length_replicate] at hle
    omega
  intro a b h
  rw [recordedDigest, recordedDigest] at h
  refine ByteArray.ext (Array.toList_inj.mp ?_)
  cases ha : values.lookup a.data.toList with
  | none =>
      cases hb : values.lookup b.data.toList with
      | none =>
          rw [ha, hb] at h
          exact List.append_cancel_left h
      | some digest =>
          rw [ha, hb] at h
          exact absurd h.symm (hshort hb)
  | some digest =>
      cases hb : values.lookup b.data.toList with
      | none =>
          rw [ha, hb] at h
          exact absurd h (hshort ha)
      | some digest' =>
          rw [ha, hb] at h
          exact congrArg Prod.fst (List.inj_on_of_nodup_map hnd (mem_of_lookup ha)
            (mem_of_lookup hb) h)

theorem recordedDigest_of_mem {values : List (List UInt8 × List UInt8)}
    (hkeys : (values.map Prod.fst).Nodup) {bytes : ByteArray} {digest : List UInt8}
    (h : (bytes.data.toList, digest) ∈ values) : recordedDigest values bytes = digest := by
  obtain ⟨before, after, rfl⟩ := List.append_of_mem h
  have hfirst : ∀ v ∈ before, (bytes.data.toList != v.1) = true := by
    intro v hv
    rw [List.map_append, List.map_cons, List.nodup_middle, List.nodup_cons] at hkeys
    exact bne_iff_ne.mpr fun heq =>
      hkeys.1 (List.mem_append_left _ (List.mem_map.mpr ⟨v, hv, heq.symm⟩))
  rw [recordedDigest, List.lookup_eq_some_iff.mpr ⟨before, after, rfl, hfirst⟩]
  rfl

theorem recordedDigest_singleton (text digest : List UInt8) (bytes : ByteArray) :
    recordedDigest [(text, digest)] bytes
      = if bytes.data.toList = text then digest
        else List.replicate 33 0 ++ bytes.data.toList := by
  rw [recordedDigest, List.lookup_cons]
  by_cases htext : bytes.data.toList = text
  · rw [if_pos htext, beq_iff_eq.mpr htext]
    rfl
  · rw [if_neg htext, beq_false_of_ne htext]
    rfl

/-! The recorded fixture, and its payload with one more member. -/

def one : JsNumber := .ofNat 1

/-- `{ prompt: 'hello' }`. -/
def helloPayload : JsonValue := ⟨.obj [(js "prompt", .str (js "hello"))], by simp⟩

def minimalEnvelope : SignedRequestEnvelope where
  agentFromId := js "agent-a"
  agentToId := js "agent-b"
  sessionId := js "sess-001"
  requestPayload := helloPayload
  maxBudget := one
  policyDigest := .undefined
  nonce := .undefined

/-- The payload `{"prompt":"hello","__proto__":1}`. -/
def protoEnvelope : SignedRequestEnvelope :=
  { minimalEnvelope with
    requestPayload :=
      ⟨.obj [(js "prompt", .str (js "hello")), (protoKey, .num one)], by simp; decide⟩ }

/-- An injective digest with the recorded value at the fixture. -/
def fixtureSha256 (bytes : ByteArray) : List UInt8 :=
  if bytes.data.toList = (utf8Encode (canonicalizeSignedRequest minimalEnvelope)).data.toList then
    [0xcd, 0xe2, 0x7e, 0x22, 0xf6, 0xa9, 0x11, 0x4b, 0xc2, 0xef, 0xea, 0x29, 0xec, 0x1e, 0x21, 0x24,
     0x63, 0x18, 0x4b, 0x99, 0xf9, 0x44, 0x82, 0x8d, 0xca, 0xaa, 0x40, 0x25, 0x61, 0x7e, 0x7b, 0xd6]
  else List.replicate 33 0 ++ bytes.data.toList

theorem fixtureSha256_injective : Function.Injective fixtureSha256 := by
  have hrecorded : fixtureSha256 = recordedDigest [(_, _)] :=
    funext fun bytes => (recordedDigest_singleton _ _ bytes).symm
  rw [hrecorded]
  exact recordedDigest_injective (List.nodup_singleton _) (by simp)

theorem canonical_request_identified_fixture :
    hashCanonicalRequest fixtureSha256 minimalEnvelope
        = js "cde27e22f6a9114bc2efea29ec1e212463184b99f944828dcaaa4025617e7bd6"
      ∧ ((canonicalizeSignedRequest minimalEnvelope = canonicalizeSignedRequest protoEnvelope
          → SameRequest minimalEnvelope protoEnvelope)
        ↔ ¬ DifferInProtoMembers minimalEnvelope protoEnvelope) := by
  refine ⟨?_, (canonical_request_identified_iff fixtureSha256 fixtureSha256_injective _ _).1⟩
  rw [hashCanonicalRequest, fixtureSha256, if_pos rfl]
  decide +kernel

/-- The envelope with a `__proto__` member has the canonical string of the one without. -/
theorem canonical_string_collides :
    canonicalizeSignedRequest minimalEnvelope = canonicalizeSignedRequest protoEnvelope
      ∧ ¬ SameRequest minimalEnvelope protoEnvelope := by
  refine ⟨by decide +kernel, fun h => ?_⟩
  have hpayload := h.2
  rw [minimalEnvelope, protoEnvelope, helloPayload, same_obj] at hpayload
  exact absurd hpayload.1.length_eq (by simp)

/-! ### Key order -/

/-- **The canonical string does not depend on key order.** -/
theorem canonicalizeSignedRequest_eq_of_same {e e' : SignedRequestEnvelope}
    (h : SameRequest e e') : canonicalizeSignedRequest e = canonicalizeSignedRequest e' :=
  canonicalizeSignedRequest_congr h.1
    (sortKeysDeep_eq_of_same e.requestPayload.unique e'.requestPayload.unique h.2)

/-- `{"z":1,"10":{"b":true,"a":1},"9":[]}`. -/
def mixedKeys : JsonValue where
  tree := .obj [(js "z", .num one),
    (js "10", .obj [(js "b", .bool true), (js "a", .num one)]), (js "9", .arr [])]
  unique := by simp; decide

/-- `{"9":[],"z":1,"10":{"a":1,"b":true}}`. -/
def mixedKeys' : JsonValue where
  tree := .obj [(js "9", .arr []), (js "z", .num one),
    (js "10", .obj [(js "a", .num one), (js "b", .bool true)])]
  unique := by simp; decide

theorem same_mixedKeys : SameUpToKeyOrder mixedKeys.tree mixedKeys'.tree := by
  rw [mixedKeys, mixedKeys', same_obj]
  refine ⟨by decide, fun m hm => ?_⟩
  simp only [List.mem_cons, List.not_mem_nil, or_false] at hm
  rcases hm with rfl | rfl | rfl
  · exact ⟨_, by simp, same_refl _⟩
  · refine ⟨_, List.mem_cons_of_mem _ (List.mem_cons_of_mem _ (List.mem_singleton_self _)), ?_⟩
    refine (same_obj _ _).mpr ⟨by decide, fun n hn => ⟨n.2, ?_, same_refl _⟩⟩
    simpa [or_comm] using hn
  · exact ⟨_, by simp, same_refl _⟩

theorem canonicalizeSignedRequest_mixedKeys :
    canonicalizeSignedRequest { minimalEnvelope with requestPayload := mixedKeys }
      = canonicalizeSignedRequest { minimalEnvelope with requestPayload := mixedKeys' } :=
  canonicalizeSignedRequest_eq_of_same ⟨⟨rfl, rfl, rfl, rfl, rfl, rfl⟩, same_mixedKeys⟩

example : stringify (sortKeysDeep mixedKeys.tree) =
    js "\x7b\"9\":[],\"10\":\x7b\"a\":1,\"b\":true\x7d,\"z\":1\x7d" := by
  decide +kernel

end A2aAgentLayer.Crypto.RequestCanonicalization
