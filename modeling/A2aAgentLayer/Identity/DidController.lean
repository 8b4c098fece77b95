import A2aAgentLayer.Common.FieldValidators
import A2aAgentLayer.Lib.Delimiter

/-!
# Proof of control over a DID

An owner signs the registration message, which puts the four fields of a claim on labelled lines.
The validators keep line breaks out of the DID and the owner, but not out of the public key and the
endpoint.  A public key or an endpoint that contains the label line of the endpoint lets the same
message be read as another claim.
-/

namespace A2aAgentLayer.Identity.DidController

open A2aAgentLayer.Lib.Utf16 A2aAgentLayer.Lib.Delimiter
open A2aAgentLayer.Common.FieldValidators

structure RegistrationClaim where
  agentDid : JsString
  owner : JsString
  publicKey : JsString
  endpoint : JsString
  deriving DecidableEq

def lowerUnit (u : CodeUnit) : CodeUnit := if isUpper u then u + 32 else u

/-- `toLowerCase` on the ASCII text of an address. -/
def toLowerCase (s : JsString) : JsString := s.map lowerUnit

/-- Canonical message an owner signs to prove it controls a DID. -/
def buildRegistrationMessage (claim : RegistrationClaim) : JsString :=
  List.intercalate [unit '\n']
    [ js "PROM agent registration",
      js "did: " ++ claim.agentDid,
      js "owner: " ++ toLowerCase claim.owner,
      js "publicKey: " ++ claim.publicKey,
      js "endpoint: " ++ claim.endpoint ]

/-- `recover` is `ethers.verifyMessage`; `none` stands for a signature on which it throws. -/
def verifyDidController (recover : JsString → JsString → Option JsString)
    (claim : RegistrationClaim) (signature : JsString) : Bool :=
  match recover (buildRegistrationMessage claim) signature with
  | none => false
  | some recovered => toLowerCase recovered == toLowerCase claim.owner

/-- The validators of `RegisterAgentDto` on the claim. -/
def RegistrationClaim.valid (claim : RegistrationClaim) : Bool :=
  isDid claim.agentDid && isEthAddress claim.owner && isNotEmpty claim.publicKey
    && isHttpUrl claim.endpoint

/-! ### Reading the message back -/

theorem lowerUnit_newline {u : CodeUnit} (h : lowerUnit u = unit '\n') : u = unit '\n' := by
  rw [lowerUnit] at h
  split_ifs at h with hupper
  · have hnat := congrArg UInt16.toNat h
    rw [toNat_add_of_isUpper hupper, show (unit '\n').toNat = 10 from rfl] at hnat
    omega
  · exact h

theorem lowerUnit_idem (u : CodeUnit) : lowerUnit (lowerUnit u) = lowerUnit u := by
  by_cases hupper : isUpper u = true
  · have hlow : isUpper (u + 32) = false := by
      have hrange := isUpper_iff.mp hupper
      rw [← Bool.not_eq_true, isUpper_iff, toNat_add_of_isUpper hupper]
      omega
    rw [lowerUnit, lowerUnit, if_pos hupper, hlow, if_neg Bool.false_ne_true]
  · rw [lowerUnit, lowerUnit, if_neg hupper, if_neg hupper]

theorem toLowerCase_idem (s : JsString) : toLowerCase (toLowerCase s) = toLowerCase s := by
  rw [toLowerCase, toLowerCase, List.map_map]
  exact List.map_congr_left fun u _ => lowerUnit_idem u

theorem toLowerCase_newline {s : JsString} (h : unit '\n' ∉ s) : unit '\n' ∉ toLowerCase s := by
  intro hmem
  obtain ⟨u, hu, heq⟩ := List.mem_map.mp hmem
  exact h (lowerUnit_newline heq ▸ hu)

/-- The line break in front of the endpoint, and its label. -/
def endpointLabel : JsString := unit '\n' :: js "endpoint: "

theorem buildRegistrationMessage_eq (claim : RegistrationClaim) :
    buildRegistrationMessage claim = js "PROM agent registration\ndid: " ++ (claim.agentDid
      ++ unit '\n' :: (js "owner: " ++ (toLowerCase claim.owner
        ++ unit '\n' :: (js "publicKey: "
          ++ (claim.publicKey ++ (endpointLabel ++ claim.endpoint)))))) := by
  simp [buildRegistrationMessage, endpointLabel, List.intercalate, js]

/-- **What the message says.**  Two valid claims have one message exactly if they agree on the DID,
on the owner up to case, and on the text of the last two fields with the label in between. -/
theorem buildRegistrationMessage_inj {c c' : RegistrationClaim} (hc : c.valid = true)
    (hc' : c'.valid = true) :
    buildRegistrationMessage c = buildRegistrationMessage c' ↔
      c.agentDid = c'.agentDid ∧ toLowerCase c.owner = toLowerCase c'.owner
        ∧ c.publicKey ++ (endpointLabel ++ c.endpoint)
          = c'.publicKey ++ (endpointLabel ++ c'.endpoint) := by
  simp only [RegistrationClaim.valid, Bool.and_eq_true] at hc hc'
  rw [buildRegistrationMessage_eq, buildRegistrationMessage_eq]
  constructor
  · intro h
    obtain ⟨hdid, h⟩ := append_cons_inj (isDid_newline hc.1.1.1) (isDid_newline hc'.1.1.1)
      (List.append_cancel_left h)
    obtain ⟨howner, h⟩ := append_cons_inj (toLowerCase_newline (isEthAddress_newline hc.1.1.2))
      (toLowerCase_newline (isEthAddress_newline hc'.1.1.2)) (List.append_cancel_left h)
    exact ⟨hdid, howner, List.append_cancel_left h⟩
  · rintro ⟨hdid, howner, htext⟩
    rw [hdid, howner, htext]

/-! ### Claims with the message of another claim -/

/-- The fields a registration stores, the owner up to letter case. -/
def SameFields (c c' : RegistrationClaim) : Prop :=
  c.agentDid = c'.agentDid ∧ toLowerCase c.owner = toLowerCase c'.owner
    ∧ c.publicKey = c'.publicKey ∧ c.endpoint = c'.endpoint

/-- The public key or the endpoint contains the label line of the endpoint, followed by a URL. -/
def Ambiguous (c : RegistrationClaim) : Prop :=
  (∃ key url, c.publicKey = key ++ (endpointLabel ++ url) ∧ key ≠ [] ∧ isHttpUrl url = true)
    ∨ ∃ front url, c.endpoint = front ++ (endpointLabel ++ url) ∧ isHttpUrl url = true

theorem isHttpUrl_endpointLabel (url endpoint : JsString) :
    isHttpUrl (url ++ (endpointLabel ++ endpoint)) = isHttpUrl url :=
  isHttpUrl_append_terminator (by decide)

theorem ne_append_endpointLabel (x y : JsString) : x ≠ x ++ (endpointLabel ++ y) := fun h =>
  absurd (List.self_eq_append_right.mp h) (by simp [endpointLabel])

theorem ambiguous_of_sameMessage {c c' : RegistrationClaim} (hc : c.valid = true)
    (hc' : c'.valid = true)
    (hmessage : buildRegistrationMessage c' = buildRegistrationMessage c)
    (hdiffer : ¬ SameFields c' c) : Ambiguous c := by
  obtain ⟨hdid, howner, htext⟩ := (buildRegistrationMessage_inj hc' hc).mp hmessage
  simp only [RegistrationClaim.valid, Bool.and_eq_true] at hc hc'
  rcases delimiter_splits (by decide : unit '\n' ∉ js "endpoint: ") htext with
    ⟨hkey, hendpoint⟩ | ⟨url, hkey, hendpoint⟩ | ⟨front, -, hendpoint⟩
  · exact absurd ⟨hdid, howner, hkey, hendpoint⟩ hdiffer
  · refine .inl ⟨c'.publicKey, url, hkey, ?_, ?_⟩
    · simpa [isNotEmpty] using hc'.1.2
    · rw [← isHttpUrl_endpointLabel url c.endpoint]
      exact hendpoint ▸ hc'.2
  · exact .inr ⟨front, c'.endpoint, hendpoint, hc'.2⟩

theorem sameMessage_of_ambiguous {c : RegistrationClaim} (hc : c.valid = true)
    (h : Ambiguous c) : ∃ c' : RegistrationClaim, c'.valid = true ∧ c'.owner = c.owner
      ∧ buildRegistrationMessage c' = buildRegistrationMessage c
      ∧ ¬ (c'.publicKey = c.publicKey ∧ c'.endpoint = c.endpoint) := by
  have hvalid := hc
  simp only [RegistrationClaim.valid, Bool.and_eq_true] at hvalid
  rcases h with ⟨key, url, hkey, hne, hurl⟩ | ⟨front, url, hendpoint, hurl⟩
  · have hc' : RegistrationClaim.valid
        { c with publicKey := key, endpoint := url ++ (endpointLabel ++ c.endpoint) } = true := by
      simp only [RegistrationClaim.valid, Bool.and_eq_true, isHttpUrl_endpointLabel]
      exact ⟨⟨hvalid.1.1, by simpa [isNotEmpty] using hne⟩, hurl⟩
    refine ⟨_, hc', rfl, (buildRegistrationMessage_inj hc' hc).mpr ⟨rfl, rfl, ?_⟩, fun h => ?_⟩
    · rw [hkey, List.append_assoc, List.append_assoc]
    · exact ne_append_endpointLabel key url (h.1.trans hkey)
  · have hc' : RegistrationClaim.valid
        { c with publicKey := c.publicKey ++ (endpointLabel ++ front), endpoint := url }
          = true := by
      simp only [RegistrationClaim.valid, Bool.and_eq_true]
      exact ⟨⟨hvalid.1.1, by simp [isNotEmpty, endpointLabel]⟩, hurl⟩
    refine ⟨_, hc', rfl, (buildRegistrationMessage_inj hc' hc).mpr ⟨rfl, rfl, ?_⟩, fun h => ?_⟩
    · rw [hendpoint, List.append_assoc, List.append_assoc]
    · exact ne_append_endpointLabel c.publicKey front h.1.symm

/-! ### The main result -/

/-- A signature recovers to one signer for one message only. -/
def SignsOneMessage (recover : JsString → JsString → Option JsString) : Prop :=
  ∀ message message' signature signer signer', recover message signature = some signer →
    recover message' signature = some signer' → toLowerCase signer = toLowerCase signer' →
      message = message'

theorem sameMessage_of_verified {recover : JsString → JsString → Option JsString}
    (hrecover : SignsOneMessage recover) {c c' : RegistrationClaim} {signature : JsString}
    (howner : toLowerCase c'.owner = toLowerCase c.owner)
    (h : verifyDidController recover c signature = true)
    (h' : verifyDidController recover c' signature = true) :
    buildRegistrationMessage c' = buildRegistrationMessage c := by
  rw [verifyDidController] at h h'
  split at h
  · cases h
  next signer hsigner =>
    split at h'
    · cases h'
    next signer' hsigner' =>
      rw [beq_iff_eq] at h h'
      exact hrecover _ _ signature signer' signer hsigner' hsigner
        (h'.trans (howner.trans h.symm))

/-- **What a registration signature binds.**  The message of a valid claim determines all four
fields exactly if neither the public key nor the endpoint contains the label line of the endpoint
followed by a URL; and on the same condition a signature accepted for the claim is accepted for no
other public key or endpoint of the owner. -/
theorem registration_binds_iff {recover : JsString → JsString → Option JsString}
    (hrecover : SignsOneMessage recover) {c : RegistrationClaim} (hc : c.valid = true) :
    ((∀ c' : RegistrationClaim, c'.valid = true →
        buildRegistrationMessage c' = buildRegistrationMessage c → SameFields c' c)
      ↔ ¬ Ambiguous c)
    ∧ ∀ signature, verifyDidController recover c signature = true →
      ((∀ c' : RegistrationClaim, c'.valid = true →
          toLowerCase c'.owner = toLowerCase c.owner →
          verifyDidController recover c' signature = true →
          c'.publicKey = c.publicKey ∧ c'.endpoint = c.endpoint)
        ↔ ¬ Ambiguous c) := by
  have hbinds : ¬ Ambiguous c → ∀ c' : RegistrationClaim, c'.valid = true →
      buildRegistrationMessage c' = buildRegistrationMessage c → SameFields c' c := by
    intro hclear c' hc' hmessage
    by_contra hdiffer
    exact hclear (ambiguous_of_sameMessage hc hc' hmessage hdiffer)
  refine ⟨⟨fun h hambiguous => ?_, hbinds⟩, fun signature hverified =>
    ⟨fun h hambiguous => ?_, fun hclear c' hc' howner hverified' => ?_⟩⟩
  · obtain ⟨c', hc', -, hmessage, hdiffer⟩ := sameMessage_of_ambiguous hc hambiguous
    exact hdiffer (h c' hc' hmessage).2.2
  · obtain ⟨c', hc', howner, hmessage, hdiffer⟩ := sameMessage_of_ambiguous hc hambiguous
    refine hdiffer (h c' hc' (by rw [howner]) ?_)
    rw [verifyDidController, hmessage, howner]
    exact hverified
  · exact (hbinds hclear c' hc' (sameMessage_of_verified hrecover howner hverified hverified')).2.2

def sampleClaim : RegistrationClaim :=
  { agentDid := js "did:prom:agent-1"
    owner := js "0xf39Fd6e51aad88F6F4ce6aB8827279cffFb92266"
    publicKey := js "0xpublickey"
    endpoint := js "http://agent:8080" }

/-- What the owner's key makes of the registration message of `sampleClaim`. -/
def sampleSignature : JsString :=
  js "0x0bae336cb9ee99d190415ae77a8d9c95d946a6d62ae59b350b40213024aefada"
    ++ js "386e7556115d2abd5b5e945df5e85e525e29e19a7122b23d1d65c6768f31c3f31b"

/-- Recovery that knows one message and its signature. -/
def sampleRecover (message signature : JsString) : Option JsString :=
  if message = buildRegistrationMessage sampleClaim ∧ signature = sampleSignature then
    some sampleClaim.owner
  else none

theorem signsOneMessage_sampleRecover : SignsOneMessage sampleRecover := by
  intro message message' signature signer signer' h h' _
  rw [sampleRecover, Option.ite_none_right_eq_some] at h h'
  rw [h.1.1, h'.1.1]

theorem registration_binds_iff_sampleClaim :
    verifyDidController sampleRecover sampleClaim sampleSignature = true
      ∧ ((∀ c' : RegistrationClaim, c'.valid = true →
          toLowerCase c'.owner = toLowerCase sampleClaim.owner →
          verifyDidController sampleRecover c' sampleSignature = true →
          c'.publicKey = sampleClaim.publicKey ∧ c'.endpoint = sampleClaim.endpoint)
        ↔ ¬ Ambiguous sampleClaim) := by
  have hverified : verifyDidController sampleRecover sampleClaim sampleSignature = true := by
    rw [verifyDidController, sampleRecover, if_pos ⟨rfl, rfl⟩]
    exact beq_self_eq_true _
  exact ⟨hverified,
    (registration_binds_iff signsOneMessage_sampleRecover (by decide)).2 _ hverified⟩

/-- A public key of two lines, the second labelled as an endpoint. -/
def twoLineKey : RegistrationClaim :=
  { sampleClaim with
    publicKey := js "0xpublickey\nendpoint: http://agent:8080"
    endpoint := js "http://attacker:8080" }

/-- The same lines, cut in front of the first label. -/
def twoLineEndpoint : RegistrationClaim :=
  { sampleClaim with endpoint := js "http://agent:8080\nendpoint: http://attacker:8080" }

/-- Two valid claims with different public keys and endpoints share their message, so that every
signature is accepted for both or for neither. -/
theorem registrationMessage_spliced :
    twoLineKey.valid = true ∧ twoLineEndpoint.valid = true
      ∧ buildRegistrationMessage twoLineKey = buildRegistrationMessage twoLineEndpoint
      ∧ twoLineKey.publicKey ≠ twoLineEndpoint.publicKey
      ∧ twoLineKey.endpoint ≠ twoLineEndpoint.endpoint
      ∧ ∀ recover signature, verifyDidController recover twoLineKey signature
        = verifyDidController recover twoLineEndpoint signature := by
  have hmessage :
      buildRegistrationMessage twoLineKey = buildRegistrationMessage twoLineEndpoint := by
    decide +kernel
  refine ⟨by decide, by decide, hmessage, by decide, by decide, fun recover signature => ?_⟩
  rw [verifyDidController, verifyDidController, hmessage]
  rfl

end A2aAgentLayer.Identity.DidController
