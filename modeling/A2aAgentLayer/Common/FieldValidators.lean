import A2aAgentLayer.Lib.JsObject

/-!
# Field validators

The patterns of the request DTOs, as tests on strings.  `DID_PATTERN`, `ETH_ADDRESS_PATTERN` and
`KECCAK256_PATTERN` are anchored at both ends and exclude every unit outside their classes.
`URL_PATTERN` is anchored at its start only: after the scheme it asks for one unit that `.` matches
and says nothing about the rest.
-/

namespace A2aAgentLayer.Common.FieldValidators

open A2aAgentLayer.Lib.Utf16 A2aAgentLayer.Lib.JsonTree A2aAgentLayer.Lib.JsObject

/-! ### Character classes -/

def isLower (u : CodeUnit) : Bool := unit 'a' ≤ u && u ≤ unit 'z'

def isUpper (u : CodeUnit) : Bool := unit 'A' ≤ u && u ≤ unit 'Z'

theorem isLower_iff {u : CodeUnit} : isLower u = true ↔ 97 ≤ u.toNat ∧ u.toNat ≤ 122 := by
  simp only [isLower, Bool.and_eq_true, decide_eq_true_eq, UInt16.le_iff_toNat_le]
  rfl

theorem isUpper_iff {u : CodeUnit} : isUpper u = true ↔ 65 ≤ u.toNat ∧ u.toNat ≤ 90 := by
  simp only [isUpper, Bool.and_eq_true, decide_eq_true_eq, UInt16.le_iff_toNat_le]
  rfl

theorem toNat_add_of_isUpper {u : CodeUnit} (h : isUpper u = true) :
    (u + 32).toNat = u.toNat + 32 := by
  have hrange := isUpper_iff.mp h
  rw [UInt16.toNat_add]
  show (u.toNat + 32) % 65536 = _
  omega

def isHexUnit (u : CodeUnit) : Bool :=
  isDigitUnit u || (unit 'a' ≤ u && u ≤ unit 'f') || (unit 'A' ≤ u && u ≤ unit 'F')

/-- `[a-z0-9]`. -/
def isMethodUnit (u : CodeUnit) : Bool := isLower u || isDigitUnit u

/-- `[a-zA-Z0-9._%-]`. -/
def isDidUnit (u : CodeUnit) : Bool :=
  isLower u || isUpper u || isDigitUnit u || (js "._%-").contains u

/-! ### Patterns -/

/-- What follows a prefix. -/
def afterPrefix (lead s : JsString) : Option JsString :=
  if s.take lead.length = lead then some (s.drop lead.length) else none

theorem afterPrefix_eq_some {lead s rest : JsString} :
    afterPrefix lead s = some rest ↔ s = lead ++ rest := by
  rw [afterPrefix]
  constructor
  · intro h
    split_ifs at h with hlead
    have hsplit := List.take_append_drop lead.length s
    rw [hlead, Option.some.inj h] at hsplit
    exact hsplit.symm
  · rintro rfl
    simp

/-- `/^did:[a-z0-9]+:[a-zA-Z0-9._%-]+$/`. -/
def isDid (s : JsString) : Bool :=
  match afterPrefix (js "did:") s with
  | none => false
  | some rest =>
      match rest.dropWhile isMethodUnit with
      | [] => false
      | u :: id => !(rest.takeWhile isMethodUnit).isEmpty && u == unit ':' && !id.isEmpty
          && id.all isDidUnit

/-- `/^0x[a-fA-F0-9]{40}$/`. -/
def isEthAddress (s : JsString) : Bool :=
  match afterPrefix (js "0x") s with
  | none => false
  | some rest => rest.length == 40 && rest.all isHexUnit

/-- `/^(0x)?[a-fA-F0-9]{64}$/`. -/
def isKeccak256Hash (s : JsString) : Bool :=
  let rest := (afterPrefix (js "0x") s).getD s
  rest.length == 64 && rest.all isHexUnit

/-- A unit that `.` matches comes first. -/
def startsWithDot : JsString → Bool
  | [] => false
  | u :: _ => !isLineTerminator u

/-- `/^https?:\/\/.+/`. -/
def isHttpUrl (s : JsString) : Bool :=
  ((afterPrefix (js "http://") s).map startsWithDot).getD false
    || ((afterPrefix (js "https://") s).map startsWithDot).getD false

/-- `@IsNotEmpty()` on a string. -/
def isNotEmpty (s : JsString) : Bool := !s.isEmpty

/-- `@IsOptional()` in front of a test: absent and `null` pass. -/
def optionally (test : JsString → Bool) : Optional JsString → Bool
  | .undefined => true
  | .null => true
  | .value s => test s

/-! ### What the patterns exclude -/

theorem isDid_units {s : JsString} (h : isDid s = true) :
    ∀ u ∈ s, isDidUnit u = true ∨ u = unit ':' := by
  rw [isDid] at h
  split at h
  · cases h
  next rest hrest =>
    obtain rfl := afterPrefix_eq_some.mp hrest
    split at h
    · cases h
    next v id hid =>
      simp only [Bool.and_eq_true, beq_iff_eq, List.all_eq_true] at h
      obtain ⟨⟨⟨-, rfl⟩, -⟩, hall⟩ := h
      intro u hu
      rcases List.mem_append.mp hu with hu | hu
      · have hlead : ((js "did:").all fun u => isDidUnit u || u == unit ':') = true := by decide
        simpa using List.all_eq_true.mp hlead u hu
      · rw [← List.takeWhile_append_dropWhile (p := isMethodUnit) (l := rest), hid] at hu
        rcases List.mem_append.mp hu with hu | hu
        · have hmethod := List.mem_takeWhile_imp hu
          rw [isMethodUnit, Bool.or_eq_true] at hmethod
          refine .inl ?_
          rw [isDidUnit]
          rcases hmethod with hmethod | hmethod <;> simp [hmethod]
        · rcases List.mem_cons.mp hu with rfl | hu
          · exact .inr rfl
          · exact .inl (hall u hu)

/-- A DID ends in a third part, and its first two parts are set off by the only two colons. -/
theorem isDid_parts {s : JsString} (h : isDid s = true) :
    ∃ method id, s = js "did:" ++ (method ++ unit ':' :: id)
      ∧ unit ':' ∉ method ∧ unit ':' ∉ id := by
  rw [isDid] at h
  split at h
  · cases h
  next rest hrest =>
    obtain rfl := afterPrefix_eq_some.mp hrest
    split at h
    · cases h
    next v id hid =>
      simp only [Bool.and_eq_true, beq_iff_eq, List.all_eq_true] at h
      obtain ⟨⟨⟨-, rfl⟩, -⟩, hall⟩ := h
      refine ⟨rest.takeWhile isMethodUnit, id, ?_, ?_, ?_⟩
      · rw [← hid, List.takeWhile_append_dropWhile]
      · exact fun hmem => absurd (List.mem_takeWhile_imp hmem) (by decide)
      · exact fun hmem => absurd (hall _ hmem) (by decide)

theorem isDid_newline {s : JsString} (h : isDid s = true) : unit '\n' ∉ s := fun hmem =>
  absurd (isDid_units h _ hmem) (by decide)

theorem isEthAddress_newline {s : JsString} (h : isEthAddress s = true) : unit '\n' ∉ s := by
  rw [isEthAddress] at h
  split at h
  · cases h
  next rest hrest =>
    obtain rfl := afterPrefix_eq_some.mp hrest
    rw [Bool.and_eq_true, List.all_eq_true] at h
    intro hmem
    rcases List.mem_append.mp hmem with hmem | hmem
    · exact absurd hmem (by decide)
    · exact absurd (h.2 _ hmem) (by decide)

theorem startsWithDot_iff {s : JsString} :
    startsWithDot s = true ↔ ∃ u rest, s = u :: rest ∧ isLineTerminator u = false := by
  cases s with
  | nil => simp [startsWithDot]
  | cons u rest => simp [startsWithDot]

theorem isHttpUrl_iff {s : JsString} :
    isHttpUrl s = true ↔ ∃ lead ∈ [js "http://", js "https://"], ∃ u rest,
      s = lead ++ u :: rest ∧ isLineTerminator u = false := by
  have hlead : ∀ lead, ((afterPrefix lead s).map startsWithDot).getD false = true ↔
      ∃ u rest, s = lead ++ u :: rest ∧ isLineTerminator u = false := by
    intro lead
    cases h : afterPrefix lead s with
    | none =>
        refine ⟨nofun, fun ⟨u, rest, hs, _⟩ => ?_⟩
        rw [afterPrefix_eq_some.mpr hs] at h
        cases h
    | some tail =>
        obtain rfl := afterPrefix_eq_some.mp h
        simp only [Option.map_some, Option.getD_some, startsWithDot_iff, List.append_cancel_left_eq]
  rw [isHttpUrl, Bool.or_eq_true, hlead, hlead]
  simp only [List.mem_cons, List.not_mem_nil, or_false, exists_eq_or_imp, exists_eq_left]

/-- `.+` reads up to the end of the line and no further. -/
theorem isHttpUrl_append_terminator {s rest : JsString} {d : CodeUnit}
    (hd : isLineTerminator d = true) : isHttpUrl (s ++ d :: rest) = isHttpUrl s := by
  rw [Bool.eq_iff_iff, isHttpUrl_iff, isHttpUrl_iff]
  constructor
  · rintro ⟨lead, hlead, u, tail, heq, hu⟩
    refine ⟨lead, hlead, u, ?_⟩
    rcases List.append_eq_append_iff.mp heq with ⟨a, rfl, ha⟩ | ⟨a, rfl, ha⟩
    · -- the terminator would belong to the scheme, or be the unit `.` matches
      cases a with
      | nil =>
          obtain ⟨rfl, -⟩ := List.cons.inj ha
          rw [hd] at hu
          cases hu
      | cons b a =>
          obtain ⟨rfl, -⟩ := List.cons.inj ha
          have hnone : ([js "http://", js "https://"].all fun lead =>
              lead.all fun v => !isLineTerminator v) = true := by decide
          have hd' := List.all_eq_true.mp (List.all_eq_true.mp hnone _ hlead) d (by simp)
          rw [hd] at hd'
          cases hd'
    · cases a with
      | nil =>
          obtain ⟨rfl, -⟩ := List.cons.inj ha
          rw [hd] at hu
          cases hu
      | cons b a =>
          obtain ⟨rfl, -⟩ := List.cons.inj ha
          exact ⟨a, rfl, hu⟩
  · rintro ⟨lead, hlead, u, tail, rfl, hu⟩
    exact ⟨lead, hlead, u, tail ++ d :: rest, by simp, hu⟩

end A2aAgentLayer.Common.FieldValidators
