import A2aAgentLayer.Lib.Utf16

/-!
# Request headers

The headers of a request as the HTTP server hands them on.  Header values are decoded byte by byte,
so every unit of one is below 256; a header that may be repeated arrives as an array.
-/

namespace A2aAgentLayer.Common.RequestHeaders

open A2aAgentLayer.Lib.Utf16

/-- The text of a header value. -/
structure HeaderText where
  text : JsString
  latin1 : ∀ u ∈ text, u.toNat < 256
  deriving DecidableEq

inductive HeaderValue where
  | one (value : HeaderText)
  | many (values : List HeaderText)
  deriving DecidableEq

/-- `headers[name]`. -/
abbrev Headers := JsString → Option HeaderValue

/-- `Array.isArray(value) ? value[0] : value`. -/
def firstValue : Option HeaderValue → Option HeaderText
  | none => none
  | some (.one value) => some value
  | some (.many values) => values.head?

/-- A header that counts as present in a condition: an array does, an empty string does not. -/
def truthy : Option HeaderValue → Bool
  | none => false
  | some (.one value) => !value.text.isEmpty
  | some (.many _) => true

/-- Header texts have no surrogates. -/
theorem HeaderText.noSurrogate (value : HeaderText) :
    ∀ u ∈ value.text, isHighSurrogate u = false ∧ isLowSurrogate u = false := by
  intro u hu
  have hlt := value.latin1 u hu
  constructor
  · refine Bool.eq_false_iff.mpr fun h => ?_
    have := (isHighSurrogate_iff.mp h).1
    omega
  · refine Bool.eq_false_iff.mpr fun h => ?_
    have := (isLowSurrogate_iff.mp h).1
    omega

theorem HeaderText.wellFormed_text (value : HeaderText) : wellFormed value.text = true :=
  wellFormed_of_forall value.noSurrogate

end A2aAgentLayer.Common.RequestHeaders
