import A2aAgentLayer.Lib.Utf16

/-!
# Percent-decoding

`decodeURIComponent`.  A text is first read into pieces, units that stand for themselves and octets
`%XX`; then the octets are put together to UTF-8 sequences.  An octet that is malformed, overlong, a
surrogate or out of range makes the whole text undecodable.
-/

namespace A2aAgentLayer.Lib.PercentDecoding

open A2aAgentLayer.Lib.Utf16

/-- The value of a hexadecimal digit in either case. -/
def hexDigitValue (u : CodeUnit) : Option ℕ :=
  if isDigitUnit u then some (u.toNat - 48)
  else if unit 'a' ≤ u ∧ u ≤ unit 'f' then some (u.toNat - 87)
  else if unit 'A' ≤ u ∧ u ≤ unit 'F' then some (u.toNat - 55)
  else none

theorem toNat_of_hexDigitValue {u : CodeUnit} {n : ℕ} (h : hexDigitValue u = some n) :
    48 ≤ u.toNat ∧ u.toNat ≤ 102 := by
  have hlower : (unit 'a').toNat = 97 ∧ (unit 'f').toNat = 102 := by decide
  have hupper : (unit 'A').toNat = 65 ∧ (unit 'F').toNat = 70 := by decide
  simp only [hexDigitValue, isDigitUnit_iff, UInt16.le_iff_toNat_le, hlower.1, hlower.2, hupper.1,
    hupper.2] at h
  split_ifs at h
  · omega
  · omega
  · omega

def octetValue (high low : CodeUnit) : Option ℕ := do
  let high ← hexDigitValue high
  let low ← hexDigitValue low
  return high * 16 + low

inductive Piece where
  | literal (u : CodeUnit)
  | octet (byte : ℕ)
  deriving DecidableEq

def pieces : JsString → Option (List Piece)
  | [] => some []
  | [u] => if u = unit '%' then none else some [.literal u]
  | [u, v] => if u = unit '%' then none else (pieces [v]).map (.literal u :: ·)
  | u :: v :: w :: rest =>
      if u = unit '%' then
        (octetValue v w).bind fun byte => (pieces rest).map (.octet byte :: ·)
      else (pieces (v :: w :: rest)).map (.literal u :: ·)

/-! ### UTF-8 sequences -/

def isContinuation (byte : ℕ) : Bool := decide (0x80 ≤ byte ∧ byte ≤ 0xBF)

/-- The units of the character that a sequence of octets encodes. -/
def sequenceUnits : List ℕ → Option JsString
  | [b] => if b < 0x80 then some [UInt16.ofNat b] else none
  | [b, c] =>
      if 0xC2 ≤ b ∧ b ≤ 0xDF ∧ isContinuation c then
        some (unitsOf (Char.ofNat ((b - 0xC0) * 0x40 + (c - 0x80))))
      else none
  | [b, c, d] =>
      let value := (b - 0xE0) * 0x1000 + (c - 0x80) * 0x40 + (d - 0x80)
      if 0xE0 ≤ b ∧ b ≤ 0xEF ∧ isContinuation c ∧ isContinuation d ∧ 0x800 ≤ value
          ∧ ¬ (0xD800 ≤ value ∧ value ≤ 0xDFFF) then
        some (unitsOf (Char.ofNat value))
      else none
  | [b, c, d, e] =>
      let value :=
        (b - 0xF0) * 0x40000 + (c - 0x80) * 0x1000 + (d - 0x80) * 0x40 + (e - 0x80)
      if 0xF0 ≤ b ∧ b ≤ 0xF7 ∧ isContinuation c ∧ isContinuation d ∧ isContinuation e
          ∧ 0x10000 ≤ value ∧ value ≤ 0x10FFFF then
        some (unitsOf (Char.ofNat value))
      else none
  | _ => none

/-- How many octets a sequence has, by its first. -/
def sequenceLength (byte : ℕ) : ℕ :=
  if byte < 0xC0 then 1 else if byte < 0xE0 then 2 else if byte < 0xF0 then 3 else 4

/-- The text of the pieces, when the octets `pending` have begun a sequence. -/
def assemble (pending : List ℕ) : List Piece → Option JsString
  | [] => if pending = [] then some [] else none
  | .literal u :: rest => if pending = [] then (assemble [] rest).map (u :: ·) else none
  | .octet byte :: rest =>
      let sequence := pending ++ [byte]
      if sequence.length = sequenceLength (sequence.headD byte) then
        (sequenceUnits sequence).bind fun units => (assemble [] rest).map (units ++ ·)
      else assemble sequence rest

/-- `decodeURIComponent`; `none` is its `URIError`. -/
def decodeURIComponent (text : JsString) : Option JsString := (pieces text).bind (assemble [])

example : decodeURIComponent (js "a%3B%c3%A9%F0%9F%98%80")
    = some [unit 'a', unit ';', 0xE9, 0xD83D, 0xDE00] := by decide +kernel

/-! ### Units that stand for themselves -/

theorem mem_of_literal_mem {pending : List ℕ} {ps : List Piece} {text : JsString} {u : CodeUnit}
    (h : assemble pending ps = some text) (hu : .literal u ∈ ps) : u ∈ text := by
  induction ps generalizing pending text with
  | nil => cases hu
  | cons piece rest ih =>
      cases piece with
      | literal v =>
          rw [assemble] at h
          split_ifs at h
          obtain ⟨tail, htail, rfl⟩ := Option.map_eq_some_iff.mp h
          rcases List.mem_cons.mp hu with heq | hrest
          · cases heq
            exact List.mem_cons_self ..
          · exact List.mem_cons_of_mem _ (ih htail hrest)
      | octet byte =>
          have hrest : .literal u ∈ rest := by simpa using hu
          simp only [assemble] at h
          split_ifs at h
          · obtain ⟨units, -, hmap⟩ := Option.bind_eq_some_iff.mp h
            obtain ⟨tail, htail, rfl⟩ := Option.map_eq_some_iff.mp hmap
            exact List.mem_append_right _ (ih htail hrest)
          · exact ih h hrest

theorem literal_mem_pieces {text : JsString} {ps : List Piece} {u : CodeUnit}
    (h : pieces text = some ps) (hu : u ∈ text) (hpercent : u ≠ unit '%')
    (hdigit : hexDigitValue u = none) : .literal u ∈ ps := by
  fun_induction pieces text generalizing ps with
  | case1 => cases hu
  | case2 => cases h
  | case3 v hv =>
      obtain rfl := Option.some.inj h
      rw [List.mem_singleton] at hu
      rw [hu]
      exact List.mem_singleton_self _
  | case4 => cases h
  | case5 v w hv ih =>
      obtain ⟨tail, htail, rfl⟩ := Option.map_eq_some_iff.mp h
      rcases List.mem_cons.mp hu with rfl | hu
      · exact List.mem_cons_self ..
      · exact List.mem_cons_of_mem _ (ih htail hu)
  | case6 v w rest ih =>
      obtain ⟨byte, hbyte, hmap⟩ := Option.bind_eq_some_iff.mp h
      obtain ⟨tail, htail, rfl⟩ := Option.map_eq_some_iff.mp hmap
      obtain ⟨high, hhigh, hlow⟩ := Option.bind_eq_some_iff.mp hbyte
      obtain ⟨low, hlow, -⟩ := Option.bind_eq_some_iff.mp hlow
      have hne : u ≠ v ∧ u ≠ w := by
        constructor
        · rintro rfl
          rw [hdigit] at hhigh
          cases hhigh
        · rintro rfl
          rw [hdigit] at hlow
          cases hlow
      simp only [List.mem_cons, hpercent, hne.1, hne.2, false_or] at hu
      exact List.mem_cons_of_mem _ (ih htail hu)
  | case7 v w x rest hv ih =>
      obtain ⟨tail, htail, rfl⟩ := Option.map_eq_some_iff.mp h
      rcases List.mem_cons.mp hu with rfl | hu
      · exact List.mem_cons_self ..
      · exact List.mem_cons_of_mem _ (ih htail hu)

/-- **What is neither a percent sign nor a hexadecimal digit stays in the decoded text.** -/
theorem mem_of_mem_encoded {encoded text : JsString} {u : CodeUnit}
    (h : decodeURIComponent encoded = some text) (hu : u ∈ encoded) (hpercent : u ≠ unit '%')
    (hdigit : hexDigitValue u = none) : u ∈ text := by
  obtain ⟨ps, hps, hassemble⟩ := Option.bind_eq_some_iff.mp h
  exact mem_of_literal_mem hassemble (literal_mem_pieces hps hu hpercent hdigit)

theorem pieces_of_noPercent {text : JsString} (h : unit '%' ∉ text) :
    pieces text = some (text.map .literal) := by
  fun_induction pieces text with
  | case1 => rfl
  | case2 => simp at h
  | case3 => rfl
  | case4 => simp at h
  | case5 v w hv ih =>
      rw [ih (fun hmem => h (List.mem_cons_of_mem _ hmem))]
      rfl
  | case6 => simp at h
  | case7 v w x rest hv ih =>
      rw [ih (fun hmem => h (List.mem_cons_of_mem _ hmem))]
      rfl

theorem assemble_literals (text : JsString) : assemble [] (text.map .literal) = some text := by
  induction text with
  | nil => rfl
  | cons u text ih =>
      rw [List.map_cons, assemble, if_pos rfl, ih]
      rfl

/-- A text without percent signs decodes to itself. -/
theorem decodeURIComponent_of_noPercent {text : JsString} (h : unit '%' ∉ text) :
    decodeURIComponent text = some text := by
  rw [decodeURIComponent, pieces_of_noPercent h]
  exact assemble_literals text

end A2aAgentLayer.Lib.PercentDecoding
