import A2aAgentLayer.Lib.JsonText
import A2aAgentLayer.Lib.PercentDecoding

/-!
# Hexadecimal texts

Bytes as two digits each, and the texts of UUIDs.  PostgreSQL prints a `uuid` in lower case with
four hyphens, and reads one from digits in either case, with or without a hyphen after every second
byte, with or without braces around them.
-/

namespace A2aAgentLayer.Lib.HexText

open A2aAgentLayer.Lib.Utf16 A2aAgentLayer.Lib.PercentDecoding
open A2aAgentLayer.Lib.JsonText (hexDigit)

theorem hexDigitValue_hexDigit {n : ℕ} (h : n < 16) : hexDigitValue (hexDigit n) = some n := by
  have hall : ∀ m : Fin 16, hexDigitValue (hexDigit m.val) = some m.val := by decide
  exact hall ⟨n, h⟩

theorem octetValue_hexDigit (byte : UInt8) :
    octetValue (hexDigit (byte.toNat / 16)) (hexDigit (byte.toNat % 16)) = some byte.toNat := by
  have hbyte := byte.toNat_lt
  rw [octetValue, hexDigitValue_hexDigit (by omega), hexDigitValue_hexDigit (by omega)]
  show some (byte.toNat / 16 * 16 + byte.toNat % 16) = some byte.toNat
  rw [Nat.div_add_mod']

@[ext]
structure Uuid where
  bytes : List UInt8
  length_bytes : bytes.length = 16

instance : DecidableEq Uuid := fun u v =>
  decidable_of_iff (u.bytes = v.bytes) Uuid.ext_iff.symm

/-- The digits of the bytes from byte `i` on. -/
def textFrom : ℕ → List UInt8 → JsString
  | _, [] => []
  | i, byte :: bytes =>
      hexDigit (byte.toNat / 16) :: hexDigit (byte.toNat % 16) ::
        ((if i = 3 ∨ i = 5 ∨ i = 7 ∨ i = 9 then [unit '-'] else []) ++ textFrom (i + 1) bytes)

def Uuid.text (u : Uuid) : JsString := textFrom 0 u.bytes

/-- Reads a number of bytes, of which the first is byte `i`; gives what follows them, too. -/
def bytesFrom : ℕ → ℕ → JsString → Option (List UInt8 × JsString)
  | _, 0, s => some ([], s)
  | i, left + 1, high :: low :: rest =>
      (octetValue high low).bind fun byte =>
        let rest := if rest.head? = some (unit '-') ∧ i % 2 = 1 ∧ i < 15 then rest.tail else rest
        (bytesFrom (i + 1) left rest).map fun read => (UInt8.ofNat byte :: read.1, read.2)
  | _, _ + 1, _ => none

theorem length_of_bytesFrom {i left : ℕ} {s rest : JsString} {bytes : List UInt8}
    (h : bytesFrom i left s = some (bytes, rest)) : bytes.length = left := by
  induction left generalizing i s bytes with
  | zero =>
      rw [bytesFrom] at h
      cases h
      rfl
  | succ left ih =>
      match s, h with
      | high :: low :: more, h =>
          rw [bytesFrom] at h
          obtain ⟨byte, -, h⟩ := Option.bind_eq_some_iff.mp h
          obtain ⟨read, hread, hpair⟩ := Option.map_eq_some_iff.mp h
          cases hpair
          rw [List.length_cons, ih hread]

/-- A text without braces, up to what has to follow it. -/
def ofDigits (tail : JsString) (s : JsString) : Option Uuid :=
  match h : bytesFrom 0 16 s with
  | some (bytes, rest) => if rest = tail then some ⟨bytes, length_of_bytesFrom h⟩ else none
  | none => none

/-- The UUID that a text stands for. -/
def ofText (s : JsString) : Option Uuid :=
  if s.head? = some (unit '\x7b') then ofDigits [unit '\x7d'] s.tail else ofDigits [] s

/-! ### Reading what was printed -/

/-- No digit is a hyphen or a brace. -/
theorem hexDigit_ne {n : ℕ} (h : n < 16) : hexDigit n ≠ unit '-' ∧ hexDigit n ≠ unit '\x7b' := by
  have hall : ∀ m : Fin 16, hexDigit m.val ≠ unit '-' ∧ hexDigit m.val ≠ unit '\x7b' := by decide
  exact hall ⟨n, h⟩

theorem head_textFrom_ne (i : ℕ) (bytes : List UInt8) :
    (textFrom i bytes).head? ≠ some (unit '-') ∧ (textFrom i bytes).head? ≠ some (unit '\x7b') := by
  cases bytes with
  | nil => exact ⟨nofun, nofun⟩
  | cons byte bytes =>
      have hbyte := byte.toNat_lt
      have hne := hexDigit_ne (n := byte.toNat / 16) (by omega)
      exact ⟨fun h => hne.1 (Option.some.inj h), fun h => hne.2 (Option.some.inj h)⟩

theorem bytesFrom_textFrom (bytes : List UInt8) (i : ℕ) (h : i + bytes.length = 16) :
    bytesFrom i bytes.length (textFrom i bytes) = some (bytes, []) := by
  induction bytes generalizing i with
  | nil => rfl
  | cons byte bytes ih =>
      have hlength : i + 1 + bytes.length = 16 := by rw [← h, List.length_cons]; omega
      have hhyphen : ∀ rest : JsString, rest.head? ≠ some (unit '-') →
          (let printed := (if i = 3 ∨ i = 5 ∨ i = 7 ∨ i = 9 then [unit '-'] else []) ++ rest
            if printed.head? = some (unit '-') ∧ i % 2 = 1 ∧ i < 15 then printed.tail
            else printed) = rest := by
        intro rest hrest
        by_cases hi : i = 3 ∨ i = 5 ∨ i = 7 ∨ i = 9
        · have hodd : i % 2 = 1 ∧ i < 15 := by omega
          rw [if_pos hi]
          exact if_pos ⟨rfl, hodd⟩
        · rw [if_neg hi]
          exact if_neg fun hboth => hrest hboth.1
      rw [List.length_cons, textFrom, bytesFrom, octetValue_hexDigit, Option.bind_some]
      show Option.map _ (bytesFrom (i + 1) bytes.length (if _ then _ else _)) = _
      rw [hhyphen _ (head_textFrom_ne (i + 1) bytes).1, ih (i + 1) hlength, Option.map_some,
        UInt8.ofNat_toNat]

/-- **A UUID is read back from its text.** -/
theorem ofText_text (u : Uuid) : ofText u.text = some u := by
  have hread : bytesFrom 0 16 u.text = some (u.bytes, []) := by
    have h := bytesFrom_textFrom u.bytes 0 (by rw [u.length_bytes])
    rwa [u.length_bytes] at h
  have hbrace : u.text.head? ≠ some (unit '\x7b') := (head_textFrom_ne 0 u.bytes).2
  rw [ofText, if_neg hbrace, ofDigits]
  split
  next bytes rest h =>
    rw [hread] at h
    cases h
    exact if_pos rfl
  next h =>
    rw [hread] at h
    cases h

theorem text_injective {u v : Uuid} (h : u.text = v.text) : u = v := by
  have hread := ofText_text u
  rw [h, ofText_text] at hread
  exact (Option.some.inj hread).symm

/-- A text that is printed for the UUID it stands for. -/
def Canonical (s : JsString) : Prop := ∃ u : Uuid, s = u.text

theorem canonical_iff {s : JsString} {u : Uuid} (h : ofText s = some u) :
    Canonical s ↔ u.text = s := by
  constructor
  · rintro ⟨v, rfl⟩
    rw [ofText_text] at h
    rw [Option.some.inj h]
  · intro hs
    exact ⟨u, hs.symm⟩

end A2aAgentLayer.Lib.HexText
