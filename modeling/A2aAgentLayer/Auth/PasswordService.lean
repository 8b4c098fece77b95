import A2aAgentLayer.Crypto.RequestCanonicalization
import A2aAgentLayer.Lib.Delimiter
import A2aAgentLayer.Lib.HexText

/-!
# Password hashing

A stored password is `salt:key`, both hexadecimal.  `verify` splits it at its colons, reads the key
with `Buffer.from`, which takes each unit by its low byte and stops at the first octet it cannot
read, and compares the key with the one it derives.  The derivation is a parameter; all that is used
of it is the length of its result.
-/

namespace A2aAgentLayer.Auth.PasswordService

open A2aAgentLayer.Lib.Utf16 A2aAgentLayer.Lib.Delimiter A2aAgentLayer.Lib.PercentDecoding
open A2aAgentLayer.Lib.JsonText (hexDigit)
open A2aAgentLayer.Lib.HexText (octetValue_hexDigit)
open A2aAgentLayer.Crypto.RequestCanonicalization (hexText)

def scryptKeylen : ℕ := 64

/-- `scrypt` with the options of the service, for a password and a salt. -/
structure Scrypt where
  derive : JsString → JsString → List UInt8
  keylen : ∀ password salt, (derive password salt).length = scryptKeylen

/-- Two digits as Node reads them, which looks at the low bytes of the units only. -/
def octet (high low : CodeUnit) : Option ℕ := octetValue (high &&& 255) (low &&& 255)

/-- `Buffer.from(text, 'hex')`: the octets in front of the first that is none. -/
def bytesOfHex : JsString → List UInt8
  | high :: low :: rest =>
      match octet high low with
      | some byte => UInt8.ofNat byte :: bytesOfHex rest
      | none => []
  | _ => []

/-- `timingSafeEqual`, which throws on lengths that differ. -/
def timingSafeEqual (a b : List UInt8) : Option Bool :=
  if a.length = b.length then some (decide (a = b)) else none

variable (scrypt : Scrypt)

/-- `hash`, with the sixteen bytes that `randomBytes` gives. -/
def hash (randomBytes : List UInt8) (password : JsString) : JsString :=
  let salt := hexText randomBytes
  salt ++ unit ':' :: hexText (scrypt.derive password salt)

/-- `verify`; `none` is a rejection. -/
def verify (password : JsString) (stored : Option JsString) : Option Bool :=
  match (stored.getD []).splitOn (unit ':') with
  | salt :: keyHex :: _ =>
      if salt = [] ∨ keyHex = [] then some false
      else
        let storedKey := bytesOfHex keyHex
        if storedKey.length ≠ scryptKeylen then some false
        else timingSafeEqual storedKey (scrypt.derive password salt)
  | _ => some false

/-! ### Hexadecimal text -/

theorem octet_hexDigit (byte : UInt8) :
    octet (hexDigit (byte.toNat / 16)) (hexDigit (byte.toNat % 16)) = some byte.toNat := by
  have hlow : ∀ n : Fin 16, hexDigit n.val &&& 255 = hexDigit n.val := by decide
  have hbyte := byte.toNat_lt
  rw [octet, hlow ⟨byte.toNat / 16, by omega⟩, hlow ⟨byte.toNat % 16, by omega⟩,
    octetValue_hexDigit]

theorem bytesOfHex_cons {high low : CodeUnit} {byte : ℕ} (h : octet high low = some byte)
    (rest : JsString) : bytesOfHex (high :: low :: rest) = UInt8.ofNat byte :: bytesOfHex rest := by
  rw [bytesOfHex, h]

theorem bytesOfHex_stop {high low : CodeUnit} (h : octet high low = none) (rest : JsString) :
    bytesOfHex (high :: low :: rest) = [] := by
  rw [bytesOfHex, h]

theorem bytesOfHex_hexText (bytes : List UInt8) : bytesOfHex (hexText bytes) = bytes := by
  induction bytes with
  | nil => rfl
  | cons byte bytes ih =>
      show bytesOfHex (hexDigit (byte.toNat / 16) :: hexDigit (byte.toNat % 16) :: hexText bytes)
        = byte :: bytes
      rw [bytesOfHex_cons (octet_hexDigit byte), ih, UInt8.ofNat_toNat]

theorem length_hexText (bytes : List UInt8) : (hexText bytes).length = 2 * bytes.length := by
  induction bytes with
  | nil => rfl
  | cons byte bytes ih =>
      show (hexText bytes).length + 1 + 1 = 2 * (bytes.length + 1)
      omega

/-- A colon is no hexadecimal digit. -/
theorem colon_of_octet {high low : CodeUnit} {byte : ℕ}
    (h : octet high low = some byte) : high ≠ unit ':' ∧ low ≠ unit ':' := by
  have hcolon : hexDigitValue (unit ':' &&& 255) = none := by decide
  simp only [octet, octetValue, Option.bind_eq_bind, Option.bind_eq_some_iff] at h
  obtain ⟨a, ha, b, hb, -⟩ := h
  refine ⟨fun hu => ?_, fun hu => ?_⟩
  · rw [hu, hcolon] at ha
    cases ha
  · rw [hu, hcolon] at hb
    cases hb

/-- A text that is read to its end, as `hexText` writes it or in upper case. -/
def Spells (digits : JsString) (bytes : List UInt8) : Prop :=
  digits.length = 2 * bytes.length ∧ bytesOfHex digits = bytes

theorem spells_nil : Spells [] [] := ⟨rfl, rfl⟩

theorem spells_hexText (bytes : List UInt8) : Spells (hexText bytes) bytes :=
  ⟨length_hexText bytes, bytesOfHex_hexText bytes⟩

/-- A text spells its bytes octet by octet. -/
theorem spells_cons {high low : CodeUnit} {digits : JsString} {bytes : List UInt8} :
    Spells (high :: low :: digits) bytes ↔ ∃ byte rest, octet high low = some byte
      ∧ bytes = UInt8.ofNat byte :: rest ∧ Spells digits rest := by
  constructor
  · rintro ⟨hlength, hbytes⟩
    cases hoctet : octet high low with
    | none =>
        rw [bytesOfHex_stop hoctet] at hbytes
        subst hbytes
        cases hlength
    | some byte =>
        rw [bytesOfHex_cons hoctet] at hbytes
        subst hbytes
        simp only [List.length_cons] at hlength
        exact ⟨byte, _, rfl, rfl, by omega, rfl⟩
  · rintro ⟨byte, rest, hoctet, rfl, hlength, hbytes⟩
    refine ⟨?_, by rw [bytesOfHex_cons hoctet, hbytes]⟩
    simp only [List.length_cons]
    omega

/-- **A text gives the bytes of its first octets, and something that is no octet may follow.** -/
theorem bytesOfHex_eq_iff {text : JsString} {bytes : List UInt8} :
    bytesOfHex text = bytes ↔
      ∃ digits tail, text = digits ++ tail ∧ Spells digits bytes ∧ bytesOfHex tail = [] := by
  constructor
  · rintro rfl
    induction text using bytesOfHex.induct with
    | case1 high low rest byte hoctet ih =>
        obtain ⟨digits, tail, hrest, hspells, htail⟩ := ih
        refine ⟨high :: low :: digits, tail, by rw [hrest]; rfl, ?_, htail⟩
        exact spells_cons.mpr ⟨byte, _, hoctet, bytesOfHex_cons hoctet rest, hspells⟩
    | case2 high low rest hoctet =>
        have hstop := bytesOfHex_stop hoctet rest
        exact ⟨[], high :: low :: rest, rfl, hstop ▸ spells_nil, hstop⟩
    | case3 text hshort =>
        have hstop : bytesOfHex text = [] := bytesOfHex.eq_2 text hshort
        exact ⟨[], text, rfl, hstop ▸ spells_nil, hstop⟩
  · rintro ⟨digits, tail, rfl, hspells, htail⟩
    induction digits using bytesOfHex.induct generalizing bytes with
    | case1 high low rest byte hoctet ih =>
        obtain ⟨byte', bytes', hoctet', rfl, hrest⟩ := spells_cons.mp hspells
        obtain rfl := Option.some.inj (hoctet.symm.trans hoctet')
        rw [List.cons_append, List.cons_append, bytesOfHex_cons hoctet, ih hrest]
    | case2 high low rest hoctet =>
        obtain ⟨byte, _, hoctet', -, -⟩ := spells_cons.mp hspells
        rw [hoctet] at hoctet'
        cases hoctet'
    | case3 digits hshort =>
        have hbytes : bytes = [] := by rw [← hspells.2, bytesOfHex.eq_2 digits hshort]
        subst hbytes
        rw [List.length_eq_zero_iff.mp hspells.1, List.nil_append, htail]

/-- The octets of a text have no colon. -/
theorem colon_notMem {digits : JsString} {bytes : List UInt8} (h : Spells digits bytes) :
    unit ':' ∉ digits := by
  induction digits using bytesOfHex.induct generalizing bytes with
  | case1 high low rest byte hoctet ih =>
      obtain ⟨_, bytes', -, -, hrest⟩ := spells_cons.mp h
      obtain ⟨hhigh, hlow⟩ := colon_of_octet hoctet
      rw [List.mem_cons, List.mem_cons, not_or, not_or]
      exact ⟨Ne.symm hhigh, Ne.symm hlow, ih hrest⟩
  | case2 high low rest hoctet =>
      obtain ⟨byte, _, hoctet', -, -⟩ := spells_cons.mp h
      rw [hoctet] at hoctet'
      cases hoctet'
  | case3 digits hshort =>
      have hbytes : bytes = [] := by rw [← h.2, bytesOfHex.eq_2 digits hshort]
      subst hbytes
      rw [List.length_eq_zero_iff.mp h.1]
      exact List.not_mem_nil

/-! ### Stored passwords -/

/-- The first two pieces of a text, and what comes after them. -/
theorem splitOn_two {text salt keyHex : JsString} {more : List JsString}
    (h : text.splitOn (unit ':') = salt :: keyHex :: more) :
    unit ':' ∉ salt ∧ unit ':' ∉ keyHex
      ∧ ∃ rest, text = salt ++ unit ':' :: (keyHex ++ rest)
        ∧ (rest = [] ∨ ∃ after, rest = unit ':' :: after) := by
  have hsalt : unit ':' ∉ salt := notMem_of_mem_splitOn (by rw [h]; simp)
  have hkey : unit ':' ∉ keyHex := notMem_of_mem_splitOn (by rw [h]; simp)
  have htext : [unit ':'].intercalate (text.splitOn (unit ':')) = text :=
    List.intercalate_splitOn (unit ':')
  rw [h, List.intercalate_cons_cons] at htext
  refine ⟨hsalt, hkey, ?_⟩
  cases more with
  | nil => exact ⟨[], by rw [← htext]; simp, .inl rfl⟩
  | cons piece more =>
      rw [List.intercalate_cons_cons] at htext
      exact ⟨unit ':' :: [unit ':'].intercalate (piece :: more), by rw [← htext]; simp,
        .inr ⟨_, rfl⟩⟩

theorem splitOn_of_parts {salt keyHex rest : JsString} (hsalt : unit ':' ∉ salt)
    (hkey : unit ':' ∉ keyHex) (hrest : rest = [] ∨ ∃ after, rest = unit ':' :: after) :
    ∃ more, (salt ++ unit ':' :: (keyHex ++ rest)).splitOn (unit ':') = salt :: keyHex :: more := by
  rw [List.splitOn_append_cons_self_of_not_mem hsalt]
  rcases hrest with rfl | ⟨after, rfl⟩
  · exact ⟨[], by rw [List.append_nil, List.splitOn_eq_singleton hkey]⟩
  · exact ⟨after.splitOn (unit ':'), by rw [List.splitOn_append_cons_self_of_not_mem hkey]⟩

variable {scrypt}

theorem timingSafeEqual_eq {key : List UInt8} (hkey : key.length = scryptKeylen)
    (password salt : JsString) :
    timingSafeEqual key (scrypt.derive password salt)
      = some (decide (key = scrypt.derive password salt)) :=
  if_pos (hkey.trans (scrypt.keylen password salt).symm)

variable (scrypt) in
/-- What `verify` does with the first two pieces. -/
theorem verify_pieces (password : JsString) {text salt keyHex : JsString} {more : List JsString}
    (h : text.splitOn (unit ':') = salt :: keyHex :: more) :
    verify scrypt password (some text)
      = some (decide (salt ≠ [] ∧ bytesOfHex keyHex = scrypt.derive password salt)) := by
  have hkeylen := scrypt.keylen password salt
  rw [verify, Option.getD_some, h]
  show (if _ then _ else _) = _
  by_cases hempty : salt = [] ∨ keyHex = []
  · rw [if_pos hempty]
    congr 1
    refine (decide_eq_false fun hboth => ?_).symm
    rcases hempty with hsalt | hkey
    · exact hboth.1 hsalt
    · have hderived := hboth.2
      rw [hkey] at hderived
      rw [← hderived] at hkeylen
      cases hkeylen
  · rw [if_neg hempty]
    obtain ⟨hsalt, -⟩ := not_or.mp hempty
    by_cases hlength : (bytesOfHex keyHex).length = scryptKeylen
    · show (if _ then _ else _) = _
      rw [if_neg (not_not.mpr hlength), timingSafeEqual_eq hlength]
      simp only [Ne, hsalt, not_false_eq_true, true_and]
    · show (if _ then _ else _) = _
      rw [if_pos hlength]
      congr 1
      refine (decide_eq_false fun hboth => hlength ?_).symm
      rw [hboth.2, hkeylen]

/-- **`verify` never throws, and it is exact.**  It accepts a password for the texts that begin with
a salt, a colon and octets that spell, in either case, the key derived from the two; what follows in
that piece must not begin with an octet, and what follows the piece is ignored.  For a text that
`hash` made it compares the two derived keys. -/
theorem verify_exact (scrypt : Scrypt) (password : JsString) :
    (∀ stored, verify scrypt password stored ≠ none)
      ∧ (∀ text, verify scrypt password (some text) = some true ↔
        ∃ salt digits tail rest, text = salt ++ unit ':' :: (digits ++ tail ++ rest)
          ∧ salt ≠ [] ∧ unit ':' ∉ salt ∧ Spells digits (scrypt.derive password salt)
          ∧ bytesOfHex tail = [] ∧ unit ':' ∉ tail
          ∧ (rest = [] ∨ ∃ after, rest = unit ':' :: after))
      ∧ ∀ (random : List UInt8) (other : JsString), random ≠ [] →
        verify scrypt password (some (hash scrypt random other))
          = some (decide (scrypt.derive other (hexText random)
            = scrypt.derive password (hexText random))) := by
  refine ⟨fun stored => ?_, fun text => ?_, fun random other hrandom => ?_⟩
  · cases hsplit : (stored.getD []).splitOn (unit ':') with
    | nil => exact absurd hsplit (List.splitOn_ne_nil _ _)
    | cons salt pieces =>
        cases pieces with
        | nil =>
            rw [verify, hsplit]
            exact nofun
        | cons keyHex more =>
            have hsome := verify_pieces scrypt password hsplit
            rw [verify, Option.getD_some] at hsome
            rw [verify, hsome]
            exact nofun
  · constructor
    · intro h
      cases hsplit : text.splitOn (unit ':') with
      | nil => exact absurd hsplit (List.splitOn_ne_nil _ _)
      | cons salt pieces =>
          cases pieces with
          | nil =>
              rw [verify, Option.getD_some, hsplit] at h
              cases h
          | cons keyHex more =>
              rw [verify_pieces scrypt password hsplit, Option.some.injEq, decide_eq_true_eq] at h
              obtain ⟨hne, hkey⟩ := h
              obtain ⟨hsalt, hcolon, rest, rfl, hrest⟩ := splitOn_two hsplit
              obtain ⟨digits, tail, rfl, hspells, htail⟩ := bytesOfHex_eq_iff.mp hkey
              exact ⟨salt, digits, tail, rest, rfl, hne, hsalt, hspells, htail,
                fun hmem => hcolon (List.mem_append_right _ hmem), hrest⟩
    · rintro ⟨salt, digits, tail, rest, rfl, hne, hsalt, hspells, htail, hcolon, hrest⟩
      have hkey : unit ':' ∉ digits ++ tail := by
        rw [List.mem_append, not_or]
        exact ⟨colon_notMem hspells, hcolon⟩
      obtain ⟨more, hsplit⟩ := splitOn_of_parts hsalt hkey hrest
      rw [verify_pieces scrypt password hsplit, Option.some.injEq, decide_eq_true_eq]
      exact ⟨hne, bytesOfHex_eq_iff.mpr ⟨digits, tail, rfl, hspells, htail⟩⟩
  · have hsalt : unit ':' ∉ hexText random := colon_notMem (spells_hexText random)
    have hkey : unit ':' ∉ hexText (scrypt.derive other (hexText random)) :=
      colon_notMem (spells_hexText _)
    obtain ⟨more, hsplit⟩ := splitOn_of_parts hsalt hkey (.inl rfl)
    rw [List.append_nil] at hsplit
    have hne : hexText random ≠ [] := by
      intro h
      have hlength := length_hexText random
      rw [h, List.length_nil] at hlength
      exact hrandom (List.length_eq_zero_iff.mp (by omega))
    rw [hash, verify_pieces scrypt password hsplit, bytesOfHex_hexText]
    simp only [Ne, hne, not_false_eq_true, true_and]

/-! ### A recorded key -/

def operatorPassword : JsString := js "operator-secret"

def operatorSalt : List UInt8 :=
  [0x9f, 0x86, 0xd0, 0x81, 0x88, 0x4c, 0x7d, 0x65, 0x9a, 0x2f, 0xea, 0xa0, 0xc5, 0x5a, 0xd0,
    0x15]

/-- The key of the password and the salt. -/
def operatorKey : List UInt8 :=
  [0xa8, 0xaf, 0x31, 0x38, 0x10, 0xdf, 0xd6, 0x8a, 0x7e, 0x68, 0x0c, 0x2d, 0x76, 0x92, 0xb4,
    0xc1, 0xdb, 0x6a, 0xc3, 0x41, 0x77, 0xaf, 0x25, 0x10, 0x71, 0x51, 0xb7, 0x6f, 0xad, 0x68,
    0x3b, 0xaf, 0x0a, 0xc8, 0x4d, 0x76, 0xfd, 0xf8, 0x95, 0xdc, 0x69, 0x86, 0x7b, 0x3c, 0x70,
    0xac, 0xd8, 0x7b, 0xb6, 0x00, 0x73, 0x30, 0xfd, 0x67, 0x02, 0x5a, 0x28, 0x98, 0x49, 0xe2,
    0x6b, 0xe3, 0x13, 0xed]

/-- The recorded key, and elsewhere zeros. -/
def recordedKey (password salt : JsString) : List UInt8 :=
  if password = operatorPassword ∧ salt = hexText operatorSalt then operatorKey
  else List.replicate scryptKeylen 0

theorem length_recordedKey (password salt : JsString) :
    (recordedKey password salt).length = scryptKeylen := by
  rw [recordedKey]
  split_ifs
  · rfl
  · exact List.length_replicate

def recordedScrypt : Scrypt where
  derive := recordedKey
  keylen := length_recordedKey

theorem derive_recordedScrypt (password salt : JsString) :
    recordedScrypt.derive password salt = recordedKey password salt := rfl

/-- The text that was stored is accepted for its password and for no other. -/
theorem verify_exact_operator :
    verify recordedScrypt operatorPassword
        (some (hash recordedScrypt operatorSalt operatorPassword)) = some true
      ∧ ∀ password, password ≠ operatorPassword →
        verify recordedScrypt password
          (some (hash recordedScrypt operatorSalt operatorPassword)) = some false := by
  have hsalt : operatorSalt ≠ [] := List.cons_ne_nil _ _
  have hkey : recordedScrypt.derive operatorPassword (hexText operatorSalt) = operatorKey := by
    rw [derive_recordedScrypt, recordedKey, if_pos ⟨rfl, rfl⟩]
  refine ⟨?_, fun password hother => ?_⟩
  · rw [(verify_exact recordedScrypt operatorPassword).2.2 operatorSalt operatorPassword hsalt,
      decide_eq_true rfl]
  · have hzeros : recordedScrypt.derive password (hexText operatorSalt)
        = List.replicate scryptKeylen 0 := by
      rw [derive_recordedScrypt, recordedKey, if_neg fun h => hother h.1]
    rw [(verify_exact recordedScrypt password).2.2 operatorSalt operatorPassword hsalt, hkey,
      hzeros, decide_eq_false (by decide)]

end A2aAgentLayer.Auth.PasswordService
