import A2aAgentLayer.Auth.Guards
import A2aAgentLayer.Crypto.RequestCanonicalization
import A2aAgentLayer.Lib.Delimiter

/-!
# Which API keys are accepted

`onModuleInit` reads `API_KEYS` into a map from digest to label, `verify` looks a presented key up.
A key is accepted exactly when an entry `label:secret` configures it, with the label of the last
such entry.  Strings are hashed as UTF-8, which encodes a lone surrogate like U+FFFD; so two secrets
are one when their encodings are, and for well-formed strings that is equality.
-/

namespace A2aAgentLayer.Auth.ApiKeyService

open A2aAgentLayer.Lib.Utf16 A2aAgentLayer.Lib.JsText A2aAgentLayer.Lib.KeyedStore
open A2aAgentLayer.Lib.Delimiter A2aAgentLayer.Auth.Guards
open A2aAgentLayer.Crypto.RequestCanonicalization (recordedDigest recordedDigest_injective)

/-- The piece of the configuration, trimmed, is `label:secret`; the first colon separates. -/
def Configures (piece label secret : JsString) : Prop :=
  trim piece = label ++ unit ':' :: secret ∧ label ≠ [] ∧ unit ':' ∉ label ∧ secret ≠ []

/-- A label and a secret that the configuration can carry. -/
structure KeyPair where
  label : JsString
  secret : JsString
  label_ne : label ≠ []
  label_plain : unit ',' ∉ label ∧ unit ':' ∉ label
  label_start : isSpace (label.head label_ne) = false
  secret_ne : secret ≠ []
  secret_plain : unit ',' ∉ secret
  secret_end : isSpace (secret.getLast secret_ne) = false

def KeyPair.entry (pair : KeyPair) : JsString := pair.label ++ unit ':' :: pair.secret

/-- The configuration of a list of pairs. -/
def joined (pairs : List KeyPair) : JsString := [unit ','].intercalate (pairs.map KeyPair.entry)

/-! ### Entries -/

theorem parseEntry_eq_some_iff {text label secret : JsString} :
    parseEntry text = some (label, secret)
      ↔ text = label ++ unit ':' :: secret ∧ label ≠ [] ∧ unit ':' ∉ label ∧ secret ≠ [] := by
  constructor
  · intro h
    unfold parseEntry at h
    split at h
    · cases h
    · next separator hseparator =>
        obtain ⟨before, after, rfl, hcolon, rfl⟩ := idxOf?_eq_some_iff_append.mp hseparator
        split_ifs at h with hends
        rw [not_or, List.length_eq_zero_iff, List.length_append, List.length_cons] at hends
        obtain ⟨rfl, rfl⟩ : before = label ∧ after = secret := by simpa using h
        refine ⟨rfl, hends.1, hcolon, ?_⟩
        rintro rfl
        exact hends.2 rfl
  · rintro ⟨rfl, hlabel, hcolon, hsecret⟩
    have hindex : (label ++ unit ':' :: secret).idxOf? (unit ':') = some label.length :=
      idxOf?_eq_some_iff_append.mpr ⟨label, secret, rfl, hcolon, rfl⟩
    have hends : ¬ (label.length = 0
        ∨ label.length + 1 = (label ++ unit ':' :: secret).length) := by
      have := List.length_pos_iff.mpr hlabel
      have := List.length_pos_iff.mpr hsecret
      rw [List.length_append, List.length_cons]
      omega
    unfold parseEntry
    simp only [hindex, if_neg hends]
    simp

/-- What one piece of the configuration contributes. -/
def readPiece (piece : JsString) : Option (JsString × JsString) :=
  if trim piece = [] then none else parseEntry (trim piece)

theorem readPiece_eq_some_iff {piece label secret : JsString} :
    readPiece piece = some (label, secret) ↔ Configures piece label secret := by
  rw [readPiece, Configures, ← parseEntry_eq_some_iff]
  split_ifs with hblank
  · rw [hblank]
    constructor
    · intro h
      cases h
    · intro h
      cases h
  · rfl

theorem configuredKeys_eq (raw : JsString) :
    configuredKeys raw = (raw.splitOn (unit ',')).filterMap readPiece := rfl

/-- A list of results and the list it was filtered from, split at the same element. -/
theorem filterMap_split {α β : Type} {f : α → Option β} {xs : List α} {b : β} {after : List β} :
    (∃ before, xs.filterMap f = before ++ b :: after)
      ↔ ∃ front x back, xs = front ++ x :: back ∧ f x = some b ∧ back.filterMap f = after := by
  constructor
  · rintro ⟨before, h⟩
    obtain ⟨front, tail, rfl, rfl, htail⟩ := List.filterMap_eq_append_iff.mp h
    obtain ⟨skipped, x, back, rfl, -, hx, hback⟩ := List.filterMap_eq_cons_iff.mp htail
    exact ⟨front ++ skipped, x, back, (List.append_assoc _ _ _).symm, hx, hback⟩
  · rintro ⟨front, x, back, rfl, hx, rfl⟩
    exact ⟨front.filterMap f, by rw [List.filterMap_append, List.filterMap_cons_some hx]⟩

/-! ### The accepted keys -/

/-- The last piece of the configuration with this secret gives the label. -/
def LastConfigures (raw label key : JsString) : Prop :=
  ∃ front piece back secret, raw.splitOn (unit ',') = front ++ piece :: back
    ∧ Configures piece label secret ∧ utf8Encode secret = utf8Encode key
    ∧ ∀ later ∈ back, ∀ label' secret', Configures later label' secret' →
      utf8Encode secret' ≠ utf8Encode key

section Digest

variable (sha256 : ByteArray → List UInt8)

/-- What one piece writes into the map. -/
def stored (piece : JsString) : Option (List UInt8 × JsString) :=
  (readPiece piece).map fun entry => (digest sha256 entry.2, entry.1)

theorem loadKeys_eq (raw : JsString) :
    loadKeys sha256 raw = insertAll ∅ ((raw.splitOn (unit ',')).filterMap (stored sha256)) := by
  rw [loadKeys, configuredKeys_eq, List.map_filterMap]
  rfl

variable {sha256} (hinj : Function.Injective sha256)

include hinj in
theorem stored_eq_some_iff {piece label key : JsString} :
    stored sha256 piece = some (digest sha256 key, label)
      ↔ ∃ secret, Configures piece label secret ∧ utf8Encode secret = utf8Encode key := by
  simp only [stored, Option.map_eq_some_iff, Prod.exists, Prod.mk.injEq]
  constructor
  · rintro ⟨name, secret, hread, hdigest, rfl⟩
    exact ⟨secret, readPiece_eq_some_iff.mp hread, hinj hdigest⟩
  · rintro ⟨secret, hpiece, hsame⟩
    exact ⟨label, secret, readPiece_eq_some_iff.mpr hpiece, congrArg sha256 hsame, rfl⟩

include hinj in
theorem notMem_stored_iff {pieces : List JsString} {key : JsString} :
    digest sha256 key ∉ (pieces.filterMap (stored sha256)).map Prod.fst
      ↔ ∀ later ∈ pieces, ∀ label secret, Configures later label secret →
        utf8Encode secret ≠ utf8Encode key := by
  constructor
  · intro h later hlater label secret hpiece hsame
    have hstored := (stored_eq_some_iff hinj).mpr ⟨secret, hpiece, hsame⟩
    exact h (List.mem_map.mpr ⟨_, List.mem_filterMap.mpr ⟨later, hlater, hstored⟩, rfl⟩)
  · intro h hmem
    obtain ⟨⟨d, label⟩, hentry, rfl⟩ := List.mem_map.mp hmem
    obtain ⟨later, hlater, hstored⟩ := List.mem_filterMap.mp hentry
    obtain ⟨secret, hpiece, hsame⟩ := (stored_eq_some_iff hinj).mp hstored
    exact h later hlater label secret hpiece hsame

include hinj in
theorem lookup_loadKeys_iff {raw label key : JsString} :
    (loadKeys sha256 raw).lookup (digest sha256 key) = some label
      ↔ LastConfigures raw label key := by
  rw [loadKeys_eq, lookup_insertAll_eq_some_iff]
  constructor
  · rintro ⟨before, after, hsplit, hafter⟩
    obtain ⟨front, piece, back, hpieces, hpiece, rfl⟩ := filterMap_split.mp ⟨before, hsplit⟩
    obtain ⟨secret, hconfigures, hsame⟩ := (stored_eq_some_iff hinj).mp hpiece
    exact ⟨front, piece, back, secret, hpieces, hconfigures, hsame,
      (notMem_stored_iff hinj).mp hafter⟩
  · rintro ⟨front, piece, back, secret, hpieces, hconfigures, hsame, hback⟩
    have hpiece := (stored_eq_some_iff hinj).mpr ⟨secret, hconfigures, hsame⟩
    obtain ⟨before, hsplit⟩ := filterMap_split.mpr ⟨front, piece, back, hpieces, hpiece, rfl⟩
    exact ⟨before, _, hsplit, (notMem_stored_iff hinj).mpr hback⟩

include hinj in
/-- Presenting a key gives a label exactly when the configuration does. -/
theorem verify_eq_some_iff {raw label key : JsString} :
    verify sha256 (loadKeys sha256 raw) (some key) = some label
      ↔ key ≠ [] ∧ LastConfigures raw label key := by
  rw [verify]
  by_cases hempty : key = []
  · simp [hempty]
  · simp only [if_neg hempty]
    rw [lookup_loadKeys_iff hinj, and_iff_right hempty]

/-! ### A list of pairs, joined and loaded -/

theorem comma_notMem_entry (pair : KeyPair) : unit ',' ∉ pair.entry := by
  rw [KeyPair.entry, List.mem_append, List.mem_cons, not_or, not_or]
  exact ⟨pair.label_plain.1, by decide, pair.secret_plain⟩

theorem trim_entry (pair : KeyPair) : trim pair.entry = pair.entry := by
  rw [trim_eq_self_iff, Trimmed]
  constructor
  · intro hne
    have hhead : pair.entry.head hne = pair.label.head pair.label_ne :=
      List.head_append_of_ne_nil pair.label_ne
    rw [hhead]
    exact pair.label_start
  · intro hne
    have hlast : pair.entry.getLast hne = pair.secret.getLast pair.secret_ne := by
      simp [KeyPair.entry, pair.secret_ne]
    rw [hlast]
    exact pair.secret_end

theorem configures_entry_iff {pair : KeyPair} {label secret : JsString} :
    Configures pair.entry label secret ↔ label = pair.label ∧ secret = pair.secret := by
  rw [Configures, trim_entry]
  constructor
  · rintro ⟨hentry, -, hcolon, -⟩
    obtain ⟨rfl, rfl⟩ := append_cons_inj pair.label_plain.2 hcolon hentry
    exact ⟨rfl, rfl⟩
  · rintro ⟨rfl, rfl⟩
    exact ⟨rfl, pair.label_ne, pair.label_plain.2, pair.secret_ne⟩

theorem splitOn_joined {pairs : List KeyPair} (hne : pairs ≠ []) :
    (joined pairs).splitOn (unit ',') = pairs.map KeyPair.entry := by
  refine List.splitOn_intercalate (unit ',') ?_ (by simpa using hne)
  intro entry hentry
  obtain ⟨pair, -, rfl⟩ := List.mem_map.mp hentry
  exact comma_notMem_entry pair

/-- Of a joined list, the last pair with the secret gives the label. -/
theorem lastConfigures_joined {before after : List KeyPair} {pair : KeyPair}
    (h : ∀ later ∈ after, utf8Encode later.secret ≠ utf8Encode pair.secret) :
    LastConfigures (joined (before ++ pair :: after)) pair.label pair.secret := by
  refine ⟨before.map KeyPair.entry, pair.entry, after.map KeyPair.entry, pair.secret, ?_, ?_, rfl,
    ?_⟩
  · rw [splitOn_joined (by simp), List.map_append, List.map_cons]
  · exact configures_entry_iff.mpr ⟨rfl, rfl⟩
  · intro entry hentry label secret hconfigures
    obtain ⟨later, hlater, rfl⟩ := List.mem_map.mp hentry
    obtain ⟨-, rfl⟩ := configures_entry_iff.mp hconfigures
    exact h later hlater

/-- **API keys are accepted exactly as configured.**  A key is accepted with a label when the last
entry of its secret has that label, nothing else is; and a list of pairs, joined with commas, gives
back each of them whose secret does not come again. -/
theorem verify_loadKeys (sha256 : ByteArray → List UInt8) (hinj : Function.Injective sha256) :
    (∀ raw label key, verify sha256 (loadKeys sha256 raw) (some key) = some label
        ↔ key ≠ [] ∧ LastConfigures raw label key)
      ∧ (∀ raw, verify sha256 (loadKeys sha256 raw) none = none)
      ∧ ∀ (before : List KeyPair) (pair : KeyPair) (after : List KeyPair),
          (∀ later ∈ after, utf8Encode later.secret ≠ utf8Encode pair.secret) →
          verify sha256 (loadKeys sha256 (joined (before ++ pair :: after))) (some pair.secret)
            = some pair.label := by
  refine ⟨fun raw label key => verify_eq_some_iff hinj, fun raw => rfl, ?_⟩
  intro before pair after h
  rw [verify_eq_some_iff hinj]
  exact ⟨pair.secret_ne, lastConfigures_joined h⟩

end Digest

/-! ### Two keys -/

/-- SHA-256 with its values at the keys `aa:bb` and U+FFFD. -/
def keyDigests : List (List UInt8 × List UInt8) :=
  [([0x61, 0x61, 0x3a, 0x62, 0x62],
    [0x26, 0x70, 0x61, 0x73, 0xab, 0x47, 0xfd, 0x16, 0x6f, 0x8f, 0x0a, 0x79, 0xc1, 0x72, 0xd9,
    0xa4, 0x0a, 0xd7, 0x57, 0x63, 0x61, 0x53, 0x22, 0x22, 0x56, 0x57, 0x79, 0xf9, 0x2d, 0x03,
    0xa0, 0xd5]),
   ([0xef, 0xbf, 0xbd],
    [0x83, 0xd5, 0x44, 0xcc, 0xc2, 0x23, 0xc0, 0x57, 0xd2, 0xbf, 0x80, 0xd3, 0xf2, 0xa3, 0x29,
    0x82, 0xc3, 0x2c, 0x3c, 0x0d, 0xb8, 0xe2, 0x67, 0x48, 0x20, 0xda, 0x50, 0x64, 0x78, 0x3f,
    0xb0, 0x97])]

def keySha256 : ByteArray → List UInt8 := recordedDigest keyDigests

theorem keySha256_injective : Function.Injective keySha256 :=
  recordedDigest_injective (by decide) (by simp [keyDigests])

/-- An entry whose key holds a colon. -/
def railPair : KeyPair where
  label := js "rail"
  secret := js "aa:bb"
  label_ne := by decide
  label_plain := by decide
  label_start := by decide
  secret_ne := by decide
  secret_plain := by decide
  secret_end := by decide

theorem verify_loadKeys_rail :
    verify keySha256 (loadKeys keySha256 (joined ([] ++ railPair :: []))) (some railPair.secret)
      = some railPair.label :=
  (verify_loadKeys keySha256 keySha256_injective).2.2 [] railPair [] fun _ h => nomatch h

/-- An entry whose key is a lone surrogate. -/
def surrogateKeys : JsString := js "rail:" ++ [0xD800]

theorem readPiece_surrogateKeys : readPiece surrogateKeys = some (js "rail", [0xD800]) := by decide

/-- The key U+FFFD has the UTF-8 encoding of a lone surrogate, and is accepted in its place. -/
theorem replacement_character_accepted :
    ¬ ∀ sha256 : ByteArray → List UInt8, Function.Injective sha256 → ∀ raw label key,
      verify sha256 (loadKeys sha256 raw) (some key) = some label
        ↔ key ≠ [] ∧ ∃ front piece back, raw.splitOn (unit ',') = front ++ piece :: back
          ∧ Configures piece label key
          ∧ ∀ later ∈ back, ∀ label', ¬ Configures later label' key := by
  intro h
  have hsplit : surrogateKeys.splitOn (unit ',') = [surrogateKeys] :=
    List.splitOn_eq_singleton (by decide)
  have hpiece : Configures surrogateKeys (js "rail") [0xD800] :=
    readPiece_eq_some_iff.mp readPiece_surrogateKeys
  have hsame : utf8Encode [0xD800] = utf8Encode [0xFFFD] :=
    congrArg (fun chars => (String.ofList chars).toByteArray) (by decide)
  have haccepted : verify keySha256 (loadKeys keySha256 surrogateKeys) (some [0xFFFD])
      = some (js "rail") := by
    rw [verify_eq_some_iff keySha256_injective]
    exact ⟨by decide, [], surrogateKeys, [], [0xD800], hsplit, hpiece, hsame, fun _ h => nomatch h⟩
  obtain ⟨-, front, piece, back, hpieces, hconfigures, -⟩ :=
    (h keySha256 keySha256_injective surrogateKeys (js "rail") [0xFFFD]).mp haccepted
  rw [hsplit] at hpieces
  have hmem : piece ∈ [surrogateKeys] := by
    rw [hpieces]
    exact List.mem_append_right front List.mem_cons_self
  rw [List.mem_singleton.mp hmem, ← readPiece_eq_some_iff, readPiece_surrogateKeys] at hconfigures
  revert hconfigures
  decide

end A2aAgentLayer.Auth.ApiKeyService
