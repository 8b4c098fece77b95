import A2aAgentLayer.Common.CookieHeader
import A2aAgentLayer.Common.RequestHeaders
import A2aAgentLayer.Crypto.RequestCanonicalization
import A2aAgentLayer.Lib.Delimiter
import A2aAgentLayer.Lib.PercentDecoding

/-!
# CSRF tokens

`CsrfMiddleware` sets a cookie `nonce.issuedAt.hmac` and asks every unsafe request that the browser
may have sent on its own to echo it in a header.  The service keeps no list of tokens: whether one
is valid is read off its text, the secret and the clock.

HMAC-SHA256 is a parameter.  What a cookie parser in front of the middleware may have left in
`req.cookies` is part of the request.
-/

namespace A2aAgentLayer.Common.CsrfMiddleware

open A2aAgentLayer.Lib.Utf16 A2aAgentLayer.Lib.JsText A2aAgentLayer.Lib.Delimiter
open A2aAgentLayer.Lib.PercentDecoding A2aAgentLayer.Lib.JsonText
open A2aAgentLayer.Common.RequestHeaders A2aAgentLayer.Common.CookieHeader
open A2aAgentLayer.Crypto.RequestCanonicalization

/-! ### Tokens -/

/-- The `security` section of the configuration, and HMAC-SHA256 of a key and a message; a digest
has bytes. -/
structure Env where
  hmac : ByteArray → ByteArray → List UInt8
  secret : JsString
  cookieName : JsString
  headerName : JsString
  apiKeyHeader : JsString
  ttlMs : ℤ
  production : Bool
  digest_ne : ∀ key message, hmac key message ≠ []

/-- What `mint` draws: sixteen random bytes and the time. -/
structure Mint where
  randomBytes : List UInt8
  issuedAt : ℤ
  size : randomBytes.length = 16
  deriving DecidableEq

def Mint.nonce (m : Mint) : JsString := hexText m.randomBytes

def Mint.issuedAtText (m : Mint) : JsString := intText m.issuedAt

section Tokens

variable (env : Env)

/-- The message that a token signs. -/
def message (nonce issuedAt : JsString) : JsString := nonce ++ unit '.' :: issuedAt

def sign (nonce issuedAt : JsString) : JsString :=
  hexText (env.hmac (utf8Encode env.secret) (utf8Encode (message nonce issuedAt)))

def mint (m : Mint) : JsString :=
  message m.nonce m.issuedAtText ++ unit '.' :: sign env m.nonce m.issuedAtText

/-- Equal lengths and equal bytes. -/
def equal (a b : JsString) : Bool := decide ((utf8Encode a).data = (utf8Encode b).data)

/-- `[nonce, issuedAt, mac] = token.split('.')`, when none of the three is missing or empty. -/
def segments (token : JsString) : Option (JsString × JsString × JsString) :=
  match token.splitOn (unit '.') with
  | nonce :: issuedAt :: mac :: _ =>
      if nonce = [] ∨ issuedAt = [] ∨ mac = [] then none else some (nonce, issuedAt, mac)
  | _ => none

def isValid (now : ℤ) (token : JsString) : Bool :=
  match segments token with
  | none => false
  | some (nonce, issuedAt, mac) =>
      match parseInt issuedAt with
      | none => false
      | some issued =>
          let age := now - issued
          if age < 0 ∨ env.ttlMs < age then false else equal mac (sign env nonce issuedAt)

end Tokens

/-! ### Requests -/

structure Request where
  method : JsString
  headers : Headers
  cookies : Option (JsString → Option JsString)

inductive Rejection where
  | forbidden (message : JsString)
  | uriError
  | typeError
  deriving DecidableEq

/-- A value that counts as present in a condition. -/
def nonempty : Option JsString → Option JsString := fun value => value.filter fun s => !s.isEmpty

def readCookie (request : Request) (name : JsString) : Except Rejection (Option JsString) :=
  match nonempty (request.cookies.bind fun parsed => parsed name) with
  | some value => .ok (some value)
  | none =>
      match request.headers (js "cookie") with
      | none => .ok none
      | some (.many _) => .error .typeError
      | some (.one header) =>
          if header.text = [] then .ok none
          else
            match findCookie name header.text with
            | none => .ok none
            | some encoded =>
                match decodeURIComponent encoded with
                | none => .error .uriError
                | some value => .ok (some value)

def safeMethod (method : JsString) : Bool :=
  method == js "GET" || method == js "HEAD" || method == js "OPTIONS"

section Use

variable (env : Env)

def exempt (request : Request) : Bool :=
  truthy (request.headers (js "authorization")) || truthy (request.headers env.apiKeyHeader)

def presented (request : Request) : Option HeaderText :=
  firstValue (request.headers env.headerName)

/-- The attributes of the cookie. -/
structure CookieOptions where
  httpOnly : Bool
  sameSite : JsString
  secure : Bool
  path : JsString
  deriving DecidableEq

/-- What a fresh token puts into the response: a cookie and a header. -/
structure Reply where
  cookie : JsString × JsString × CookieOptions
  header : JsString × JsString
  deriving DecidableEq

def reply (m : Mint) : Reply where
  cookie := (env.cookieName, mint env m, ⟨false, js "lax", env.production, js "/"⟩)
  header := (env.headerName, mint env m)

/-- One request with what the middleware draws while it runs: the times at which it validates the
token of the cookie and the one of the header, and the token it mints in between. -/
structure Visit where
  request : Request
  before : ℤ
  fresh : Mint
  now : ℤ

/-- The token that the response carries, if a new one is minted, and whether `next` is called. -/
structure Outcome where
  minted : Option Mint
  reply : Option Reply
  result : Except Rejection Unit

/-- The checks behind the cookie that is there. -/
def check (request : Request) (now : ℤ) (cookieToken : Option JsString) : Except Rejection Unit :=
  if safeMethod request.method then .ok ()
  else if exempt env request then .ok ()
  else
    match nonempty cookieToken, nonempty ((presented env request).map (·.text)) with
    | some cookieToken, some presented =>
        if isValid env now presented = false ∨ equal cookieToken presented = false then
          .error (.forbidden (js "CSRF token invalid"))
        else .ok ()
    | _, _ => .error (.forbidden (js "CSRF token missing"))

/-- `readCookie` is called twice, on a request that does not change in between. -/
def use (visit : Visit) : Outcome :=
  match readCookie visit.request env.cookieName with
  | .error rejection => ⟨none, none, .error rejection⟩
  | .ok existing =>
      let valid := (nonempty existing).any (isValid env visit.before)
      let minted := if valid then none else some visit.fresh
      ⟨minted, minted.map (reply env), check env visit.request visit.now existing⟩

/-- Every token that `mint` produced in a history of requests. -/
def mintedIn (history : List Visit) : List Mint :=
  history.filterMap fun visit => (use env visit).minted

end Use

/-! ### The units of a token -/

/-- The units between the points of a minted token. -/
def partUnit (u : CodeUnit) : Bool :=
  isDigitUnit u || (unit 'a' ≤ u && u ≤ unit 'f') || u == unit '-'

theorem partUnit_of_mem_hexText {digest : List UInt8} {u : CodeUnit} (h : u ∈ hexText digest) :
    partUnit u = true := by
  have hall : ∀ n : Fin 16, partUnit (hexDigit n.val) = true := by decide
  obtain ⟨n, rfl⟩ := eq_hexDigit_of_mem h
  exact hall n

theorem partUnit_of_mem_intText {z : ℤ} {u : CodeUnit} (h : u ∈ intText z) :
    partUnit u = true := by
  have hdigit : ∀ v ∈ natText z.natAbs, partUnit v = true := fun v hv => by
    rw [partUnit, digit_of_mem_natText hv, Bool.true_or, Bool.true_or]
  rw [intText] at h
  split_ifs at h
  · rcases List.mem_cons.mp h with rfl | h
    · decide
    · exact hdigit u h
  · exact hdigit u h

theorem toNat_of_partUnit {u : CodeUnit} (h : partUnit u = true) :
    u.toNat = 45 ∨ (48 ≤ u.toNat ∧ u.toNat ≤ 57) ∨ (97 ≤ u.toNat ∧ u.toNat ≤ 102) := by
  have hletters : (unit 'a').toNat = 97 ∧ (unit 'f').toNat = 102 := by decide
  simp only [partUnit, isDigitUnit_iff, Bool.or_eq_true, Bool.and_eq_true, decide_eq_true_eq,
    UInt16.le_iff_toNat_le, beq_iff_eq, hletters.1, hletters.2] at h
  rcases h with (h | h) | rfl
  · exact .inr (.inl h)
  · exact .inr (.inr h)
  · exact .inl (by decide)

theorem point_notMem {part : JsString} (h : ∀ u ∈ part, partUnit u = true) :
    unit '.' ∉ part := by
  intro hmem
  have hpoint : partUnit (unit '.') = false := by decide
  rw [h _ hmem] at hpoint
  cases hpoint

section Mints

variable (env : Env) (m : Mint)

theorem nonce_units : ∀ u ∈ m.nonce, partUnit u = true := fun _ => partUnit_of_mem_hexText

theorem issuedAt_units : ∀ u ∈ m.issuedAtText, partUnit u = true := fun _ => partUnit_of_mem_intText

theorem sign_units (nonce issuedAt : JsString) : ∀ u ∈ sign env nonce issuedAt, partUnit u = true :=
  fun _ => partUnit_of_mem_hexText

theorem nonce_ne : m.nonce ≠ [] := by
  intro h
  have hbytes := m.size
  rw [Mint.nonce, hexText, List.flatMap_eq_nil_iff] at h
  cases hlist : m.randomBytes with
  | nil => simp [hlist] at hbytes
  | cons byte bytes => simpa using h byte (by rw [hlist]; exact List.mem_cons_self ..)

theorem issuedAtText_ne : m.issuedAtText ≠ [] := by
  rw [Mint.issuedAtText, intText]
  split_ifs
  · exact List.cons_ne_nil _ _
  · exact natText_ne_nil _

theorem sign_ne (nonce issuedAt : JsString) : sign env nonce issuedAt ≠ [] := by
  intro h
  have hdigest := env.digest_ne (utf8Encode env.secret) (utf8Encode (message nonce issuedAt))
  rw [sign, hexText, List.flatMap_eq_nil_iff] at h
  obtain ⟨byte, bytes, hlist⟩ := List.exists_cons_of_ne_nil hdigest
  simpa using h byte (by rw [hlist]; exact List.mem_cons_self ..)

theorem splitOn_mint :
    (mint env m).splitOn (unit '.')
      = [m.nonce, m.issuedAtText, sign env m.nonce m.issuedAtText] := by
  have hmint : mint env m = m.nonce ++ unit '.' :: (m.issuedAtText
      ++ unit '.' :: sign env m.nonce m.issuedAtText) := by
    simp only [mint, message, List.append_assoc, List.cons_append]
  rw [hmint, List.splitOn_append_cons_self_of_not_mem (point_notMem (nonce_units m)),
    List.splitOn_append_cons_self_of_not_mem (point_notMem (issuedAt_units m)),
    List.splitOn_eq_singleton (point_notMem (sign_units env _ _))]

theorem segments_mint :
    segments (mint env m)
      = some (m.nonce, m.issuedAtText, sign env m.nonce m.issuedAtText) := by
  rw [segments, splitOn_mint]
  show (if _ then _ else _) = _
  rw [if_neg]
  simp only [nonce_ne, issuedAtText_ne, sign_ne, or_self, not_false_eq_true]

/-- The units of a token lie between the point and the letter `f`. -/
theorem toNat_of_mem_mint {u : CodeUnit} (h : u ∈ mint env m) :
    u.toNat = 45 ∨ u.toNat = 46 ∨ (48 ≤ u.toNat ∧ u.toNat ≤ 57)
      ∨ (97 ≤ u.toNat ∧ u.toNat ≤ 102) := by
  have hpart : partUnit u = true ∨ u = unit '.' := by
    simp only [mint, message, List.mem_append, List.mem_cons] at h
    rcases h with (h | h | h) | h | h
    · exact .inl (nonce_units m u h)
    · exact .inr h
    · exact .inl (issuedAt_units m u h)
    · exact .inr h
    · exact .inl (sign_units env _ _ u h)
  rcases hpart with hpart | rfl
  · have hu := toNat_of_partUnit hpart
    omega
  · exact .inr (.inl (by decide))

end Mints

/-! ### What the checks accept -/

theorem equal_iff {a b : JsString} (hb : ∀ u ∈ b, u.toNat < 256) :
    equal a b = true ↔ a = b := by
  rw [equal, decide_eq_true_eq]
  constructor
  · intro h
    have hwellFormed : wellFormed b = true := HeaderText.wellFormed_text ⟨b, hb⟩
    refine eq_of_utf8Encode_eq hwellFormed (fun hmem => ?_) (ByteArray.ext h)
    have hlarge := hb _ hmem
    revert hlarge
    decide
  · intro h
    rw [h]

theorem latin1_of_units {part : JsString} (h : ∀ u ∈ part, partUnit u = true) :
    ∀ u ∈ part, u.toNat < 256 := by
  intro u hu
  have hnat := toNat_of_partUnit (h u hu)
  omega

theorem segments_eq_some {token nonce issuedAt mac : JsString}
    (h : segments token = some (nonce, issuedAt, mac)) :
    ∃ rest, token.splitOn (unit '.') = nonce :: issuedAt :: mac :: rest := by
  rw [segments] at h
  split at h
  · next n i a rest hsplit =>
      split_ifs at h
      obtain ⟨rfl, rfl, rfl⟩ : n = nonce ∧ i = issuedAt ∧ a = mac := by simpa using h
      exact ⟨rest, hsplit⟩
  · cases h

section Checks

variable (env : Env)

theorem isValid_iff {now : ℤ} {token : JsString} :
    isValid env now token = true ↔
      ∃ nonce issuedAt mac issued, segments token = some (nonce, issuedAt, mac)
        ∧ parseInt issuedAt = some issued ∧ now - env.ttlMs ≤ issued ∧ issued ≤ now
        ∧ mac = sign env nonce issuedAt := by
  constructor
  · intro h
    rw [isValid] at h
    cases hsegments : segments token with
    | none => simp [hsegments] at h
    | some parts =>
        obtain ⟨nonce, issuedAt, mac⟩ := parts
        simp only [hsegments] at h
        cases hissued : parseInt issuedAt with
        | none => simp [hissued] at h
        | some issued =>
            simp only [hissued] at h
            split_ifs at h with hage
            rw [equal_iff (latin1_of_units (sign_units env nonce issuedAt))] at h
            exact ⟨nonce, issuedAt, mac, issued, rfl, hissued, by omega, by omega, h⟩
  · rintro ⟨nonce, issuedAt, mac, issued, hsegments, hissued, hlow, hhigh, hmac⟩
    simp only [isValid, hsegments, hissued]
    rw [if_neg (by omega), equal_iff (latin1_of_units (sign_units env nonce issuedAt))]
    exact hmac

/-- A minted token is valid for exactly its lifetime. -/
theorem isValid_mint_iff {now : ℤ} {m : Mint} :
    isValid env now (mint env m) = true ↔ now - env.ttlMs ≤ m.issuedAt ∧ m.issuedAt ≤ now := by
  rw [isValid_iff]
  constructor
  · rintro ⟨nonce, issuedAt, mac, issued, hsegments, hissued, hlow, hhigh, -⟩
    rw [segments_mint] at hsegments
    obtain ⟨rfl, rfl, rfl⟩ : m.nonce = nonce ∧ m.issuedAtText = issuedAt ∧ _ = mac := by
      simpa using hsegments
    rw [Mint.issuedAtText, parseInt_intText] at hissued
    obtain rfl := Option.some.inj hissued
    exact ⟨hlow, hhigh⟩
  · rintro ⟨hlow, hhigh⟩
    exact ⟨_, _, _, m.issuedAt, segments_mint env m, parseInt_intText _, hlow, hhigh, rfl⟩

theorem nonempty_eq_some {value : Option JsString} {s : JsString} :
    nonempty value = some s ↔ value = some s ∧ s ≠ [] := by
  simp [nonempty, Option.filter_eq_some_iff]

/-- A request that a browser may have been made to send: it may change something and carries no
credentials but the cookies. -/
def Protected (request : Request) : Prop :=
  safeMethod request.method = false ∧ exempt env request = false

/-- **Which protected requests pass.** -/
theorem use_result_iff {visit : Visit} (hprotected : Protected env visit.request) :
    (use env visit).result = .ok () ↔
      ∃ header, presented env visit.request = some header ∧ header.text ≠ []
        ∧ readCookie visit.request env.cookieName = .ok (some header.text)
        ∧ isValid env visit.now header.text = true := by
  obtain ⟨hmethod, hexempt⟩ := hprotected
  rw [use]
  cases hcookie : readCookie visit.request env.cookieName with
  | error rejection =>
      constructor
      · intro h
        cases h
      · rintro ⟨header, -, -, h, -⟩
        cases h
  | ok existing =>
      show check env visit.request visit.now existing = .ok () ↔ _
      rw [check, hmethod, hexempt, if_neg Bool.false_ne_true, if_neg Bool.false_ne_true]
      cases hexisting : nonempty existing with
      | none =>
          constructor
          · intro h
            cases h
          · rintro ⟨header, -, hne, hok, -⟩
            have hsame : existing = some header.text := Except.ok.inj hok
            rw [nonempty_eq_some.mpr ⟨hsame, hne⟩] at hexisting
            cases hexisting
      | some cookieToken =>
          obtain ⟨rfl, -⟩ := nonempty_eq_some.mp hexisting
          cases htoken : nonempty ((presented env visit.request).map (·.text)) with
          | none =>
              constructor
              · intro h
                cases h
              · rintro ⟨header, hheader, hne, -, -⟩
                rw [hheader, Option.map_some, nonempty_eq_some.mpr ⟨rfl, hne⟩] at htoken
                cases htoken
          | some token =>
              obtain ⟨hmap, hne⟩ := nonempty_eq_some.mp htoken
              obtain ⟨header, hheader, rfl⟩ := Option.map_eq_some_iff.mp hmap
              show (if isValid env visit.now header.text = false ∨ equal cookieToken header.text
                = false then _ else _) = _ ↔ _
              simp only [← Bool.not_eq_true, ← not_and_or, equal_iff header.latin1, ite_not]
              constructor
              · intro h
                split_ifs at h with hchecks
                exact ⟨header, hheader, hne, by rw [hchecks.2], hchecks.1⟩
              · rintro ⟨header', hheader', -, hok, hvalid⟩
                obtain rfl := Option.some.inj (hheader.symm.trans hheader')
                rw [if_pos ⟨hvalid, Option.some.inj (Except.ok.inj hok)⟩]

end Checks

/-! ### Exactly the minted tokens pass -/

/-- The first three segments of a token, joined again. -/
def firstThree (token : JsString) : JsString :=
  [unit '.'].intercalate ((token.splitOn (unit '.')).take 3)

section Passing

variable (env : Env)

/-- Only what `sign` computed for a minted token validates. -/
def Unforged (history : List Visit) (visit : Visit) : Prop :=
  ∀ header nonce issuedAt mac, presented env visit.request = some header →
    segments header.text = some (nonce, issuedAt, mac) →
    equal mac (sign env nonce issuedAt) = true →
    ∃ m ∈ mintedIn env (history ++ [visit]),
      equal mac (sign env m.nonce m.issuedAtText) = true

/-- The client sends a token as the header and, percent-encoded, as the cookie among other
well-formed cookies of different names; a cookie parser in front finds nothing else. -/
structure Sends (request : Request) (token : JsString) : Prop where
  header : (presented env request).map (·.text) = some token
  cookie : ∃ (before after : List Cookie) (own : Cookie) (header : HeaderText),
    request.headers (js "cookie") = some (.one header)
      ∧ header.text = cookieHeader (before ++ own :: after)
      ∧ own.name = env.cookieName ∧ decodeURIComponent own.value = some token
      ∧ ∀ cookie ∈ before ++ after, cookie.name ≠ env.cookieName
  parsed : ∀ parsed value, request.cookies = some parsed → parsed env.cookieName = some value →
    value = [] ∨ value = token

/-- The cookie of a passing request is the token in its header, and its first three segments are a
token that `mint` produced within the lifetime. -/
def Genuine (history : List Visit) (visit : Visit) : Prop :=
  ∃ header, presented env visit.request = some header
    ∧ readCookie visit.request env.cookieName = .ok (some header.text)
    ∧ ∃ m ∈ mintedIn env (history ++ [visit]), visit.now - env.ttlMs ≤ m.issuedAt
      ∧ m.issuedAt ≤ visit.now ∧ firstThree header.text = mint env m

variable {env}

/-- A message determines its two parts. -/
theorem message_inj {nonce nonce' issuedAt issuedAt' : JsString} (h : unit '.' ∉ nonce)
    (h' : unit '.' ∉ nonce') (heq : message nonce issuedAt = message nonce' issuedAt') :
    nonce = nonce' ∧ issuedAt = issuedAt' :=
  append_cons_inj h h' heq

theorem latin1_mint (env : Env) (m : Mint) : ∀ u ∈ mint env m, u.toNat < 256 := by
  intro u hu
  have hnat := toNat_of_mem_mint env m hu
  omega

theorem latin1_message (env : Env) (m : Mint) :
    ∀ u ∈ message m.nonce m.issuedAtText, u.toNat < 256 := fun u hu =>
  latin1_mint env m u (List.mem_append_left _ hu)

theorem genuine_of_passes (hinj : Function.Injective (env.hmac (utf8Encode env.secret)))
    {history : List Visit} {visit : Visit} (hprotected : Protected env visit.request)
    (hunforged : Unforged env history visit) (h : (use env visit).result = .ok ()) :
    Genuine env history visit := by
  obtain ⟨header, hheader, -, hread, hvalid⟩ := (use_result_iff env hprotected).mp h
  obtain ⟨nonce, issuedAt, mac, issued, hsegments, hissued, hlow, hhigh, hmac⟩ :=
    (isValid_iff env).mp hvalid
  have hplain : ∀ nonce issuedAt, ∀ u ∈ sign env nonce issuedAt, u.toNat < 256 := fun _ _ =>
    latin1_of_units (sign_units env _ _)
  obtain ⟨m, hm, hmint⟩ := hunforged header nonce issuedAt mac hheader hsegments
    ((equal_iff (hplain _ _)).mpr hmac)
  rw [equal_iff (hplain _ _)] at hmint
  have hsign : sign env nonce issuedAt = sign env m.nonce m.issuedAtText := hmac.symm.trans hmint
  have hbytes : utf8Encode (message nonce issuedAt)
      = utf8Encode (message m.nonce m.issuedAtText) := hinj (hexText_inj hsign)
  have hmessage : message nonce issuedAt = message m.nonce m.issuedAtText :=
    (equal_iff (latin1_message env m)).mp (decide_eq_true (congrArg ByteArray.data hbytes))
  obtain ⟨rest, hsplit⟩ := segments_eq_some hsegments
  have hpiece : nonce ∈ header.text.splitOn (unit '.') := by
    rw [hsplit]
    exact List.mem_cons_self ..
  have hpoint : unit '.' ∉ nonce := notMem_of_mem_splitOn hpiece
  obtain ⟨rfl, rfl⟩ := message_inj hpoint (point_notMem (nonce_units m)) hmessage
  rw [Mint.issuedAtText, parseInt_intText] at hissued
  obtain rfl := Option.some.inj hissued
  refine ⟨header, hheader, hread, m, hm, hlow, hhigh, ?_⟩
  rw [firstThree, hsplit, hmint]
  show [unit '.'].intercalate [m.nonce, m.issuedAtText, sign env m.nonce m.issuedAtText] = _
  rw [← splitOn_mint, List.intercalate_splitOn]

/-- Every unit of the cookie's value that is no part of an escape is a unit of the token. -/
theorem plain_of_decoded {m : Mint} {encoded : JsString} {u : CodeUnit}
    (h : decodeURIComponent encoded = some (mint env m)) (hu : u ∈ encoded) :
    isSpace u = false := by
  by_contra hspace
  rw [Bool.not_eq_false] at hspace
  have hrange : u.toNat < 33 ∨ 127 ≤ u.toNat := by
    by_contra hvisible
    rw [isSpace_of_visible (by omega) (by omega)] at hspace
    cases hspace
  have hpercent : u ≠ unit '%' := by
    rintro rfl
    revert hspace
    decide
  have hdigit : hexDigitValue u = none := by
    cases hvalue : hexDigitValue u with
    | none => rfl
    | some n =>
        have hnat := toNat_of_hexDigitValue hvalue
        omega
  have hnat := toNat_of_mem_mint env m (mem_of_mem_encoded h hu hpercent hdigit)
  omega

/-- What a client that sends a token has in its cookie. -/
theorem readCookie_of_sends {request : Request} {m : Mint} (h : Sends env request (mint env m)) :
    readCookie request env.cookieName = .ok (some (mint env m)) := by
  rw [readCookie]
  cases hparsed : nonempty (request.cookies.bind fun parsed => parsed env.cookieName) with
  | some value =>
      obtain ⟨hbind, hne⟩ := nonempty_eq_some.mp hparsed
      obtain ⟨parsed, hcookies, hvalue⟩ := Option.bind_eq_some_iff.mp hbind
      rcases h.parsed parsed value hcookies hvalue with hempty | rfl
      · exact absurd hempty hne
      · rfl
  | none =>
      obtain ⟨before, after, own, header, hheader, htext, hname, hdecode, hothers⟩ := h.cookie
      have hcookies : before ++ own :: after ≠ [] := by simp
      have hfind : (before ++ own :: after).find? (fun c => decide (c.name = env.cookieName))
          = some own := by
        have hbefore : before.find? (fun c => decide (c.name = env.cookieName)) = none := by
          rw [List.find?_eq_none]
          intro cookie hcookie
          simpa using hothers cookie (List.mem_append_left _ hcookie)
        rw [List.find?_append, hbefore, List.find?_cons_of_pos (by simpa using hname)]
        rfl
      have hvalue : own.value.rdropWhile isSpace = own.value :=
        List.rdropWhile_eq_self_iff.mpr fun hne => by
          simp [plain_of_decoded hdecode (List.getLast_mem hne)]
      have hcookie : findCookie env.cookieName header.text = some own.value := by
        rw [htext, findCookie_cookieHeader env.cookieName hcookies, hfind, Option.map_some, hvalue]
      have hne : header.text ≠ [] := by
        rw [htext]
        exact cookieHeader_ne hcookies
      simp only [hheader, hcookie, hdecode]
      rw [if_neg hne]

/-- **CSRF tokens: exactly the minted ones pass, for exactly their lifetime.**  Nothing is assumed
of the clock. -/
theorem minted_tokens_pass (env : Env)
    (hinj : Function.Injective (env.hmac (utf8Encode env.secret))) (history : List Visit)
    (visit : Visit) (hprotected : Protected env visit.request)
    (hunforged : Unforged env history visit) :
    ((use env visit).result = .ok () → Genuine env history visit)
      ∧ ∀ m ∈ mintedIn env history, visit.now - env.ttlMs ≤ m.issuedAt → m.issuedAt ≤ visit.now →
        Sends env visit.request (mint env m) → (use env visit).result = .ok () := by
  refine ⟨genuine_of_passes hinj hprotected hunforged, fun m _ hlow hhigh hsends => ?_⟩
  obtain ⟨header, hheader, htext⟩ := Option.map_eq_some_iff.mp hsends.header
  have hne : mint env m ≠ [] := by
    simp [mint, message]
  rw [use_result_iff env hprotected]
  refine ⟨header, hheader, by rw [htext]; exact hne, ?_, ?_⟩
  · rw [htext]
    exact readCookie_of_sends hsends
  · rw [htext]
    exact (isValid_mint_iff env).mpr ⟨hlow, hhigh⟩

end Passing

/-! A browser fetches a token and posts it back among two other cookies. -/

/-- An injective digest with the value HMAC-SHA256 has on the message of the token. -/
def fixtureHmac (_key text : ByteArray) : List UInt8 :=
  if text.data.toList
      = (utf8Encode (js "000102030405060708090a0b0c0d0e0f.1700000000000")).data.toList then
    [0xc5, 0xb4, 0x8c, 0x0f, 0xb4, 0x43, 0x86, 0xa3, 0xdf, 0xc1, 0x59, 0x71, 0x5f, 0x96, 0xa3, 0x1c,
     0xb2, 0xda, 0xdf, 0x0a, 0x76, 0x4e, 0x9c, 0xdb, 0x9e, 0xd7, 0x4a, 0x34, 0xcc, 0x70, 0x8f, 0x78]
  else List.replicate 33 0 ++ text.data.toList

theorem fixtureHmac_injective (key : ByteArray) : Function.Injective (fixtureHmac key) := by
  have hrecorded : fixtureHmac key = recordedDigest [(_, _)] :=
    funext fun text => (recordedDigest_singleton _ _ text).symm
  rw [hrecorded]
  exact recordedDigest_injective (List.nodup_singleton _) (by simp)

def fixtureEnv : Env where
  hmac := fixtureHmac
  secret := js "test-csrf-secret"
  cookieName := js "a2a.csrf"
  headerName := js "x-csrf-token"
  apiKeyHeader := js "x-api-key"
  ttlMs := 3600000
  production := false
  digest_ne key text := by
    rw [fixtureHmac]
    split_ifs
    · exact List.cons_ne_nil _ _
    · exact List.cons_ne_nil _ _

def fixtureMint : Mint where
  randomBytes := [0, 1, 2, 3, 4, 5, 6, 7, 8, 9, 10, 11, 12, 13, 14, 15]
  issuedAt := 1700000000000
  size := rfl

/-- The first visit, without cookies. -/
def fetchVisit : Visit where
  request := ⟨js "GET", fun _ => none, none⟩
  before := 1700000000000
  fresh := fixtureMint
  now := 1700000000000

def fixtureToken : JsString :=
  js "000102030405060708090a0b0c0d0e0f.1700000000000."
    ++ js "c5b48c0fb44386a3dfc159715f96a31cb2dadf0a764e9cdb9ed74a34cc708f78"

theorem mint_fixture : mint fixtureEnv fixtureMint = fixtureToken := by decide +kernel

/-- A cookie given by its texts. -/
def cookieOf (name value : JsString) (hne : name ≠ [])
    (hname : name.all (fun u => u != unit '=' && u != unit ';' && !isSpace u) = true)
    (hvalue : value.all (· != unit ';') = true) : Cookie where
  name := name
  value := value
  name_ne := hne
  name_plain u hu := by simpa [and_assoc] using List.all_eq_true.mp hname u hu
  value_plain h := by simpa using List.all_eq_true.mp hvalue _ h

theorem fixtureToken_plain : fixtureToken.all (· != unit ';') = true := by decide

def fixtureCookies : List Cookie :=
  [cookieOf (js "theme") (js "dark") (by decide) (by decide) (by decide),
    cookieOf (js "a2a.csrf") fixtureToken (by decide) (by decide) fixtureToken_plain,
    cookieOf (js "lang") (js "en") (by decide) (by decide) (by decide)]

def headerOf (text : JsString) (h : text.all (fun u => decide (u.toNat < 256)) = true) :
    HeaderText where
  text := text
  latin1 u hu := by simpa using List.all_eq_true.mp h u hu

theorem fixtureToken_latin1 : fixtureToken.all (fun u => decide (u.toNat < 256)) = true := by
  decide

theorem fixtureCookies_latin1 :
    (cookieHeader fixtureCookies).all (fun u => decide (u.toNat < 256)) = true := by
  decide

/-- The token comes back eight minutes later. -/
def postVisit : Visit where
  request :=
    { method := js "POST"
      headers := fun name =>
        if name = js "x-csrf-token" then some (.one (headerOf fixtureToken fixtureToken_latin1))
        else if name = js "cookie" then
          some (.one (headerOf (cookieHeader fixtureCookies) fixtureCookies_latin1))
        else none
      cookies := none }
  before := 1700000480000
  fresh := { fixtureMint with issuedAt := 1700000480000 }
  now := 1700000480000

theorem fixtureMint_mem (history : List Visit) :
    fixtureMint ∈ mintedIn fixtureEnv (fetchVisit :: history) :=
  List.mem_filterMap.mpr ⟨fetchVisit, List.mem_cons_self .., rfl⟩

theorem presented_fixture :
    presented fixtureEnv postVisit.request = some (headerOf fixtureToken fixtureToken_latin1) := rfl

theorem sends_fixture : Sends fixtureEnv postVisit.request (mint fixtureEnv fixtureMint) where
  header := by
    rw [presented_fixture, mint_fixture]
    rfl
  cookie := by
    refine ⟨[cookieOf (js "theme") (js "dark") (by decide) (by decide) (by decide)],
      [cookieOf (js "lang") (js "en") (by decide) (by decide) (by decide)],
      cookieOf (js "a2a.csrf") fixtureToken (by decide) (by decide) fixtureToken_plain,
      headerOf (cookieHeader fixtureCookies) fixtureCookies_latin1, rfl, rfl, rfl, ?_, ?_⟩
    · rw [mint_fixture]
      exact decodeURIComponent_of_noPercent (by decide)
    · intro cookie hcookie
      have hname : cookie.name = js "theme" ∨ cookie.name = js "lang" := by
        rcases List.mem_cons.mp hcookie with rfl | hcookie
        · exact .inl rfl
        · rw [List.mem_singleton.mp hcookie]
          exact .inr rfl
      rcases hname with hname | hname
      · rw [hname]
        decide
      · rw [hname]
        decide
  parsed parsed value h := by cases h

theorem unforged_fixture : Unforged fixtureEnv [fetchVisit] postVisit := by
  intro header nonce issuedAt mac hheader hsegments hmac
  rw [presented_fixture] at hheader
  obtain rfl := Option.some.inj hheader
  have hmint : segments fixtureToken = some (nonce, issuedAt, mac) := hsegments
  rw [← mint_fixture, segments_mint] at hmint
  obtain ⟨rfl, rfl, rfl⟩ := by simpa using hmint
  exact ⟨fixtureMint, fixtureMint_mem [postVisit], hmac⟩

theorem minted_tokens_pass_fixture :
    (use fixtureEnv postVisit).result = .ok () ∧ Genuine fixtureEnv [fetchVisit] postVisit := by
  have hpass := minted_tokens_pass fixtureEnv (fixtureHmac_injective (utf8Encode fixtureEnv.secret))
    [fetchVisit] postVisit ⟨by decide, by decide⟩ unforged_fixture
  have hresult := hpass.2 fixtureMint (fixtureMint_mem []) (by decide) (by decide) sends_fixture
  exact ⟨hresult, hpass.1 hresult⟩

end A2aAgentLayer.Common.CsrfMiddleware
