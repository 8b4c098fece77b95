import Mathlib.Algebra.Order.Group.Int
import A2aAgentLayer.Lib.KeyedStore
import A2aAgentLayer.Lib.Utf16

/-!
# Refresh tokens

`issueTokenPair` signs an access token and a refresh token over one payload; the refresh token
carries a random `jti` as well.  `rotate` consumes a token: it refuses a revoked one, verifies the
signature and the expiry, revokes the token and issues a new pair.  The revocation list maps token
hashes to the second at which an entry may be forgotten.

A token is the text of a set of signed claims, or any other string.  Its hash, with the type of the
digests, and how the JWT library reads a duration are parameters.  Instants are milliseconds, `iat`
and `exp` are seconds.
-/

namespace A2aAgentLayer.Auth.RefreshToken

open A2aAgentLayer.Lib.Utf16 A2aAgentLayer.Lib.KeyedStore

structure JwtPayload where
  sub : JsString
  did : JsString
  role : JsString
  deriving DecidableEq

/-- The payload of a signed token. -/
structure Claims where
  payload : JwtPayload
  jti : Option JsString
  iat : ℤ
  exp : ℤ
  deriving DecidableEq

/-- `jwt claims` is the string that signing the claims gives. -/
inductive Token where
  | jwt (claims : Claims)
  | other (text : JsString)
  deriving DecidableEq

structure TokenPair where
  accessToken : Token
  refreshToken : Token
  expiresIn : ℤ
  deriving DecidableEq

/-- `timespan` is the JWT library's reading of `expiresIn` in seconds; it may refuse the text. -/
structure Config (Digest : Type) where
  accessExpiresIn : JsString
  refreshExpiresIn : JsString
  timespan : JsString → Option ℤ
  hashToken : Token → Digest

variable {Digest : Type}

/-- Token hash to the second at which the entry can be forgotten. -/
abbrev Revoked (Digest : Type) := Store Digest ℤ

/-- What has been signed with the secret, and the revocation list. -/
structure Service (Digest : Type) where
  signed : List Claims
  revoked : Revoked Digest

/-- `Math.floor(now / 1000)`. -/
def unixSeconds (now : ℤ) : ℤ := now / 1000

theorem unixSeconds_mono {a b : ℤ} (h : a ≤ b) : unixSeconds a ≤ unixSeconds b :=
  Int.ediv_le_ediv (by decide) h

/-! ### Durations -/

/-- The units `parseExpiresIn` knows. -/
def unitSeconds (u : CodeUnit) : Option ℤ :=
  if u = unit 's' then some 1
  else if u = unit 'm' then some 60
  else if u = unit 'h' then some 3600
  else if u = unit 'd' then some 86400
  else none

/-- `/^(\d+)([smhd])$/`, and an hour for any other text. -/
def parseExpiresIn (value : JsString) : ℤ :=
  match value.takeWhile isDigitUnit, value.dropWhile isDigitUnit with
  | d :: digits, [u] => ((unitSeconds u).map fun n => (readNat (d :: digits) : ℤ) * n).getD 3600
  | _, _ => 3600

/-- `<digits><s|m|h|d>`. -/
def SimpleSpan (value : JsString) : Prop :=
  ∃ digits u n, value = digits ++ [u] ∧ digits ≠ [] ∧ (∀ d ∈ digits, isDigitUnit d = true)
    ∧ unitSeconds u = some n

theorem not_isDigit_of_unitSeconds {u : CodeUnit} {n : ℤ} (h : unitSeconds u = some n) :
    isDigitUnit u = false := by
  rw [unitSeconds] at h
  split_ifs at h with hs hm hh hd
  · rw [hs]; decide
  · rw [hm]; decide
  · rw [hh]; decide
  · rw [hd]; decide

theorem parseExpiresIn_simple {digits : JsString} {u : CodeUnit} {n : ℤ} (hne : digits ≠ [])
    (hdigits : ∀ d ∈ digits, isDigitUnit d = true) (hu : unitSeconds u = some n) :
    parseExpiresIn (digits ++ [u]) = readNat digits * n := by
  have hnot := not_isDigit_of_unitSeconds hu
  have htake : (digits ++ [u]).takeWhile isDigitUnit = digits := by
    rw [List.takeWhile_append_of_pos hdigits]
    simp [hnot]
  have hdrop : (digits ++ [u]).dropWhile isDigitUnit = [u] := by
    rw [List.dropWhile_append_of_pos hdigits]
    simp [hnot]
  obtain ⟨d, digits, rfl⟩ := List.exists_cons_of_ne_nil hne
  simp only [parseExpiresIn, htake, hdrop, hu, Option.map_some, Option.getD_some]

/-! ### The JWT library -/

/-- `jwtService.sign(payload, { expiresIn })`; the library throws on a duration it cannot read. -/
def sign (cfg : Config Digest) (payload : JwtPayload) (jti : Option JsString) (expiresIn : JsString)
    (signedAt : ℤ) : Option Claims :=
  (cfg.timespan expiresIn).map fun span =>
    { payload := payload
      jti := jti
      iat := unixSeconds signedAt
      exp := unixSeconds signedAt + span }

theorem sign_eq_some {cfg : Config Digest} {payload : JwtPayload} {jti : Option JsString}
    {expiresIn : JsString} {signedAt : ℤ} {c : Claims}
    (h : sign cfg payload jti expiresIn signedAt = some c) :
    c.jti = jti ∧ c.iat = unixSeconds signedAt
      ∧ ∃ span, cfg.timespan expiresIn = some span ∧ c.exp = unixSeconds signedAt + span := by
  obtain ⟨span, hspan, rfl⟩ := Option.map_eq_some_iff.mp h
  exact ⟨rfl, rfl, span, hspan, rfl⟩

/-- `jwtService.verify(token)`. -/
def verify (signed : List Claims) (token : Token) (verifiedAt : ℤ) : Option Claims :=
  match token with
  | .jwt claims =>
      if claims ∈ signed ∧ unixSeconds verifiedAt < claims.exp then some claims else none
  | .other _ => none

theorem verify_eq_some {signed : List Claims} {token : Token} {verifiedAt : ℤ} {claims : Claims} :
    verify signed token verifiedAt = some claims ↔
      token = .jwt claims ∧ claims ∈ signed ∧ unixSeconds verifiedAt < claims.exp := by
  cases token with
  | other text => simp [verify]
  | jwt c =>
      rw [verify, Option.ite_none_right_eq_some, Option.some.injEq, Token.jwt.injEq]
      exact ⟨fun ⟨h, heq⟩ => ⟨heq, heq ▸ h⟩, fun ⟨heq, h⟩ => ⟨heq ▸ h, heq⟩⟩

/-! ### Token pairs -/

/-- The pair, unless signing throws, and what has been signed by then. -/
def issueTokenPair (cfg : Config Digest) (signed : List Claims) (payload : JwtPayload)
    (accessAt refreshAt : ℤ) (jti : JsString) : List Claims × Option TokenPair :=
  match sign cfg payload none cfg.accessExpiresIn accessAt with
  | none => (signed, none)
  | some access =>
      match sign cfg payload (some jti) cfg.refreshExpiresIn refreshAt with
      | none => (signed ++ [access], none)
      | some refresh =>
          (signed ++ [access, refresh],
            some ⟨.jwt access, .jwt refresh, parseExpiresIn cfg.accessExpiresIn⟩)

/-- `issueTokenPair` signs nothing, an access token alone, or both tokens of the pair it returns. -/
theorem issueTokenPair_cases (cfg : Config Digest) (signed : List Claims) (payload : JwtPayload)
    (accessAt refreshAt : ℤ) (jti : JsString) :
    issueTokenPair cfg signed payload accessAt refreshAt jti = (signed, none)
      ∨ ∃ access, sign cfg payload none cfg.accessExpiresIn accessAt = some access
        ∧ (issueTokenPair cfg signed payload accessAt refreshAt jti = (signed ++ [access], none)
          ∨ ∃ refresh, sign cfg payload (some jti) cfg.refreshExpiresIn refreshAt = some refresh
            ∧ issueTokenPair cfg signed payload accessAt refreshAt jti
              = (signed ++ [access, refresh],
                some ⟨.jwt access, .jwt refresh, parseExpiresIn cfg.accessExpiresIn⟩)) := by
  cases haccess : sign cfg payload none cfg.accessExpiresIn accessAt with
  | none => exact .inl (by rw [issueTokenPair, haccess])
  | some access =>
      refine .inr ⟨access, rfl, ?_⟩
      cases hrefresh : sign cfg payload (some jti) cfg.refreshExpiresIn refreshAt with
      | none => exact .inl (by rw [issueTokenPair, haccess, hrefresh])
      | some refresh => exact .inr ⟨refresh, rfl, by rw [issueTokenPair, haccess, hrefresh]⟩

/-- The refresh token of a returned pair is what has newly been signed with a `jti`. -/
structure SignsRefresh (signed signed' : List Claims) (pair : Option TokenPair) : Prop where
  keeps : ∀ c ∈ signed, c ∈ signed'
  returned : ∀ p, pair = some p → ∃ c ∈ signed', p.refreshToken = .jwt c ∧ c.jti ≠ none
  fresh : ∀ c ∈ signed', c.jti ≠ none →
    c ∈ signed ∨ ∃ p, pair = some p ∧ p.refreshToken = .jwt c

theorem SignsRefresh.refl (signed : List Claims) : SignsRefresh signed signed none :=
  ⟨fun _ hc => hc, nofun, fun _ hc _ => .inl hc⟩

theorem signsRefresh_issueTokenPair (cfg : Config Digest) (signed : List Claims)
    (payload : JwtPayload) (accessAt refreshAt : ℤ) (jti : JsString) :
    SignsRefresh signed (issueTokenPair cfg signed payload accessAt refreshAt jti).1
      (issueTokenPair cfg signed payload accessAt refreshAt jti).2 := by
  rcases issueTokenPair_cases cfg signed payload accessAt refreshAt jti with
    h | ⟨access, haccess, h | ⟨refresh, hrefresh, h⟩⟩
  · rw [h]
    exact .refl signed
  · have hjti := (sign_eq_some haccess).1
    rw [h]
    refine ⟨fun c hc => List.mem_append_left _ hc, nofun, fun c hc hne => ?_⟩
    rcases List.mem_append.mp hc with hc | hc
    · exact .inl hc
    · rw [List.mem_singleton.mp hc, hjti] at hne
      exact absurd rfl hne
  · have hjti := (sign_eq_some haccess).1
    have hjti' := (sign_eq_some hrefresh).1
    rw [h]
    refine ⟨fun c hc => List.mem_append_left _ hc, fun p hp => ?_, fun c hc hne => ?_⟩
    · obtain rfl := Option.some.inj hp
      exact ⟨refresh, by simp, rfl, by rw [hjti']; nofun⟩
    · rcases List.mem_append.mp hc with hc | hc
      · exact .inl hc
      · simp only [List.mem_cons, List.not_mem_nil, or_false] at hc
        rcases hc with rfl | rfl
        · exact absurd hjti hne
        · exact .inr ⟨_, rfl, rfl⟩

/-- The tokens of the pair are signed at the two moments for the two configured durations. -/
def SignedAt (cfg : Config Digest) (signed : List Claims) (accessAt refreshAt : ℤ)
    (pair : TokenPair) : Prop :=
  ∃ access ∈ signed, ∃ refresh ∈ signed,
    pair.accessToken = .jwt access ∧ pair.refreshToken = .jwt refresh ∧ access.jti = none
      ∧ (∃ span, cfg.timespan cfg.accessExpiresIn = some span
        ∧ access.exp = unixSeconds accessAt + span)
      ∧ ∃ span, cfg.timespan cfg.refreshExpiresIn = some span
        ∧ refresh.exp = unixSeconds refreshAt + span

theorem signedAt_issueTokenPair {cfg : Config Digest} {signed : List Claims} {payload : JwtPayload}
    {accessAt refreshAt : ℤ} {jti : JsString} {pair : TokenPair}
    (h : (issueTokenPair cfg signed payload accessAt refreshAt jti).2 = some pair) :
    SignedAt cfg (issueTokenPair cfg signed payload accessAt refreshAt jti).1 accessAt refreshAt
      pair := by
  rcases issueTokenPair_cases cfg signed payload accessAt refreshAt jti with
    heq | ⟨access, haccess, heq | ⟨refresh, hrefresh, heq⟩⟩
  · rw [heq] at h
    cases h
  · rw [heq] at h
    cases h
  · rw [heq] at h ⊢
    obtain rfl := Option.some.inj h
    obtain ⟨hjti, -, hspan⟩ := sign_eq_some haccess
    obtain ⟨-, -, hspan'⟩ := sign_eq_some hrefresh
    exact ⟨access, by simp, refresh, by simp, rfl, rfl, hjti, hspan, hspan'⟩

/-! ### Revocation and rotation -/

/-- The entry may be forgotten. -/
def forgettable (now expiresAt : ℤ) : Bool := decide (expiresAt ≤ unixSeconds now)

theorem forgettable_later {now later : ℤ} (hle : now ≤ later) (expiresAt : ℤ)
    (h : forgettable now expiresAt = true) : forgettable later expiresAt = true := by
  rw [forgettable, decide_eq_true_eq] at h ⊢
  exact h.trans (unixSeconds_mono hle)

variable [DecidableEq Digest]

def evictExpired (revoked : Revoked Digest) (now : ℤ) : Revoked Digest :=
  evict (forgettable now) revoked

/-- The second `revoke` records. -/
def recordedExpiry (cfg : Config Digest) (expiresAtSeconds : Option ℤ) (revokedAt : ℤ) : ℤ :=
  expiresAtSeconds.getD (unixSeconds revokedAt + parseExpiresIn cfg.refreshExpiresIn)

def revoke (cfg : Config Digest) (revoked : Revoked Digest) (token : Token)
    (expiresAtSeconds : Option ℤ) (revokedAt : ℤ) : Revoked Digest :=
  revoked.insert (cfg.hashToken token) (recordedExpiry cfg expiresAtSeconds revokedAt)

def isRevoked (cfg : Config Digest) (revoked : Revoked Digest) (token : Token) (now : ℤ) :
    Revoked Digest × Bool :=
  let kept := evictExpired revoked now
  (kept, (kept.lookup (cfg.hashToken token)).isSome)

/-- The readings of the clock during a rotation. -/
structure RotationClock where
  evictAt : ℤ
  verifyAt : ℤ
  revokeAt : ℤ
  accessAt : ℤ
  refreshAt : ℤ

/-- The readings come one after another. -/
def RotationClock.Ordered (clock : RotationClock) : Prop :=
  clock.evictAt ≤ clock.verifyAt ∧ clock.verifyAt ≤ clock.revokeAt
    ∧ clock.revokeAt ≤ clock.accessAt ∧ clock.accessAt ≤ clock.refreshAt

instance (clock : RotationClock) : Decidable clock.Ordered :=
  inferInstanceAs (Decidable (_ ∧ _ ∧ _ ∧ _))

/-- A refused token is an `UnauthorizedException`; an accepted one is consumed, and its new pair is
missing when signing throws. -/
inductive Rotation where
  | refused
  | accepted (pair : Option TokenPair)
  deriving DecidableEq

def rotate (cfg : Config Digest) (sv : Service Digest) (token : Token) (clock : RotationClock)
    (jti : JsString) : Service Digest × Rotation :=
  let kept := evictExpired sv.revoked clock.evictAt
  if (kept.lookup (cfg.hashToken token)).isSome then ({ sv with revoked := kept }, .refused)
  else
    match verify sv.signed token clock.verifyAt with
    | none => ({ sv with revoked := kept }, .refused)
    | some claims =>
        let (signed, pair) :=
          issueTokenPair cfg sv.signed claims.payload clock.accessAt clock.refreshAt jti
        (⟨signed, revoke cfg kept token (some claims.exp) clock.revokeAt⟩, .accepted pair)

/-- A rotation refuses and only evicts, or it consumes valid claims that are not revoked. -/
theorem rotate_cases (cfg : Config Digest) (sv : Service Digest) (token : Token)
    (clock : RotationClock) (jti : JsString) :
    rotate cfg sv token clock jti
        = ({ sv with revoked := evictExpired sv.revoked clock.evictAt }, .refused)
      ∨ ∃ claims, token = .jwt claims ∧ claims ∈ sv.signed
        ∧ unixSeconds clock.verifyAt < claims.exp
        ∧ (evictExpired sv.revoked clock.evictAt).lookup (cfg.hashToken token) = none
        ∧ rotate cfg sv token clock jti =
          (⟨(issueTokenPair cfg sv.signed claims.payload clock.accessAt clock.refreshAt jti).1,
            (evictExpired sv.revoked clock.evictAt).insert (cfg.hashToken token) claims.exp⟩,
           .accepted (issueTokenPair cfg sv.signed claims.payload clock.accessAt
            clock.refreshAt jti).2) := by
  by_cases hrevoked :
      ((evictExpired sv.revoked clock.evictAt).lookup (cfg.hashToken token)).isSome = true
  · refine .inl ?_
    rw [rotate, if_pos hrevoked]
  · cases hverify : verify sv.signed token clock.verifyAt with
    | none =>
        refine .inl ?_
        rw [rotate, if_neg hrevoked, hverify]
    | some claims =>
        obtain ⟨htoken, hsigned, hexp⟩ := verify_eq_some.mp hverify
        refine .inr ⟨claims, htoken, hsigned, hexp, by simpa using hrevoked, ?_⟩
        rw [rotate, if_neg hrevoked, hverify]
        rfl

theorem rotate_accepts {cfg : Config Digest} {sv : Service Digest} {claims : Claims}
    {clock : RotationClock} (jti : JsString) (hsigned : claims ∈ sv.signed)
    (hvalid : unixSeconds clock.verifyAt < claims.exp)
    (habsent : (evictExpired sv.revoked clock.evictAt).lookup
      (cfg.hashToken (.jwt claims)) = none) :
    ∃ pair, (rotate cfg sv (.jwt claims) clock jti).2 = .accepted pair := by
  have hverify := verify_eq_some.mpr ⟨rfl, hsigned, hvalid⟩
  rw [rotate, habsent, Option.isSome_none, if_neg Bool.false_ne_true, hverify]
  exact ⟨_, rfl⟩

end A2aAgentLayer.Auth.RefreshToken
