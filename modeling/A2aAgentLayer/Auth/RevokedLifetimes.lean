import A2aAgentLayer.Auth.TokenDurations

/-!
# Lifetimes of tokens and of revocations

Two settings give the lifetimes of the tokens.  The JWT library reads them to sign, and the service
reads them again: `issueTokenPair` to report `expiresIn`, and `revoke` to decide how long an entry
without an expiry is kept.

The readings agree on whole seconds, minutes, hours and days in the short spelling.  On any other
text the service has an hour, so a refresh token with a longer life can be used again an hour after
it was revoked.
-/

namespace A2aAgentLayer.Auth.RevokedLifetimes

open A2aAgentLayer.Lib.Utf16 A2aAgentLayer.Lib.KeyedStore A2aAgentLayer.Lib.Run
open A2aAgentLayer.Auth.RefreshToken A2aAgentLayer.Auth.RefreshRuns
open A2aAgentLayer.Auth.SingleUse A2aAgentLayer.Auth.TokenDurations

variable {Digest : Type}

/-- The service with two settings, over the library's reading of them. -/
def withSettings (expiresIn refreshExpiresIn : JsString) (hashToken : Token → Digest) :
    Config Digest :=
  { accessExpiresIn := expiresIn
    refreshExpiresIn := refreshExpiresIn
    timespan := timespan
    hashToken := hashToken }

variable [DecidableEq Digest]

/-- The reported lifetime is the access token's; a refresh token that was returned and then revoked
keeps its entry until it expires, and is not accepted again. -/
structure ReadsAlike (cfg : Config Digest) : Prop where
  reported : ∀ signed payload accessAt refreshAt jti pair,
    (issueTokenPair cfg signed payload accessAt refreshAt jti).2 = some pair →
      ∃ access, pair.accessToken = .jwt access ∧ pair.expiresIn = access.exp - access.iat
  kept : ∀ since es s, run (step cfg) (initial since) es = some s → RevokesOwnExpiry es →
    ∀ xs ys claims, s.log = xs ++ .revoked (.jwt claims) :: ys → Returned xs (.jwt claims) →
      unixSeconds s.now < claims.exp →
        (s.service.revoked.lookup (cfg.hashToken (.jwt claims))).isSome = true
  refused : ∀ since es s, run (step cfg) (initial since) es = some s → RevokesOwnExpiry es →
    ∀ xs ys token, s.log = xs ++ .revoked token :: ys → Returned xs token →
      ∀ o ∈ ys, accepts token o = false

/-! ### The reported lifetime -/

omit [DecidableEq Digest] in
theorem issueTokenPair_eq {cfg : Config Digest} {span span' : ℤ}
    (haccess : cfg.timespan cfg.accessExpiresIn = some span)
    (hrefresh : cfg.timespan cfg.refreshExpiresIn = some span') (signed : List Claims)
    (payload : JwtPayload) (accessAt refreshAt : ℤ) (jti : JsString) :
    ∃ access refresh, issueTokenPair cfg signed payload accessAt refreshAt jti
        = (signed ++ [access, refresh],
          some ⟨.jwt access, .jwt refresh, parseExpiresIn cfg.accessExpiresIn⟩)
      ∧ access.exp - access.iat = span
      ∧ refresh.jti = some jti ∧ refresh.exp = unixSeconds refreshAt + span' := by
  refine ⟨⟨payload, none, unixSeconds accessAt, unixSeconds accessAt + span⟩,
    ⟨payload, some jti, unixSeconds refreshAt, unixSeconds refreshAt + span'⟩, ?_, ?_, rfl, rfl⟩
  · rw [issueTokenPair, sign, haccess, sign, hrefresh]
    rfl
  · exact add_sub_cancel_left _ _

omit [DecidableEq Digest] in
/-- The reported lifetime is right exactly when the two readings of `expiresIn` are one. -/
theorem reported_iff {cfg : Config Digest} {span span' : ℤ}
    (haccess : cfg.timespan cfg.accessExpiresIn = some span)
    (hrefresh : cfg.timespan cfg.refreshExpiresIn = some span') :
    (∀ signed payload accessAt refreshAt jti pair,
      (issueTokenPair cfg signed payload accessAt refreshAt jti).2 = some pair →
        ∃ access, pair.accessToken = .jwt access ∧ pair.expiresIn = access.exp - access.iat)
      ↔ parseExpiresIn cfg.accessExpiresIn = span := by
  constructor
  · intro h
    obtain ⟨access, refresh, heq, hspan, -⟩ :=
      issueTokenPair_eq haccess hrefresh [] ⟨[], [], []⟩ 0 0 []
    obtain ⟨access', htoken, hexpires⟩ := h _ _ _ _ _ _ (congrArg Prod.snd heq)
    obtain rfl := Token.jwt.inj htoken
    exact hexpires.trans hspan
  · intro h signed payload accessAt refreshAt jti pair hpair
    obtain ⟨access, refresh, heq, hspan, -⟩ :=
      issueTokenPair_eq haccess hrefresh signed payload accessAt refreshAt jti
    rw [heq] at hpair
    obtain rfl := Option.some.inj hpair
    exact ⟨access, rfl, h.trans hspan.symm⟩

/-! ### A fallback that is too short -/

/-- All readings of the clock at one moment. -/
def clockAt (now : ℤ) : RotationClock := ⟨now, now, now, now, now⟩

/-- A login, a revocation of its refresh token without an expiry, and its use later on. -/
def loginRevokeReuse (refresh : Claims) (later : ℤ) : List Event :=
  [ .issueTokenPair ⟨[], [], []⟩ 0 0 [],
    .revoke (.jwt refresh) none 0,
    .rotate (.jwt refresh) (clockAt later) [] ]

theorem log_loginRevokeReuse {cfg : Config Digest} {signed : List Claims} {pair : TokenPair}
    (hissue : issueTokenPair cfg [] ⟨[], [], []⟩ 0 0 [] = (signed, some pair)) (refresh : Claims)
    {later : ℤ} (hlater : 0 ≤ later) :
    ∃ s, run (step cfg) (initial 0) (loginRevokeReuse refresh later) = some s
      ∧ s.log =
        [ .issued (some pair), .revoked (.jwt refresh),
          .rotated (.jwt refresh) (rotate cfg ⟨signed, revoke cfg ∅ (.jwt refresh) none 0⟩
            (.jwt refresh) (clockAt later) []).2 ] := by
  obtain ⟨t₁, hlogin, hnow₁, hservice₁, hlog₁⟩ : ∃ t,
      step cfg (initial 0) (.issueTokenPair ⟨[], [], []⟩ 0 0 []) = some t ∧ t.now = 0
        ∧ t.service = ⟨signed, ∅⟩ ∧ t.log = [.issued (some pair)] := by
    refine ⟨_, step_issue.mpr ⟨⟨le_rfl, le_rfl⟩, rfl⟩, rfl, ?_, ?_⟩
    · rw [initial, hissue]
    · rw [initial, hissue]
      rfl
  obtain ⟨t₂, hrevoke, hnow₂, hservice₂, hlog₂⟩ : ∃ t,
      step cfg t₁ (.revoke (.jwt refresh) none 0) = some t ∧ t.now = 0
        ∧ t.service = ⟨signed, revoke cfg ∅ (.jwt refresh) none 0⟩
        ∧ t.log = t₁.log ++ [.revoked (.jwt refresh)] := by
    refine ⟨_, step_revoke.mpr ⟨hnow₁.le, rfl⟩, rfl, ?_, rfl⟩
    rw [hservice₁]
  obtain ⟨t₃, hrotate, hlog₃⟩ : ∃ t,
      step cfg t₂ (.rotate (.jwt refresh) (clockAt later) []) = some t
        ∧ t.log = t₂.log ++ [.rotated (.jwt refresh)
          (rotate cfg t₂.service (.jwt refresh) (clockAt later) []).2] := by
    have hordered : t₂.now ≤ later := hnow₂.le.trans hlater
    exact ⟨_, step_rotate.mpr ⟨⟨hordered, le_rfl, le_rfl, le_rfl, le_rfl⟩, rfl⟩, rfl⟩
  refine ⟨t₃, ?_, ?_⟩
  · rw [loginRevokeReuse, run_cons, hlogin, Option.bind_some, run_cons, hrevoke, Option.bind_some,
      run_cons, hrotate, Option.bind_some, run_nil]
  · rw [hlog₃, hservice₂, hlog₂, hlog₁]
    rfl

/-- **Used again after its revocation.**  When the fallback of `revoke` ends before the token does,
the token is accepted once the fallback is over. -/
theorem accepted_again {cfg : Config Digest} {span span' : ℤ}
    (haccess : cfg.timespan cfg.accessExpiresIn = some span)
    (hrefresh : cfg.timespan cfg.refreshExpiresIn = some span')
    (hpos : 0 ≤ parseExpiresIn cfg.refreshExpiresIn)
    (hshort : parseExpiresIn cfg.refreshExpiresIn < span') :
    ∃ es s token pair rotated, run (step cfg) (initial 0) es = some s ∧ RevokesOwnExpiry es
      ∧ s.log = [.issued (some pair), .revoked token, .rotated token (.accepted rotated)]
      ∧ pair.refreshToken = token := by
  obtain ⟨access, refresh, hissue, -, -, hexp⟩ :=
    issueTokenPair_eq haccess hrefresh [] ⟨[], [], []⟩ 0 0 []
  let later := parseExpiresIn cfg.refreshExpiresIn * 1000
  have hlater : unixSeconds later = parseExpiresIn cfg.refreshExpiresIn :=
    Int.mul_ediv_cancel _ (by decide)
  have hzero : unixSeconds 0 = 0 := rfl
  have habsent : (evictExpired (revoke cfg ∅ (.jwt refresh) none 0) (clockAt later).evictAt).lookup
      (cfg.hashToken (.jwt refresh)) = none := by
    rw [evictExpired, lookup_evict_eq_none]
    intro v hv
    rw [revoke, lookup_insert_self] at hv
    rw [← Option.some.inj hv, forgettable, decide_eq_true_eq]
    show unixSeconds 0 + parseExpiresIn cfg.refreshExpiresIn ≤ unixSeconds later
    rw [hlater, hzero, zero_add]
  have hvalid : unixSeconds (clockAt later).verifyAt < refresh.exp := by
    rw [hexp, hzero, zero_add]
    exact hlater.trans_lt hshort
  have hrotate : ∃ rotated, (rotate cfg
      ⟨[] ++ [access, refresh], revoke cfg ∅ (.jwt refresh) none 0⟩ (.jwt refresh) (clockAt later)
        []).2 = .accepted rotated := rotate_accepts [] (by simp) hvalid habsent
  obtain ⟨rotated, hrotated⟩ := hrotate
  obtain ⟨s, hrun, hlog⟩ := log_loginRevokeReuse hissue refresh
    (mul_nonneg hpos (by decide : (0 : ℤ) ≤ 1000))
  rw [hrotated] at hlog
  exact ⟨_, s, .jwt refresh, _, rotated, hrun, by simp [RevokesOwnExpiry, loginRevokeReuse], hlog,
    rfl⟩

/-! ### A fallback that reaches far enough -/

theorem kept_of_covers {cfg : Config Digest} (hcovers : Covers cfg) (hhash : HashesApart cfg)
    {since : ℤ} {es : List Event} {s : State Digest}
    (hrun : run (step cfg) (initial since) es = some s) (hown : RevokesOwnExpiry es)
    {xs ys : List Outcome} {claims : Claims} (hlog : s.log = xs ++ .revoked (.jwt claims) :: ys)
    (hreturned : Returned xs (.jwt claims)) (hvalid : unixSeconds s.now < claims.exp) :
    (s.service.revoked.lookup (cfg.hashToken (.jwt claims))).isSome = true := by
  have inv := tracked hhash since es s hrun (allSteps_soundRevoke hcovers hrun hown)
  obtain ⟨o, ho, hpair⟩ := hreturned
  have hmem : o ∈ s.log := hlog ▸ List.mem_append_left _ ho
  obtain ⟨c, hc, -, hjti⟩ := (issued hrun).returned _ ⟨o, hmem, hpair⟩
  obtain rfl := Token.jwt.inj hc
  have hblocked := inv.blocked claims hjti (.inr ⟨xs, ys, hlog, o, ho, hpair⟩)
  rw [Option.isSome_iff_ne_none]
  intro habsent
  obtain ⟨v, hv, hdead⟩ := Remembered.of_absent hblocked habsent
  rw [forgettable, decide_eq_true_eq] at hdead
  omega

theorem refused_of_covers {cfg : Config Digest} (hcovers : Covers cfg) (hhash : HashesApart cfg)
    {since : ℤ} {es : List Event} {s : State Digest}
    (hrun : run (step cfg) (initial since) es = some s) (hown : RevokesOwnExpiry es)
    {xs ys : List Outcome} {token : Token} (hlog : s.log = xs ++ .revoked token :: ys)
    (hreturned : Returned xs token) : ∀ o ∈ ys, accepts token o = false := by
  obtain ⟨o, ho, hpair⟩ := hreturned
  have hmem : o ∈ s.log := hlog ▸ List.mem_append_left _ ho
  exact (singleUse_of_covers hcovers hhash hrun hown token ⟨o, hmem, hpair⟩).2 xs ys hlog
    ⟨o, ho, hpair⟩

/-- **Where the readings are alike.**  For two settings that the library reads, the service and the
library agree exactly when `expiresIn` is a simple duration or an hour in another spelling, and
`refreshExpiresIn` is a simple duration or no more than an hour. -/
theorem readsAlike_iff {expiresIn refreshExpiresIn : JsString} {q q' : ℚ}
    (haccess : ms expiresIn = some q) (hrefresh : ms refreshExpiresIn = some q')
    {hashToken : Token → Digest}
    (hhash : HashesApart (withSettings expiresIn refreshExpiresIn hashToken)) :
    ReadsAlike (withSettings expiresIn refreshExpiresIn hashToken) ↔
      (SimpleSpan expiresIn ∨ 3600000 ≤ q ∧ q < 3601000)
        ∧ (SimpleSpan refreshExpiresIn ∨ q' < 3601000) := by
  let cfg := withSettings expiresIn refreshExpiresIn hashToken
  have hspan : cfg.timespan cfg.accessExpiresIn = some ⌊q / 1000⌋ := timespan_of_ms haccess
  have hspan' : cfg.timespan cfg.refreshExpiresIn = some ⌊q' / 1000⌋ := timespan_of_ms hrefresh
  rw [← parseExpiresIn_eq_iff haccess, ← le_parseExpiresIn_iff hrefresh]
  constructor
  · intro h
    refine ⟨(reported_iff hspan hspan').mp h.reported, ?_⟩
    by_contra hshort
    obtain ⟨es, s, token, pair, rotated, hrun, hown, hlog, htoken⟩ :=
      accepted_again hspan hspan' (parseExpiresIn_nonneg _) (not_le.mp hshort)
    have hreturned : Returned [.issued (some pair)] token :=
      ⟨_, List.mem_singleton_self _, pair, rfl, htoken⟩
    have hrefused := h.refused 0 es s hrun hown [.issued (some pair)] _ token hlog hreturned _
      (List.mem_singleton_self _)
    rw [accepts, decide_eq_false_iff_not] at hrefused
    exact hrefused rfl
  · rintro ⟨hequal, hle⟩
    have hcovers : Covers cfg := by
      intro span htimespan
      rw [hspan', Option.some.injEq] at htimespan
      exact htimespan ▸ hle
    exact
      { reported := (reported_iff hspan hspan').mpr hequal
        kept := fun _ _ _ hrun hown _ _ _ hlog hreturned hvalid =>
          kept_of_covers hcovers hhash hrun hown hlog hreturned hvalid
        refused := fun _ _ _ hrun hown _ _ _ hlog hreturned =>
          refused_of_covers hcovers hhash hrun hown hlog hreturned }

theorem readsAlike_weekly : ReadsAlike (withSettings (js "1h") (js "7d") (id : Token → Token)) := by
  have haccess : ms (js "1h") = some 3600000 := by decide +kernel
  have hrefresh : ms (js "7d") = some 604800000 := by decide +kernel
  have hsimple : SimpleSpan (js "7d") :=
    ⟨js "7", unit 'd', 86400, by decide, by decide, List.all_eq_true.mp (by decide), by decide⟩
  exact (readsAlike_iff haccess hrefresh fun _ _ h => h.symm).mpr
    ⟨.inr ⟨by norm_num, by norm_num⟩, .inl hsimple⟩

/-- Two days and thirty days; the digest of a token is the token. -/
def monthly : Config Token := withSettings (js "2 days") (js "30 days") id

/-- The refresh token of a login at the start, with these settings. -/
def monthlyRefresh : Claims := ⟨⟨[], [], []⟩, some [], 0, 2592000⟩

theorem monthly_reused :
    (∃ access refresh, (issueTokenPair monthly [] ⟨[], [], []⟩ 0 0 []).2
        = some ⟨.jwt access, .jwt refresh, 3600⟩ ∧ access.exp - access.iat = 172800)
      ∧ (∃ s, run (step monthly) (initial 0) (loginRevokeReuse monthlyRefresh 3600000) = some s
        ∧ s.log.map (accepts (.jwt monthlyRefresh)) = [false, false, true])
      ∧ ¬ ReadsAlike monthly := by
  have haccess : monthly.timespan monthly.accessExpiresIn = some 172800 := by decide +kernel
  have hrefresh : monthly.timespan monthly.refreshExpiresIn = some 2592000 := by decide +kernel
  have hfallback : parseExpiresIn monthly.accessExpiresIn = 3600 := by decide +kernel
  have hlog : (run (step monthly) (initial 0) (loginRevokeReuse monthlyRefresh 3600000)).map
      (fun s => s.log.map (accepts (.jwt monthlyRefresh))) = some [false, false, true] := by
    decide +kernel
  refine ⟨?_, Option.map_eq_some_iff.mp hlog, fun h => ?_⟩
  · obtain ⟨access, refresh, hissue, hspan, -⟩ :=
      issueTokenPair_eq haccess hrefresh [] ⟨[], [], []⟩ 0 0 []
    rw [hissue, hfallback]
    exact ⟨access, refresh, rfl, hspan⟩
  · have hreported := (reported_iff haccess hrefresh).mp h.reported
    rw [hfallback] at hreported
    omega

end A2aAgentLayer.Auth.RevokedLifetimes
