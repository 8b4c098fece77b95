import A2aAgentLayer.Auth.RefreshRuns

/-!
# Refresh tokens are used once

When `refreshExpiresIn` is a simple duration, the fallback of `revoke` reaches as far as the expiry
of any refresh token issued so far.  So every call of `revoke` without an expiry, or with the
token's own, is sound, and the invariant of the runs applies.
-/

namespace A2aAgentLayer.Auth.SingleUse

open A2aAgentLayer.Lib.Utf16 A2aAgentLayer.Lib.Run
open A2aAgentLayer.Auth.RefreshToken A2aAgentLayer.Auth.RefreshRuns

variable {Digest : Type}

/-- The JWT library reads `<digits><s|m|h|d>` as that many units, if it reads it at all. -/
def ReadsSimpleSpans (timespan : JsString → Option ℤ) : Prop :=
  ∀ digits u n span, digits ≠ [] → (∀ d ∈ digits, isDigitUnit d = true) → unitSeconds u = some n →
    timespan (digits ++ [u]) = some span → span = readNat digits * n

theorem parseExpiresIn_of_timespan {timespan : JsString → Option ℤ} {value : JsString} {span : ℤ}
    (hreads : ReadsSimpleSpans timespan) (hvalue : SimpleSpan value)
    (hspan : timespan value = some span) : parseExpiresIn value = span := by
  obtain ⟨digits, u, n, rfl, hne, hdigits, hu⟩ := hvalue
  rw [parseExpiresIn_simple hne hdigits hu, hreads digits u n span hne hdigits hu hspan]

/-- The fallback of `revoke` reaches as far as the library's reading of `refreshExpiresIn`. -/
def Covers (cfg : Config Digest) : Prop :=
  ∀ span, cfg.timespan cfg.refreshExpiresIn = some span →
    span ≤ parseExpiresIn cfg.refreshExpiresIn

theorem covers_of_simple {cfg : Config Digest} (hreads : ReadsSimpleSpans cfg.timespan)
    (hspan : SimpleSpan cfg.refreshExpiresIn) : Covers cfg := by
  intro span htimespan
  rw [parseExpiresIn_of_timespan hreads hspan htimespan]

/-! ### Expiry of the refresh tokens issued so far -/

/-- No refresh token outlives a fallback that starts now. -/
def Dated (cfg : Config Digest) (signed : List Claims) (now : ℤ) : Prop :=
  ∀ c ∈ signed, c.jti ≠ none → c.exp ≤ unixSeconds now + parseExpiresIn cfg.refreshExpiresIn

theorem Dated.later {cfg : Config Digest} {signed : List Claims} {now later : ℤ}
    (h : Dated cfg signed now) (hle : now ≤ later) : Dated cfg signed later := fun c hc hjti =>
  (h c hc hjti).trans (Int.add_le_add_right (unixSeconds_mono hle) _)

theorem Dated.issueTokenPair {cfg : Config Digest} (hcovers : Covers cfg) {signed : List Claims}
    {now accessAt refreshAt : ℤ} (h : Dated cfg signed now) (hnow : now ≤ refreshAt)
    (payload : JwtPayload) (jti : JsString) :
    Dated cfg (issueTokenPair cfg signed payload accessAt refreshAt jti).1 refreshAt := by
  intro c hc hjti
  rcases issueTokenPair_cases cfg signed payload accessAt refreshAt jti with
    heq | ⟨access, haccess, heq | ⟨refresh, hrefresh, heq⟩⟩
  · rw [heq] at hc
    exact h.later hnow c hc hjti
  · rw [heq] at hc
    rcases List.mem_append.mp hc with hc | hc
    · exact h.later hnow c hc hjti
    · rw [List.mem_singleton.mp hc] at hjti
      exact absurd (sign_eq_some haccess).1 hjti
  · rw [heq] at hc
    simp only [List.mem_append, List.mem_cons, List.not_mem_nil, or_false] at hc
    rcases hc with hc | rfl | rfl
    · exact h.later hnow c hc hjti
    · exact absurd (sign_eq_some haccess).1 hjti
    · obtain ⟨-, -, span, htimespan, hexp⟩ := sign_eq_some hrefresh
      rw [hexp]
      exact Int.add_le_add_left (hcovers span htimespan) _

theorem signed_of_consumed {s : State Digest} (h : Issued s) {claims : Claims}
    (hc : Consumed Returned s.log (.jwt claims) ∨ Returned s.log (.jwt claims)) :
    claims ∈ s.service.signed := by
  have hjwt : ∃ c, Token.jwt claims = .jwt c ∧ c ∈ s.service.signed := by
    rcases hc with (haccepted | ⟨xs, ys, hlog, o, ho, hreturned⟩) | hreturned
    · exact h.accepted _ haccepted
    · have hmem : o ∈ s.log := hlog ▸ List.mem_append_left _ ho
      obtain ⟨c, hc, hsigned, -⟩ := h.returned _ ⟨o, hmem, hreturned⟩
      exact ⟨c, hc, hsigned⟩
    · obtain ⟨c, hc, hsigned, -⟩ := h.returned _ hreturned
      exact ⟨c, hc, hsigned⟩
  obtain ⟨c, hc, hsigned⟩ := hjwt
  obtain rfl := Token.jwt.inj hc
  exact hsigned

variable [DecidableEq Digest]

theorem dated_step {cfg : Config Digest} (hcovers : Covers cfg) (s : State Digest) (e : Event)
    (t : State Digest) (h : Dated cfg s.service.signed s.now) (hstep : step cfg s e = some t) :
    Dated cfg t.service.signed t.now := by
  cases e with
  | issueTokenPair payload accessAt refreshAt jti =>
      obtain ⟨⟨hnow, hle⟩, rfl⟩ := step_issue.mp hstep
      exact h.issueTokenPair hcovers (hnow.trans hle) payload jti
  | rotate token clock jti =>
      obtain ⟨⟨hnow, hverify, hrevoke, haccess, hrefresh⟩, rfl⟩ := step_rotate.mp hstep
      have hend : s.now ≤ clock.refreshAt :=
        hnow.trans (hverify.trans (hrevoke.trans (haccess.trans hrefresh)))
      rcases rotate_cases cfg s.service token clock jti with heq | ⟨c₀, -, -, -, -, heq⟩
      · rw [heq]
        exact h.later hend
      · rw [heq]
        exact h.issueTokenPair hcovers hend c₀.payload jti
  | revoke token expiresAtSeconds revokedAt =>
      obtain ⟨hnow, rfl⟩ := step_revoke.mp hstep
      exact h.later hnow
  | isRevoked token now =>
      obtain ⟨hnow, rfl⟩ := step_isRevoked.mp hstep
      exact h.later hnow

/-- A call of `revoke` that names an expiry names the token's own. -/
def RevokesOwnExpiry (es : List Event) : Prop :=
  ∀ token expiresAtSeconds revokedAt, .revoke token (some expiresAtSeconds) revokedAt ∈ es →
    ∀ claims, token = .jwt claims → expiresAtSeconds = claims.exp

theorem soundRevoke_of_dated {cfg : Config Digest} {s t : State Digest} {e : Event}
    (hissued : Issued s) (h : Dated cfg s.service.signed s.now) (hown : RevokesOwnExpiry [e])
    (hstep : step cfg s e = some t) : SoundRevoke cfg Returned s e := by
  rintro claims expiresAtSeconds revokedAt rfl hjti hconsumed
  obtain ⟨hnow, -⟩ := step_revoke.mp hstep
  cases expiresAtSeconds with
  | none => exact h.later hnow claims (signed_of_consumed hissued hconsumed) hjti
  | some expiresAtSeconds =>
      exact (hown _ _ _ (List.mem_singleton_self _) claims rfl).ge

theorem allSteps_soundRevoke {cfg : Config Digest} (hcovers : Covers cfg) {since : ℤ}
    {es : List Event} {s : State Digest} (hrun : run (step cfg) (initial since) es = some s)
    (hown : RevokesOwnExpiry es) :
    AllSteps (step cfg) (SoundRevoke cfg Returned) (initial since) es := by
  rintro ps e qs m rfl hm
  obtain ⟨m', _, hm', hstep, -⟩ := run_split (step cfg) hrun
  obtain rfl := Option.some.inj (hm'.symm.trans hm)
  have hdated : Dated cfg m'.service.signed m'.now :=
    run_invariant (step cfg) (dated_step hcovers)
      (fun c hc => absurd hc List.not_mem_nil) hm
  refine soundRevoke_of_dated (issued hm) hdated (fun token at' revokedAt hmem => ?_) hstep
  rw [List.mem_singleton] at hmem
  exact hown token at' revokedAt (hmem ▸ List.mem_append_right _ (List.mem_cons_self ..))

/-- What `tracked` says of a token that a call returned. -/
theorem singleUse_of_covers {cfg : Config Digest} (hcovers : Covers cfg) (hhash : HashesApart cfg)
    {since : ℤ} {es : List Event} {s : State Digest}
    (hrun : run (step cfg) (initial since) es = some s) (hown : RevokesOwnExpiry es) (token : Token)
    (hreturned : Returned s.log token) :
    s.log.countP (accepts token) ≤ 1
      ∧ ∀ xs ys, s.log = xs ++ .revoked token :: ys → Returned xs token →
        ∀ o ∈ ys, accepts token o = false := by
  have inv := tracked hhash since es s hrun (allSteps_soundRevoke hcovers hrun hown)
  obtain ⟨claims, rfl, -, hjti⟩ := (issued hrun).returned token hreturned
  constructor
  · refine countP_le_one fun xs o ys hlog ho o' ho' => ?_
    rw [Bool.eq_false_iff]
    exact fun ha => inv.fresh xs o ys claims hjti hlog ho (.inl ⟨o', ho', ha⟩)
  · intro xs ys hlog hxs o ho
    obtain ⟨ys₁, ys₂, rfl⟩ := List.append_of_mem ho
    rw [Bool.eq_false_iff]
    refine fun ha => inv.fresh (xs ++ .revoked (.jwt claims) :: ys₁) o ys₂ claims hjti ?_ ha
      (.inr ⟨xs, ys₁, rfl, hxs⟩)
    rw [hlog, List.append_assoc, List.cons_append]

/-! ### The main result -/

/-- **Single use.**  When `refreshExpiresIn` is a simple duration and `revoke` is called without an
expiry or with the token's own, every refresh token returned in a run is accepted at most once, and
not at all after a call of `revoke` on it. -/
theorem refreshToken_singleUse {cfg : Config Digest} (hreads : ReadsSimpleSpans cfg.timespan)
    (hspan : SimpleSpan cfg.refreshExpiresIn) (hhash : HashesApart cfg) {since : ℤ}
    {es : List Event} {s : State Digest} (hrun : run (step cfg) (initial since) es = some s)
    (hown : RevokesOwnExpiry es) (token : Token) (hreturned : Returned s.log token) :
    s.log.countP (accepts token) ≤ 1
      ∧ ∀ xs ys, s.log = xs ++ .revoked token :: ys → Returned xs token →
        ∀ o ∈ ys, accepts token o = false := by
  have hcovers : Covers cfg := covers_of_simple hreads hspan
  exact singleUse_of_covers hcovers hhash hrun hown token hreturned

/-- An hour and seven days; the digest of a token is the token. -/
def weekly : Config Token :=
  { accessExpiresIn := js "1h"
    refreshExpiresIn := js "7d"
    timespan := fun value => some (parseExpiresIn value)
    hashToken := id }

/-- The refresh token of a login at the given second. -/
def loginToken (second : ℤ) (jti : JsString) : Token :=
  .jwt ⟨⟨js "agent-1", js "did:prom:agent-1", js "agent"⟩, some jti, second, second + 604800⟩

/-- A login, two rotations of its refresh token, a revocation of the new one and its rotation. -/
def loginAndReuse : List Event :=
  [ .issueTokenPair ⟨js "agent-1", js "did:prom:agent-1", js "agent"⟩ 0 0 (js "aa"),
    .rotate (loginToken 0 (js "aa")) ⟨5000, 5000, 5000, 5000, 5000⟩ (js "bb"),
    .rotate (loginToken 0 (js "aa")) ⟨6000, 6000, 6000, 6000, 6000⟩ (js "cc"),
    .revoke (loginToken 5 (js "bb")) none 7000,
    .rotate (loginToken 5 (js "bb")) ⟨8000, 8000, 8000, 8000, 8000⟩ (js "dd") ]

theorem readsSimpleSpans_weekly : ReadsSimpleSpans weekly.timespan := by
  intro digits u n span hne hdigits hu hspan
  rw [← Option.some.inj hspan, parseExpiresIn_simple hne hdigits hu]

theorem refreshToken_singleUse_loginAndReuse : ∃ s,
    run (step weekly) (initial 0) loginAndReuse = some s
      ∧ s.log.countP (accepts (loginToken 0 (js "aa"))) = 1
      ∧ (s.log.countP (accepts (loginToken 0 (js "aa"))) ≤ 1
        ∧ ∀ xs ys, s.log = xs ++ .revoked (loginToken 0 (js "aa")) :: ys →
          Returned xs (loginToken 0 (js "aa")) →
          ∀ o ∈ ys, accepts (loginToken 0 (js "aa")) o = false) := by
  obtain ⟨s, hs⟩ := Option.isSome_iff_exists.mp
    (by decide : (run (step weekly) (initial 0) loginAndReuse).isSome = true)
  have hlog : (run (step weekly) (initial 0) loginAndReuse).map (fun s =>
      (s.log.countP (accepts (loginToken 0 (js "aa"))),
        decide (Returned s.log (loginToken 0 (js "aa"))))) = some (1, true) := by decide
  rw [hs, Option.map_some, Option.some.injEq, Prod.mk.injEq, decide_eq_true_eq] at hlog
  have hown : RevokesOwnExpiry loginAndReuse := by
    intro token expiresAtSeconds revokedAt hmem
    simp [loginAndReuse] at hmem
  exact ⟨s, hs, hlog.1, refreshToken_singleUse readsSimpleSpans_weekly
    ⟨js "7", unit 'd', 86400, by decide, by decide, List.all_eq_true.mp (by decide), by decide⟩
    (fun _ _ h => h.symm) hs hown _ hlog.2⟩

end A2aAgentLayer.Auth.SingleUse
