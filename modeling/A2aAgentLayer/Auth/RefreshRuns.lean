import A2aAgentLayer.Auth.RefreshToken
import A2aAgentLayer.Lib.Run

/-!
# Runs of the refresh-token service

Calls of `issueTokenPair`, `rotate`, `revoke` and `isRevoked` in any order.  The state keeps a log
of what each call returned, and for every token the logins (direct calls of `issueTokenPair`) it
descends from.

A refresh token is consumed once `rotate` has accepted it or `revoke` has been called on it.  As
long as no call of `revoke` records an earlier expiry than the token's own, a consumed token is
remembered until it has expired, so it is not accepted again.
-/

namespace A2aAgentLayer.Auth.RefreshRuns

open A2aAgentLayer.Lib.Utf16 A2aAgentLayer.Lib.KeyedStore A2aAgentLayer.Lib.Run
open A2aAgentLayer.Auth.RefreshToken

/-- What a call returned. -/
inductive Outcome where
  | issued (pair : Option TokenPair)
  | rotated (token : Token) (rotation : Rotation)
  | revoked (token : Token)
  | checked (token : Token) (answer : Bool)
  deriving DecidableEq

variable {Digest : Type} [DecidableEq Digest]

structure State (Digest : Type) where
  now : ℤ
  service : Service Digest
  log : List Outcome
  logins : ℕ
  lines : List (Token × ℕ)

inductive Event where
  | issueTokenPair (payload : JwtPayload) (accessAt refreshAt : ℤ) (jti : JsString)
  | rotate (token : Token) (clock : RotationClock) (jti : JsString)
  | revoke (token : Token) (expiresAtSeconds : Option ℤ) (revokedAt : ℤ)
  | isRevoked (token : Token) (now : ℤ)

def initial (since : ℤ) : State Digest := ⟨since, ⟨[], ∅⟩, [], 0, []⟩

/-- Both tokens of a pair descend from the given logins. -/
def pairLines (pair : Option TokenPair) (logins : List ℕ) : List (Token × ℕ) :=
  match pair with
  | none => []
  | some pair => logins.flatMap fun login => [(pair.accessToken, login), (pair.refreshToken, login)]

/-- The logins a token descends from. -/
def loginsOf (lines : List (Token × ℕ)) (token : Token) : List ℕ :=
  (lines.filter fun line => line.1 = token).map Prod.snd

/-- The pair a call returned. -/
def pairOf : Outcome → Option TokenPair
  | .issued pair => pair
  | .rotated _ (.accepted pair) => pair
  | _ => none

def step (cfg : Config Digest) (s : State Digest) : Event → Option (State Digest)
  | .issueTokenPair payload accessAt refreshAt jti =>
      if s.now ≤ accessAt ∧ accessAt ≤ refreshAt then
        let (signed, pair) := issueTokenPair cfg s.service.signed payload accessAt refreshAt jti
        some
          { now := refreshAt
            service := { s.service with signed := signed }
            log := s.log ++ [.issued pair]
            logins := s.logins + 1
            lines := s.lines ++ pairLines pair [s.logins] }
      else none
  | .rotate token clock jti =>
      if s.now ≤ clock.evictAt ∧ clock.Ordered then
        let (service, rotation) := rotate cfg s.service token clock jti
        some
          { s with
            now := clock.refreshAt
            service := service
            log := s.log ++ [.rotated token rotation]
            lines := s.lines ++
              pairLines (pairOf (.rotated token rotation)) (loginsOf s.lines token) }
      else none
  | .revoke token expiresAtSeconds revokedAt =>
      if s.now ≤ revokedAt then
        some
          { s with
            now := revokedAt
            service := { s.service with
              revoked := revoke cfg s.service.revoked token expiresAtSeconds revokedAt }
            log := s.log ++ [.revoked token] }
      else none
  | .isRevoked token now =>
      if s.now ≤ now then
        let (revoked, answer) := isRevoked cfg s.service.revoked token now
        some
          { s with
            now := now
            service := { s.service with revoked := revoked }
            log := s.log ++ [.checked token answer] }
      else none

/-! ### What a step does -/

theorem step_issue {cfg : Config Digest} {s t : State Digest} {payload : JwtPayload}
    {accessAt refreshAt : ℤ} {jti : JsString} :
    step cfg s (.issueTokenPair payload accessAt refreshAt jti) = some t ↔
      (s.now ≤ accessAt ∧ accessAt ≤ refreshAt) ∧ t =
        { now := refreshAt
          service := { s.service with
            signed := (issueTokenPair cfg s.service.signed payload accessAt refreshAt jti).1 }
          log := s.log ++
            [.issued (issueTokenPair cfg s.service.signed payload accessAt refreshAt jti).2]
          logins := s.logins + 1
          lines := s.lines ++
            pairLines (issueTokenPair cfg s.service.signed payload accessAt refreshAt jti).2
              [s.logins] } := by
  rw [step, Option.ite_none_right_eq_some, Option.some.injEq, eq_comm (b := t)]

theorem step_rotate {cfg : Config Digest} {s t : State Digest} {token : Token}
    {clock : RotationClock} {jti : JsString} : step cfg s (.rotate token clock jti) = some t ↔
      (s.now ≤ clock.evictAt ∧ clock.Ordered) ∧ t =
        { s with
          now := clock.refreshAt
          service := (rotate cfg s.service token clock jti).1
          log := s.log ++ [.rotated token (rotate cfg s.service token clock jti).2]
          lines := s.lines ++ pairLines
            (pairOf (.rotated token (rotate cfg s.service token clock jti).2))
            (loginsOf s.lines token) } := by
  rw [step, Option.ite_none_right_eq_some, Option.some.injEq, eq_comm (b := t)]

theorem step_revoke {cfg : Config Digest} {s t : State Digest} {token : Token}
    {expiresAtSeconds : Option ℤ} {revokedAt : ℤ} :
    step cfg s (.revoke token expiresAtSeconds revokedAt) = some t ↔
      s.now ≤ revokedAt ∧ t =
        { s with
          now := revokedAt
          service := { s.service with
            revoked := revoke cfg s.service.revoked token expiresAtSeconds revokedAt }
          log := s.log ++ [.revoked token] } := by
  rw [step, Option.ite_none_right_eq_some, Option.some.injEq, eq_comm (b := t)]

theorem step_isRevoked {cfg : Config Digest} {s t : State Digest} {token : Token} {now : ℤ} :
    step cfg s (.isRevoked token now) = some t ↔
      s.now ≤ now ∧ t =
        { s with
          now := now
          service := { s.service with revoked := evictExpired s.service.revoked now }
          log := s.log ++
            [.checked token (isRevoked cfg s.service.revoked token now).2] } := by
  rw [step, Option.ite_none_right_eq_some, Option.some.injEq, eq_comm (b := t)]
  rfl

/-! ### Consumed tokens -/

/-- The outcome is an acceptance of the token by `rotate`. -/
def accepts (token : Token) : Outcome → Bool
  | .rotated t (.accepted _) => decide (t = token)
  | _ => false

/-- Some call returned the token as `refreshToken`. -/
def Returned (log : List Outcome) (token : Token) : Prop :=
  ∃ o ∈ log, ∃ pair, pairOf o = some pair ∧ pair.refreshToken = token

instance (log : List Outcome) (token : Token) : Decidable (Returned log token) :=
  decidable_of_iff (∃ o ∈ log, (pairOf o).map TokenPair.refreshToken = some token)
    (by simp only [Option.map_eq_some_iff, Returned])

theorem returned_snoc {log : List Outcome} {o : Outcome} {token : Token} :
    Returned (log ++ [o]) token ↔
      Returned log token ∨ ∃ pair, pairOf o = some pair ∧ pair.refreshToken = token := by
  constructor
  · rintro ⟨o', ho', hpair⟩
    rcases List.mem_append.mp ho' with ho' | ho'
    · exact .inl ⟨o', ho', hpair⟩
    · exact .inr (List.mem_singleton.mp ho' ▸ hpair)
  · rintro (⟨o', ho', hpair⟩ | hpair)
    · exact ⟨o', List.mem_append_left _ ho', hpair⟩
    · exact ⟨o, List.mem_append_right _ (List.mem_singleton_self o), hpair⟩

/-- `rotate` accepted the token, or `revoke` was called on it after a moment that `counts`. -/
def Consumed (counts : List Outcome → Token → Prop) (log : List Outcome) (token : Token) : Prop :=
  (∃ o ∈ log, accepts token o = true) ∨
    ∃ xs ys, log = xs ++ .revoked token :: ys ∧ counts xs token

theorem not_consumed_nil (counts : List Outcome → Token → Prop) (token : Token) :
    ¬ Consumed counts [] token := by
  rintro (⟨o, ho, -⟩ | ⟨xs, ys, hlog, -⟩)
  · cases ho
  · simp at hlog

theorem consumed_snoc {counts : List Outcome → Token → Prop} {log : List Outcome} {o : Outcome}
    {token : Token} :
    Consumed counts (log ++ [o]) token ↔
      Consumed counts log token ∨ accepts token o = true ∨
        (o = .revoked token ∧ counts log token) := by
  constructor
  · rintro (⟨o', ho', haccepts⟩ | ⟨xs, ys, hsplit, hcounts⟩)
    · rcases List.mem_append.mp ho' with ho' | ho'
      · exact .inl (.inl ⟨o', ho', haccepts⟩)
      · rw [List.mem_singleton] at ho'
        exact .inr (.inl (ho' ▸ haccepts))
    · rcases concat_eq_append_cons.mp hsplit with ⟨-, rfl, rfl⟩ | ⟨zs, -, hsplit⟩
      · exact .inr (.inr ⟨rfl, hcounts⟩)
      · exact .inl (.inr ⟨xs, zs, hsplit, hcounts⟩)
  · rintro ((⟨o', ho', haccepts⟩ | ⟨xs, ys, rfl, hcounts⟩) | haccepts | ⟨rfl, hcounts⟩)
    · exact .inl ⟨o', List.mem_append_left _ ho', haccepts⟩
    · exact .inr ⟨xs, ys ++ [o], by simp, hcounts⟩
    · exact .inl ⟨o, List.mem_append_right _ (List.mem_singleton_self o), haccepts⟩
    · exact .inr ⟨log, [], rfl, hcounts⟩

/-! ### The effect of a step -/

/-- The hash of a signed token is the hash of no other string. -/
def HashesApart (cfg : Config Digest) : Prop :=
  ∀ claims token, cfg.hashToken (.jwt claims) = cfg.hashToken token → token = .jwt claims

/-- The token is in the revocation list with no earlier expiry than its own, or expired. -/
def Blocked (cfg : Config Digest) (s : State Digest) (claims : Claims) : Prop :=
  Remembered forgettable (claims.exp ≤ ·) s.service.revoked (cfg.hashToken (.jwt claims)) s.now

/-- `rotate` would take the claims at that moment: signed, not expired and not revoked. -/
def Acceptable (cfg : Config Digest) (s : State Digest) (claims : Claims) (evictAt verifyAt : ℤ) :
    Prop :=
  claims ∈ s.service.signed ∧ unixSeconds verifyAt < claims.exp
    ∧ (evictExpired s.service.revoked evictAt).lookup (cfg.hashToken (.jwt claims)) = none

/-- **A blocked token is not accepted.** -/
theorem Blocked.not_acceptable {cfg : Config Digest} {s : State Digest} {claims : Claims}
    (h : Blocked cfg s claims) {evictAt verifyAt : ℤ} (hnow : s.now ≤ evictAt)
    (hordered : evictAt ≤ verifyAt) : ¬ Acceptable cfg s claims evictAt verifyAt := by
  rintro ⟨-, hvalid, habsent⟩
  obtain ⟨v, hv, hdead⟩ := (Remembered.evict h (forgettable_later hnow)).of_absent habsent
  rw [forgettable, decide_eq_true_eq] at hdead
  have hmono := unixSeconds_mono hordered
  omega

/-- The logins a new pair descends from. -/
def parents (s : State Digest) : Outcome → List ℕ
  | .issued _ => [s.logins]
  | .rotated token _ => loginsOf s.lines token
  | _ => []

/-- When the two tokens of a pair are signed. -/
def signingTimes : Event → Option (ℤ × ℤ)
  | .issueTokenPair _ accessAt refreshAt _ => some (accessAt, refreshAt)
  | .rotate _ clock _ => some (clock.accessAt, clock.refreshAt)
  | _ => none

/-- What one call does, whichever it is. -/
structure Effect (cfg : Config Digest) (s : State Digest) (e : Event) (t : State Digest)
    (o : Outcome) : Prop where
  now : s.now ≤ t.now
  log : t.log = s.log ++ [o]
  logins : s.logins ≤ t.logins ∧ ∀ pair, o = .issued pair → s.logins < t.logins
  lines : t.lines = s.lines ++ pairLines (pairOf o) (parents s o)
  signs : SignsRefresh s.service.signed t.service.signed (pairOf o)
  pair : ∀ pair, pairOf o = some pair → ∃ accessAt,
    signingTimes e = some (accessAt, t.now) ∧ SignedAt cfg t.service.signed accessAt t.now pair
  accepted : ∀ token, accepts token o = true → ∃ claims clock jti,
    token = .jwt claims ∧ e = .rotate token clock jti ∧ s.now ≤ clock.evictAt
      ∧ clock.evictAt ≤ clock.verifyAt ∧ Acceptable cfg s claims clock.evictAt clock.verifyAt
      ∧ Blocked cfg t claims
  revoked : ∀ token, o = .revoked token → ∃ expiresAtSeconds revokedAt,
    e = .revoke token expiresAtSeconds revokedAt
  blocked : HashesApart cfg → ∀ claims, Blocked cfg s claims →
    (∀ expiresAtSeconds revokedAt, e = .revoke (.jwt claims) expiresAtSeconds revokedAt →
      claims.exp ≤ recordedExpiry cfg expiresAtSeconds revokedAt) → Blocked cfg t claims
  revoke_blocked : ∀ claims expiresAtSeconds revokedAt,
    e = .revoke (.jwt claims) expiresAtSeconds revokedAt →
      claims.exp ≤ recordedExpiry cfg expiresAtSeconds revokedAt → Blocked cfg t claims

theorem Blocked.later {cfg : Config Digest} {s t : State Digest} {claims : Claims}
    (h : Blocked cfg s claims) (hrevoked : t.service.revoked = s.service.revoked)
    (hnow : s.now ≤ t.now) : Blocked cfg t claims := by
  rw [Blocked, hrevoked]
  exact Remembered.later h (forgettable_later hnow)

theorem effect_issueTokenPair {cfg : Config Digest} {s t : State Digest} {payload : JwtPayload}
    {accessAt refreshAt : ℤ} {jti : JsString}
    (hstep : step cfg s (.issueTokenPair payload accessAt refreshAt jti) = some t) :
    ∃ o, Effect cfg s (.issueTokenPair payload accessAt refreshAt jti) t o := by
  obtain ⟨⟨hnow, hle⟩, rfl⟩ := step_issue.mp hstep
  exact ⟨_,
    { now := hnow.trans hle
      log := rfl
      logins := ⟨Nat.le_succ _, fun _ _ => Nat.lt_succ_self _⟩
      lines := rfl
      signs := signsRefresh_issueTokenPair _ _ _ _ _ _
      pair := fun pair hpair => ⟨accessAt, rfl, signedAt_issueTokenPair hpair⟩
      accepted := nofun
      revoked := nofun
      blocked := fun _ _ hblocked _ => hblocked.later rfl (hnow.trans hle)
      revoke_blocked := nofun }⟩

theorem effect_rotate {cfg : Config Digest} {s t : State Digest} {token : Token}
    {clock : RotationClock} {jti : JsString}
    (hstep : step cfg s (.rotate token clock jti) = some t) :
    ∃ o, Effect cfg s (.rotate token clock jti) t o := by
  obtain ⟨⟨hnow, hverify, hrevoke, haccess, hrefresh⟩, rfl⟩ := step_rotate.mp hstep
  have hend : clock.evictAt ≤ clock.refreshAt :=
    hverify.trans (hrevoke.trans (haccess.trans hrefresh))
  rcases rotate_cases cfg s.service token clock jti with
    heq | ⟨c₀, rfl, hsigned, hvalid, habsent, heq⟩
  · rw [heq]
    exact ⟨_,
      { now := hnow.trans hend
        log := rfl
        logins := ⟨le_rfl, nofun⟩
        lines := rfl
        signs := .refl _
        pair := nofun
        accepted := nofun
        revoked := nofun
        blocked := fun _ _ hblocked _ =>
          (Remembered.evict hblocked (forgettable_later hnow)).later (forgettable_later hend)
        revoke_blocked := nofun }⟩
  · rw [heq]
    exact ⟨_,
      { now := hnow.trans hend
        log := rfl
        logins := ⟨le_rfl, nofun⟩
        lines := rfl
        signs := signsRefresh_issueTokenPair _ _ _ _ _ _
        pair := fun pair hpair => ⟨clock.accessAt, rfl, signedAt_issueTokenPair hpair⟩
        accepted := fun token ha => by
          obtain rfl := of_decide_eq_true ha
          exact ⟨c₀, clock, jti, rfl, rfl, hnow, hverify, ⟨hsigned, hvalid, habsent⟩,
            remembered_insert_self le_rfl⟩
        revoked := nofun
        blocked := fun hhash c hblocked _ => by
          have hkept := Remembered.evict hblocked (forgettable_later hnow)
          refine (hkept.later (forgettable_later hend)).insert fun hsame => ?_
          obtain rfl := Token.jwt.inj (hhash c _ hsame)
          exact le_rfl
        revoke_blocked := nofun }⟩

theorem effect_revoke {cfg : Config Digest} {s t : State Digest} {token : Token}
    {expiresAtSeconds : Option ℤ} {revokedAt : ℤ}
    (hstep : step cfg s (.revoke token expiresAtSeconds revokedAt) = some t) :
    ∃ o, Effect cfg s (.revoke token expiresAtSeconds revokedAt) t o := by
  obtain ⟨hnow, rfl⟩ := step_revoke.mp hstep
  exact ⟨_,
    { now := hnow
      log := rfl
      logins := ⟨le_rfl, nofun⟩
      lines := (List.append_nil _).symm
      signs := .refl _
      pair := nofun
      accepted := nofun
      revoked := fun token ho => ⟨_, _, by rw [Outcome.revoked.inj ho]⟩
      blocked := fun hhash c hblocked hsound => by
        refine (Remembered.later hblocked (forgettable_later hnow)).insert fun hsame => ?_
        obtain rfl := hhash c token hsame
        exact hsound _ _ rfl
      revoke_blocked := fun c _ _ heq hle => by
        obtain ⟨rfl, rfl, rfl⟩ := Event.revoke.inj heq
        exact remembered_insert_self hle }⟩

theorem effect_isRevoked {cfg : Config Digest} {s t : State Digest} {token : Token} {now : ℤ}
    (hstep : step cfg s (.isRevoked token now) = some t) :
    ∃ o, Effect cfg s (.isRevoked token now) t o := by
  obtain ⟨hnow, rfl⟩ := step_isRevoked.mp hstep
  exact ⟨_,
    { now := hnow
      log := rfl
      logins := ⟨le_rfl, nofun⟩
      lines := (List.append_nil _).symm
      signs := .refl _
      pair := nofun
      accepted := nofun
      revoked := nofun
      blocked := fun _ _ hblocked _ => Remembered.evict hblocked (forgettable_later hnow)
      revoke_blocked := nofun }⟩

/-- **Every step has one effect.** -/
theorem exists_effect {cfg : Config Digest} {s t : State Digest} {e : Event}
    (hstep : step cfg s e = some t) : ∃ o, Effect cfg s e t o := by
  cases e with
  | issueTokenPair => exact effect_issueTokenPair hstep
  | rotate => exact effect_rotate hstep
  | revoke => exact effect_revoke hstep
  | isRevoked => exact effect_isRevoked hstep

/-! ### Invariants -/

/-- What every run keeps true of the tokens it returned and accepted. -/
structure Issued (s : State Digest) : Prop where
  returned : ∀ token, Returned s.log token →
    ∃ claims, token = .jwt claims ∧ claims ∈ s.service.signed ∧ claims.jti ≠ none
  refresh : ∀ claims ∈ s.service.signed, claims.jti ≠ none → Returned s.log (.jwt claims)
  accepted : ∀ token, (∃ o ∈ s.log, accepts token o = true) →
    ∃ claims, token = .jwt claims ∧ claims ∈ s.service.signed

omit [DecidableEq Digest] in
theorem issued_initial (since : ℤ) : Issued (initial since : State Digest) where
  returned := fun _ ⟨_, ho, _⟩ => absurd ho List.not_mem_nil
  refresh := nofun
  accepted := fun _ ⟨_, ho, _⟩ => absurd ho List.not_mem_nil

theorem Issued.step {cfg : Config Digest} {s t : State Digest} {e : Event} (h : Issued s)
    (hstep : step cfg s e = some t) : Issued t := by
  obtain ⟨o, eff⟩ := exists_effect hstep
  refine ⟨fun token hreturned => ?_, fun claims hsigned hjti => ?_, fun token haccepted => ?_⟩
  · rw [eff.log, returned_snoc] at hreturned
    rcases hreturned with hreturned | ⟨pair, hpair, rfl⟩
    · obtain ⟨c, hc, hsigned, hjti⟩ := h.returned token hreturned
      exact ⟨c, hc, eff.signs.keeps c hsigned, hjti⟩
    · obtain ⟨c, hsigned, hc, hjti⟩ := eff.signs.returned pair hpair
      exact ⟨c, hc, hsigned, hjti⟩
  · rw [eff.log, returned_snoc]
    exact (eff.signs.fresh claims hsigned hjti).imp_left fun hold => h.refresh claims hold hjti
  · obtain ⟨o', ho', ha⟩ := haccepted
    rw [eff.log] at ho'
    rcases List.mem_append.mp ho' with ho' | ho'
    · obtain ⟨c, hc, hsigned⟩ := h.accepted token ⟨o', ho', ha⟩
      exact ⟨c, hc, eff.signs.keeps c hsigned⟩
    · obtain ⟨c, -, -, hc, -, -, -, ⟨hsigned, -⟩, -⟩ :=
        eff.accepted token (List.mem_singleton.mp ho' ▸ ha)
      exact ⟨c, hc, eff.signs.keeps c hsigned⟩

theorem issued {cfg : Config Digest} {since : ℤ} {es : List Event} {s : State Digest}
    (hrun : run (step cfg) (initial since) es = some s) : Issued s :=
  run_invariant (step cfg) (fun _ _ _ h hstep => h.step hstep) (issued_initial since) hrun

/-- A call of `revoke` on a refresh token that is consumed, or that it consumes, records no earlier
expiry than the token's own. -/
def SoundRevoke (cfg : Config Digest) (counts : List Outcome → Token → Prop) (s : State Digest)
    (e : Event) : Prop :=
  ∀ claims expiresAtSeconds revokedAt, e = .revoke (.jwt claims) expiresAtSeconds revokedAt →
    claims.jti ≠ none → Consumed counts s.log (.jwt claims) ∨ counts s.log (.jwt claims) →
      claims.exp ≤ recordedExpiry cfg expiresAtSeconds revokedAt

/-- Consumed refresh tokens are blocked, and were not consumed when they were accepted. -/
structure Tracked (cfg : Config Digest) (counts : List Outcome → Token → Prop) (s : State Digest) :
    Prop where
  blocked : ∀ claims, claims.jti ≠ none → Consumed counts s.log (.jwt claims) →
    Blocked cfg s claims
  fresh : ∀ xs o ys claims, claims.jti ≠ none → s.log = xs ++ o :: ys →
    accepts (.jwt claims) o = true → ¬ Consumed counts xs (.jwt claims)

/-- Along a run whose calls of `revoke` are sound every consumed refresh token is blocked. -/
theorem tracked {cfg : Config Digest} (hhash : HashesApart cfg)
    {counts : List Outcome → Token → Prop} (since : ℤ) :
    ∀ es s, run (step cfg) (initial since) es = some s →
      AllSteps (step cfg) (SoundRevoke cfg counts) (initial since) es → Tracked cfg counts s := by
  refine run_induction_of_steps (step cfg) ⟨?_, ?_⟩ ?_
  · exact fun claims _ hconsumed => absurd hconsumed (not_consumed_nil counts _)
  · intro xs o ys claims _ hlog
    simp [initial] at hlog
  intro es s e t _ _ inv hsound hstep
  obtain ⟨o, eff⟩ := exists_effect hstep
  constructor
  · intro claims hjti hconsumed
    rw [eff.log] at hconsumed
    rcases consumed_snoc.mp hconsumed with hold | haccepts | ⟨rfl, hcounts⟩
    · exact eff.blocked hhash claims (inv.blocked claims hjti hold) fun x at' he =>
        hsound claims x at' he hjti (.inl hold)
    · obtain ⟨c, -, -, hc, -, -, -, -, hblocked⟩ := eff.accepted _ haccepts
      obtain rfl := Token.jwt.inj hc
      exact hblocked
    · obtain ⟨x, at', he⟩ := eff.revoked _ rfl
      exact eff.revoke_blocked claims x at' he (hsound claims x at' he hjti (.inr hcounts))
  · intro xs o' ys claims hjti hlog haccepts
    rw [eff.log] at hlog
    rcases concat_eq_append_cons.mp hlog with ⟨-, rfl, rfl⟩ | ⟨zs, -, hlog⟩
    · obtain ⟨c, clock, -, hc, -, hnow, hordered, hacceptable, -⟩ := eff.accepted _ haccepts
      obtain rfl := Token.jwt.inj hc
      exact fun hconsumed =>
        (inv.blocked claims hjti hconsumed).not_acceptable hnow hordered hacceptable
    · exact inv.fresh xs o' zs claims hjti hlog haccepts

end A2aAgentLayer.Auth.RefreshRuns
