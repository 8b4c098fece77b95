import A2aAgentLayer.Auth.SingleUse

/-!
# The line of tokens of a login

`rotate` does not look at the `jti`, so it takes an access token as well as a refresh token.  The
tokens a login leads to form one line only as long as nobody hands an access token to `rotate`, and
`rotate` would still take two tokens of that line whenever both tokens of a pair are unexpired.
-/

namespace A2aAgentLayer.Auth.TokenLines

open A2aAgentLayer.Lib.Utf16 A2aAgentLayer.Lib.KeyedStore A2aAgentLayer.Lib.Run
open A2aAgentLayer.Auth.RefreshToken A2aAgentLayer.Auth.RefreshRuns A2aAgentLayer.Auth.SingleUse

variable {Digest : Type} [DecidableEq Digest]

/-- Every token `rotate` accepted had been returned as a refresh token. -/
def AcceptsReturned (log : List Outcome) : Prop :=
  ∀ xs o ys token, log = xs ++ o :: ys → accepts token o = true → Returned xs token

/-- `rotate` would accept the token at that moment. -/
def WouldAccept (cfg : Config Digest) (s : State Digest) (now : ℤ) (token : Token) : Prop :=
  ∃ jti pair, (rotate cfg s.service token ⟨now, now, now, now, now⟩ jti).2 = .accepted pair

theorem acceptable_of_wouldAccept {cfg : Config Digest} {s : State Digest} {now : ℤ} {token : Token}
    (h : WouldAccept cfg s now token) :
    ∃ claims, token = .jwt claims ∧ Acceptable cfg s claims now now := by
  obtain ⟨jti, pair, hpair⟩ := h
  rcases rotate_cases cfg s.service token ⟨now, now, now, now, now⟩ jti with
    heq | ⟨claims, rfl, hsigned, hvalid, habsent, -⟩
  · rw [heq] at hpair
    cases hpair
  · exact ⟨claims, rfl, hsigned, hvalid, habsent⟩

theorem wouldAccept_of_acceptable {cfg : Config Digest} {s : State Digest} {now : ℤ}
    {claims : Claims} (h : Acceptable cfg s claims now now) :
    WouldAccept cfg s now (.jwt claims) :=
  ⟨[], @rotate_accepts _ _ cfg _ _ ⟨now, now, now, now, now⟩ [] h.1 h.2.1 h.2.2⟩

/-- At any moment `rotate` would accept at most one token of a login. -/
def OneLine (cfg : Config Digest) (s : State Digest) : Prop :=
  ∀ login now token token', s.now ≤ now → (token, login) ∈ s.lines → (token', login) ∈ s.lines →
    WouldAccept cfg s now token → WouldAccept cfg s now token' → token = token'

/-- At any moment `rotate` would accept at most one refresh token of a login. -/
def OneRefreshLine (cfg : Config Digest) (s : State Digest) : Prop :=
  ∀ login now token token', s.now ≤ now → (token, login) ∈ s.lines → (token', login) ∈ s.lines →
    Returned s.log token → Returned s.log token' →
      WouldAccept cfg s now token → WouldAccept cfg s now token' → token = token'

/-- `rotate` is not handed an access token that it would take. -/
def HandsRefresh (cfg : Config Digest) (s : State Digest) (e : Event) : Prop :=
  ∀ claims clock jti, e = .rotate (.jwt claims) clock jti →
    Acceptable cfg s claims clock.evictAt clock.verifyAt → claims.jti ≠ none

/-- One token of a pair signed in this call has expired by the end of the call. -/
def PairsApart (cfg : Config Digest) (e : Event) : Prop :=
  ∀ accessAt refreshAt accessSpan refreshSpan, signingTimes e = some (accessAt, refreshAt) →
    cfg.timespan cfg.accessExpiresIn = some accessSpan →
    cfg.timespan cfg.refreshExpiresIn = some refreshSpan →
      unixSeconds accessAt + accessSpan ≤ unixSeconds refreshAt ∨ refreshSpan ≤ 0

/-- A call of `revoke` on a refresh token that `rotate` has accepted keeps its expiry. -/
def KeepsRotated (cfg : Config Digest) : State Digest → Event → Prop :=
  SoundRevoke cfg fun _ _ => False

/-! ### Only refresh tokens are accepted -/

theorem acceptsReturned_of_steps {cfg : Config Digest} (since : ℤ) :
    ∀ es s, run (step cfg) (initial since) es = some s →
      AllSteps (step cfg) (HandsRefresh cfg) (initial since) es → AcceptsReturned s.log := by
  refine run_induction_of_steps (step cfg) ?_ ?_
  · intro xs o ys token hlog
    simp [initial] at hlog
  intro es s e t hrun _ inv hhands hstep
  obtain ⟨o, eff⟩ := exists_effect hstep
  intro xs o' ys token hlog haccepts
  rw [eff.log] at hlog
  rcases concat_eq_append_cons.mp hlog with ⟨-, rfl, rfl⟩ | ⟨zs, -, hlog⟩
  · obtain ⟨claims, clock, jti, rfl, he, -, -, hacceptable, -⟩ := eff.accepted token haccepts
    exact (issued hrun).refresh claims hacceptable.1 (hhands claims clock jti he hacceptable)
  · exact inv xs o' zs token hlog haccepts

theorem log_grows {cfg : Config Digest} {s t : State Digest} {es : List Event}
    (hrun : run (step cfg) s es = some t) : s.log <+: t.log := by
  refine run_monotone (step cfg) (R := fun s t => s.log <+: t.log)
    (fun s => List.prefix_refl s.log) (fun _ _ _ hab hbc => hab.trans hbc) ?_ hrun
  intro s e t hstep
  obtain ⟨o, eff⟩ := exists_effect hstep
  exact eff.log ▸ List.prefix_append s.log [o]

theorem handsRefresh_of_acceptsReturned {cfg : Config Digest} {since : ℤ} {es : List Event}
    {s : State Digest} (hrun : run (step cfg) (initial since) es = some s)
    (haccepts : AcceptsReturned s.log) :
    AllSteps (step cfg) (HandsRefresh cfg) (initial since) es := by
  rintro ps e qs m rfl hm claims clock jti rfl hacceptable
  obtain ⟨m', m'', hm', hstep, hrest⟩ := run_split (step cfg) hrun
  obtain rfl := Option.some.inj (hm'.symm.trans hm)
  obtain ⟨pair, hpair⟩ := rotate_accepts jti hacceptable.1 hacceptable.2.1 hacceptable.2.2
  obtain ⟨ys, hlog⟩ := log_grows hrest
  obtain ⟨-, rfl⟩ := step_rotate.mp hstep
  rw [hpair, List.append_assoc] at hlog
  have hreturned := haccepts _ _ _ (.jwt claims) hlog.symm (by simp [accepts])
  obtain ⟨c, hc, -, hjti⟩ := (issued hm).returned _ hreturned
  obtain rfl := Token.jwt.inj hc
  exact hjti

/-! ### The open token of a login -/

variable (cfg : Config Digest) (among : Claims → Prop)

/-- A token of the login that has not expired and that `rotate` has not accepted. -/
structure Open (s : State Digest) (claims : Claims) (login : ℕ) : Prop where
  line : (.jwt claims, login) ∈ s.lines
  among : among claims
  live : unixSeconds s.now < claims.exp
  fresh : ∀ o ∈ s.log, accepts (.jwt claims) o = false

structure Lined (s : State Digest) : Prop where
  bounded : ∀ line ∈ s.lines, line.2 < s.logins
  single : ∀ login c d, Open among s c login → Open among s d login → c = d

/-- A call that signs a pair leaves at most one of its tokens open. -/
def PairSingle (e : Event) (t : State Digest) : Prop :=
  ∀ accessAt pair access refresh, signingTimes e = some (accessAt, t.now) →
    SignedAt cfg t.service.signed accessAt t.now pair →
    pair.accessToken = .jwt access → pair.refreshToken = .jwt refresh →
      unixSeconds t.now < access.exp → unixSeconds t.now < refresh.exp →
        among access → ¬ among refresh

variable {cfg among}

omit [DecidableEq Digest] in
theorem mem_loginsOf {lines : List (Token × ℕ)} {token : Token} {login : ℕ} :
    login ∈ loginsOf lines token ↔ (token, login) ∈ lines := by
  simp only [loginsOf, List.mem_map, List.mem_filter, decide_eq_true_eq]
  constructor
  · rintro ⟨⟨token', login'⟩, ⟨hmem, rfl⟩, rfl⟩
    exact hmem
  · exact fun hmem => ⟨_, ⟨hmem, rfl⟩, rfl⟩

omit [DecidableEq Digest] in
theorem mem_pairLines {pair : Option TokenPair} {logins : List ℕ} {token : Token} {login : ℕ} :
    (token, login) ∈ pairLines pair logins ↔ login ∈ logins ∧ ∃ p, pair = some p
      ∧ (token = p.accessToken ∨ token = p.refreshToken) := by
  cases pair with
  | none => simp [pairLines]
  | some p =>
      simp only [pairLines, List.mem_flatMap, List.mem_cons, Prod.mk.injEq, List.not_mem_nil,
        or_false, Option.some.injEq, exists_eq_left']
      constructor
      · rintro ⟨login', hmem, ⟨rfl, rfl⟩ | ⟨rfl, rfl⟩⟩
        · exact ⟨hmem, .inl rfl⟩
        · exact ⟨hmem, .inr rfl⟩
      · rintro ⟨hmem, rfl | rfl⟩
        · exact ⟨login, hmem, .inl ⟨rfl, rfl⟩⟩
        · exact ⟨login, hmem, .inr ⟨rfl, rfl⟩⟩

/-- An open token was open before, or belongs to the pair that the call returned. -/
theorem Open.cases {s t : State Digest} {e : Event} {o : Outcome} (eff : Effect cfg s e t o)
    {c : Claims} {login : ℕ} (h : Open among t c login) :
    Open among s c login ∨ login ∈ parents s o ∧ ∃ pair, pairOf o = some pair
      ∧ (.jwt c = pair.accessToken ∨ .jwt c = pair.refreshToken) := by
  have hline := h.line
  rw [eff.lines, List.mem_append, mem_pairLines] at hline
  refine hline.imp_left fun hline => ⟨hline, h.among, ?_, fun o' ho' => h.fresh o' ?_⟩
  · exact (unixSeconds_mono eff.now).trans_lt h.live
  · exact eff.log ▸ List.mem_append_left _ ho'

omit [DecidableEq Digest] in
/-- A pair is returned by a login or by an acceptance. -/
theorem parents_cases {s : State Digest} {o : Outcome} {pair : TokenPair} {login : ℕ}
    (hpair : pairOf o = some pair) (hparent : login ∈ parents s o) :
    (∃ pair, o = .issued pair) ∧ login = s.logins
      ∨ ∃ token, accepts token o = true ∧ (token, login) ∈ s.lines := by
  cases o with
  | issued pair => exact .inl ⟨⟨pair, rfl⟩, List.mem_singleton.mp hparent⟩
  | rotated token rotation =>
      cases rotation with
      | refused => cases hpair
      | accepted pair => exact .inr ⟨token, decide_eq_true rfl, mem_loginsOf.mp hparent⟩
  | revoked token => cases hpair
  | checked token answer => cases hpair

/-- When a login gets a new pair, none of its earlier tokens stays open. -/
theorem not_open_of_pair {s t : State Digest} {e : Event} {o : Outcome}
    (inv : Lined among s)
    (hblocked : ∀ c, (∃ o ∈ s.log, accepts (.jwt c) o = true) → Blocked cfg s c)
    (eff : Effect cfg s e t o)
    (hamong : ∀ claims, accepts (.jwt claims) o = true → among claims) {pair : TokenPair}
    {login : ℕ} (hpair : pairOf o = some pair) (hparent : login ∈ parents s o) {c : Claims}
    (hopen : Open among s c login) : accepts (.jwt c) o = true := by
  rcases parents_cases hpair hparent with ⟨-, rfl⟩ | ⟨token, haccepts, hline⟩
  · exact absurd (inv.bounded _ hopen.line) (lt_irrefl _)
  · obtain ⟨c₀, clock, jti, rfl, -, hnow, hordered, hacceptable, -⟩ := eff.accepted token haccepts
    have hopen₀ : Open among s c₀ login := by
      refine ⟨hline, hamong c₀ haccepts, ?_, fun o' ho' => ?_⟩
      · exact (unixSeconds_mono (hnow.trans hordered)).trans_lt hacceptable.2.1
      · rw [Bool.eq_false_iff]
        exact fun ha => (hblocked c₀ ⟨o', ho', ha⟩).not_acceptable hnow hordered hacceptable
    rw [inv.single login c c₀ hopen hopen₀]
    exact haccepts

theorem Lined.step {s t : State Digest} {e : Event} (inv : Lined among s)
    (hblocked : ∀ c, (∃ o ∈ s.log, accepts (.jwt c) o = true) → Blocked cfg s c)
    (hamong : ∀ claims : Claims, claims.jti ≠ none → among claims) (hhands : HandsRefresh cfg s e)
    (hstep : step cfg s e = some t) (hsingle : PairSingle cfg among e t) : Lined among t := by
  obtain ⟨o, eff⟩ := exists_effect hstep
  have hrefresh : ∀ claims, accepts (.jwt claims) o = true → among claims := by
    intro claims haccepts
    obtain ⟨c, clock, jti, hc, he, -, -, hacceptable, -⟩ := eff.accepted _ haccepts
    obtain rfl := Token.jwt.inj hc
    exact hamong claims (hhands claims clock jti he hacceptable)
  have hmem : o ∈ t.log := eff.log ▸ List.mem_append_right _ (List.mem_singleton_self o)
  constructor
  · intro line hline
    rw [eff.lines, List.mem_append] at hline
    rcases hline with hline | hline
    · exact (inv.bounded line hline).trans_le eff.logins.1
    · obtain ⟨hparent, pair, hpair, -⟩ := mem_pairLines.mp hline
      rcases parents_cases hpair hparent with ⟨⟨pair, ho⟩, heq⟩ | ⟨token, -, hold⟩
      · exact heq ▸ eff.logins.2 pair ho
      · exact (inv.bounded _ hold).trans_le eff.logins.1
  · intro login c d hc hd
    rcases hc.cases eff with hc' | ⟨hparent, pair, hpair, hctoken⟩
    · rcases hd.cases eff with hd' | ⟨hparent, pair, hpair, -⟩
      · exact inv.single login c d hc' hd'
      · have haccepts := not_open_of_pair inv hblocked eff hrefresh hpair hparent hc'
        rw [hc.fresh o hmem] at haccepts
        cases haccepts
    · rcases hd.cases eff with hd' | ⟨-, pair', hpair', hdtoken⟩
      · have haccepts := not_open_of_pair inv hblocked eff hrefresh hpair hparent hd'
        rw [hd.fresh o hmem] at haccepts
        cases haccepts
      · obtain rfl := Option.some.inj (hpair.symm.trans hpair')
        obtain ⟨accessAt, htimes, hsigned⟩ := eff.pair pair hpair
        -- two different tokens of one pair would both be open
        rcases hctoken with hctoken | hctoken <;> rcases hdtoken with hdtoken | hdtoken
        · exact Token.jwt.inj (hctoken.trans hdtoken.symm)
        · exact absurd hd.among (hsingle accessAt pair c d htimes hsigned hctoken.symm
            hdtoken.symm hc.live hd.live hc.among)
        · exact absurd hc.among (hsingle accessAt pair d c htimes hsigned hdtoken.symm
            hctoken.symm hd.live hc.live hd.among)
        · exact Token.jwt.inj (hctoken.trans hdtoken.symm)

/-! ### Runs -/

/-- What `rotate` accepted is blocked, as long as it is handed refresh tokens only. -/
theorem blocked_of_accepted {s : State Digest} (hissued : Issued s)
    (haccepts : AcceptsReturned s.log) (htracked : Tracked cfg (fun _ _ => False) s) {c : Claims}
    (h : ∃ o ∈ s.log, accepts (.jwt c) o = true) : Blocked cfg s c := by
  obtain ⟨o, ho, ha⟩ := h
  obtain ⟨xs, ys, hlog⟩ := List.append_of_mem ho
  obtain ⟨o', ho', hreturned⟩ := haccepts xs o ys _ hlog ha
  have hmem : o' ∈ s.log := hlog ▸ List.mem_append_left _ ho'
  obtain ⟨c', hc', -, hjti⟩ := hissued.returned _ ⟨o', hmem, hreturned⟩
  obtain rfl := Token.jwt.inj hc'
  exact htracked.blocked c hjti (.inl ⟨o, ho, ha⟩)

/-- The steps that keep every login to one line. -/
structure Careful (cfg : Config Digest) (s : State Digest) (e : Event) : Prop where
  hands : HandsRefresh cfg s e
  keeps : KeepsRotated cfg s e

theorem lined (hhash : HashesApart cfg)
    (hamong : ∀ claims : Claims, claims.jti ≠ none → among claims)
    {C : State Digest → Event → Prop} (hcareful : ∀ s e, C s e → Careful cfg s e)
    (hsingle : ∀ s e t, C s e → PairSingle cfg among e t) (since : ℤ) :
    ∀ es s, run (step cfg) (initial since) es = some s →
      AllSteps (step cfg) C (initial since) es → Lined among s := by
  refine run_induction_of_steps (step cfg) ⟨?_, ?_⟩ ?_
  · exact fun line hline => absurd hline List.not_mem_nil
  · exact fun login c d hc => absurd hc.line List.not_mem_nil
  intro es s e t hrun hall inv hC hstep
  have haccepts := acceptsReturned_of_steps since es s hrun
    (hall.mono fun s e h => (hcareful s e h).hands)
  have htracked := tracked hhash since es s hrun (hall.mono fun s e h => (hcareful s e h).keeps)
  exact inv.step (fun c hc => blocked_of_accepted (issued hrun) haccepts htracked hc) hamong
    (hcareful s e hC).hands hstep (hsingle s e t hC)

/-- A token of a login that `rotate` would accept is open. -/
theorem open_of_acceptable {s : State Digest} {now : ℤ} {c : Claims} {login : ℕ}
    (hblocked : ∀ c, (∃ o ∈ s.log, accepts (.jwt c) o = true) → Blocked cfg s c)
    (hnow : s.now ≤ now) (hline : (.jwt c, login) ∈ s.lines) (hc : among c)
    (hacceptable : Acceptable cfg s c now now) : Open among s c login := by
  refine ⟨hline, hc, (unixSeconds_mono hnow).trans_lt hacceptable.2.1, fun o ho => ?_⟩
  rw [Bool.eq_false_iff]
  exact fun ha => (hblocked c ⟨o, ho, ha⟩).not_acceptable hnow le_rfl hacceptable

omit [DecidableEq Digest] in
theorem pairSingle_refresh (e : Event) (t : State Digest) :
    PairSingle cfg (fun claims => claims.jti ≠ none) e t := by
  rintro accessAt pair access refresh - ⟨access', -, -, -, haccess', -, hjti, -⟩ haccess - - - hne
  obtain rfl := Token.jwt.inj (haccess.symm.trans haccess')
  exact absurd hjti hne

omit [DecidableEq Digest] in
theorem pairSingle_of_pairsApart {e : Event} (h : PairsApart cfg e) (t : State Digest) :
    PairSingle cfg (fun _ => True) e t := by
  rintro accessAt pair access refresh htimes ⟨access', -, refresh', -, haccess', hrefresh', -,
    ⟨accessSpan, hspan, hexp⟩, refreshSpan, hspan', hexp'⟩ haccess hrefresh hlive hlive' -
  obtain rfl := Token.jwt.inj (haccess.symm.trans haccess')
  obtain rfl := Token.jwt.inj (hrefresh.symm.trans hrefresh')
  rcases h accessAt t.now accessSpan refreshSpan htimes hspan hspan' with h | h <;> omega

/-- A login returns two tokens that `rotate` would accept, unless one of them has expired or is in
the revocation list. -/
theorem not_oneLine_of_login {s t : State Digest} {payload : JwtPayload} {accessAt refreshAt : ℤ}
    {jti : JsString} {pair : TokenPair}
    (hstep : step cfg s (.issueTokenPair payload accessAt refreshAt jti) = some t)
    (hpair : (issueTokenPair cfg s.service.signed payload accessAt refreshAt jti).2 = some pair)
    (hoverlap : ¬ PairsApart cfg (.issueTokenPair payload accessAt refreshAt jti))
    (haccess : s.service.revoked.lookup (cfg.hashToken pair.accessToken) = none)
    (hrefresh : s.service.revoked.lookup (cfg.hashToken pair.refreshToken) = none) :
    ¬ OneLine cfg t := by
  obtain ⟨-, rfl⟩ := step_issue.mp hstep
  obtain ⟨access, hsigned, refresh, hsigned', htoken, htoken', hjti, ⟨accessSpan, hspan, hexp⟩,
    refreshSpan, hspan', hexp'⟩ := signedAt_issueTokenPair hpair
  obtain ⟨refresh', -, htoken'', hjti'⟩ :=
    (signsRefresh_issueTokenPair cfg s.service.signed payload accessAt refreshAt jti).returned
      _ hpair
  obtain rfl := Token.jwt.inj (htoken'.symm.trans htoken'')
  have hlive : unixSeconds refreshAt < access.exp ∧ unixSeconds refreshAt < refresh.exp := by
    by_contra hexpired
    refine hoverlap fun accessAt' refreshAt' accessSpan' refreshSpan' htimes hs hs' => ?_
    obtain ⟨rfl, rfl⟩ := Prod.mk.inj (Option.some.inj htimes)
    obtain rfl := Option.some.inj (hspan.symm.trans hs)
    obtain rfl := Option.some.inj (hspan'.symm.trans hs')
    omega
  rw [htoken] at haccess
  rw [htoken'] at hrefresh
  have hkept : ∀ token, s.service.revoked.lookup (cfg.hashToken token) = none →
      (evictExpired s.service.revoked refreshAt).lookup (cfg.hashToken token) = none :=
    fun token h => lookup_evict_eq_none.mpr fun v hv => by rw [h] at hv; cases hv
  intro hline
  have hmem : ∀ token, token = pair.accessToken ∨ token = pair.refreshToken →
      (token, s.logins) ∈ s.lines ++ pairLines
        (issueTokenPair cfg s.service.signed payload accessAt refreshAt jti).2 [s.logins] :=
    fun token h => List.mem_append_right _
      (mem_pairLines.mpr ⟨List.mem_singleton_self _, pair, hpair, h⟩)
  have hsame := hline s.logins refreshAt (.jwt access) (.jwt refresh) le_rfl
    (hmem _ (.inl htoken.symm)) (hmem _ (.inr htoken'.symm))
    (wouldAccept_of_acceptable ⟨hsigned, hlive.1, hkept _ haccess⟩)
    (wouldAccept_of_acceptable ⟨hsigned', hlive.2, hkept _ hrefresh⟩)
  exact hjti' (Token.jwt.inj hsame ▸ hjti)

/-! ### The main result -/

/-- **The tokens of a login.**  In a run, `rotate` accepts only tokens that had been returned as
refresh tokens exactly if it is never handed an access token that it would take.  If moreover no
call of `revoke` shortens the entry of a rotated token, a login has at most one refresh token that
`rotate` would accept, and at most one token if of every pair one token has expired on return. -/
theorem rotate_tokenLines (hhash : HashesApart cfg) {since : ℤ} {es : List Event} {s : State Digest}
    (hrun : run (step cfg) (initial since) es = some s) :
    (AcceptsReturned s.log ↔ AllSteps (step cfg) (HandsRefresh cfg) (initial since) es)
      ∧ (AllSteps (step cfg) (Careful cfg) (initial since) es →
        OneRefreshLine cfg s
          ∧ (AllSteps (step cfg) (fun _ e => PairsApart cfg e) (initial since) es →
            OneLine cfg s)) := by
  refine ⟨⟨handsRefresh_of_acceptsReturned hrun, acceptsReturned_of_steps since es s hrun⟩, ?_⟩
  intro hcareful
  have haccepts := acceptsReturned_of_steps since es s hrun (hcareful.mono fun _ _ h => h.hands)
  have htracked := tracked hhash since es s hrun (hcareful.mono fun _ _ h => h.keeps)
  have hblocked := fun c hc => blocked_of_accepted (issued hrun) haccepts htracked (c := c) hc
  constructor
  · have inv := lined hhash (fun _ h => h) (fun _ _ h => h) (fun _ e t _ => pairSingle_refresh e t)
      since es s hrun hcareful
    intro login now token token' hnow hline hline' hreturned hreturned' hwould hwould'
    obtain ⟨c, rfl, hc⟩ := acceptable_of_wouldAccept hwould
    obtain ⟨d, rfl, hd⟩ := acceptable_of_wouldAccept hwould'
    obtain ⟨c', hc', -, hjti⟩ := (issued hrun).returned _ hreturned
    obtain ⟨d', hd', -, hjti'⟩ := (issued hrun).returned _ hreturned'
    obtain rfl := Token.jwt.inj hc'
    obtain rfl := Token.jwt.inj hd'
    rw [inv.single login c d (open_of_acceptable hblocked hnow hline hjti hc)
      (open_of_acceptable hblocked hnow hline' hjti' hd)]
  · intro hapart
    have inv : Lined (fun _ => True) s :=
      lined hhash (fun _ _ => trivial) (fun _ _ h => h.1)
        (fun _ _ t h => pairSingle_of_pairsApart h.2 t) since es s hrun (hcareful.and hapart)
    intro login now token token' hnow hline hline' hwould hwould'
    obtain ⟨c, rfl, hc⟩ := acceptable_of_wouldAccept hwould
    obtain ⟨d, rfl, hd⟩ := acceptable_of_wouldAccept hwould'
    rw [inv.single login c d (open_of_acceptable hblocked hnow hline trivial hc)
      (open_of_acceptable hblocked hnow hline' trivial hd)]

/-- Access tokens that expire at once. -/
def momentary : Config Token := { weekly with accessExpiresIn := js "0s" }

/-- All tokens handed to `rotate` are refresh tokens, and `revoke` records a late enough expiry. -/
theorem careful_loginAndReuse {cfg : Config Token} (hspan : cfg.refreshExpiresIn = js "7d") :
    AllSteps (step cfg) (Careful cfg) (initial 0) loginAndReuse := by
  intro ps e qs s hes _
  have he : e ∈ loginAndReuse := hes ▸ List.mem_append_right ps (List.mem_cons_self ..)
  constructor
  · intro claims clock jti heq _ hnone
    subst heq
    simp [loginAndReuse, loginToken] at he
    rcases he with h | h | h <;> simp [h.1] at hnone
  · intro claims expiresAtSeconds revokedAt heq _ _
    subst heq
    simp [loginAndReuse, loginToken] at he
    obtain ⟨rfl, rfl, rfl⟩ := he
    rw [recordedExpiry, hspan]
    decide

theorem pairsApart_loginAndReuse :
    AllSteps (step momentary) (fun _ e => PairsApart momentary e) (initial 0) loginAndReuse := by
  intro ps e qs s hes _ accessAt refreshAt accessSpan refreshSpan htimes haccess _
  have he : e ∈ loginAndReuse := hes ▸ List.mem_append_right ps (List.mem_cons_self ..)
  have htogether : ∀ e ∈ loginAndReuse, ∀ times, signingTimes e = some times →
      times.1 = times.2 := by
    simp [loginAndReuse, signingTimes]
  have hspan : accessSpan = 0 := (Option.some.inj haccess).symm.trans (by decide)
  have hsame : accessAt = refreshAt := htogether e he _ htimes
  left
  rw [hspan, hsame, Int.add_zero]

/-- The run meets the condition, so it keeps one refresh token that is accepted, and one token when
access tokens expire at once. -/
theorem rotate_tokenLines_loginAndReuse :
    (∃ s, run (step weekly) (initial 0) loginAndReuse = some s
      ∧ AcceptsReturned s.log ∧ OneRefreshLine weekly s)
      ∧ ∃ s, run (step momentary) (initial 0) loginAndReuse = some s
        ∧ AcceptsReturned s.log ∧ OneRefreshLine momentary s ∧ OneLine momentary s := by
  obtain ⟨s, hs⟩ := Option.isSome_iff_exists.mp
    (by decide : (run (step weekly) (initial 0) loginAndReuse).isSome = true)
  obtain ⟨t, ht⟩ := Option.isSome_iff_exists.mp
    (by decide : (run (step momentary) (initial 0) loginAndReuse).isSome = true)
  have hweekly := rotate_tokenLines (fun _ _ h => h.symm) hs
  have hmomentary := rotate_tokenLines (fun _ _ h => h.symm) ht
  have hs' : AllSteps (step weekly) (Careful weekly) (initial 0) loginAndReuse :=
    careful_loginAndReuse rfl
  have ht' : AllSteps (step momentary) (Careful momentary) (initial 0) loginAndReuse :=
    careful_loginAndReuse rfl
  refine ⟨⟨s, hs, hweekly.1.mpr (hs'.mono fun _ _ h => h.hands), (hweekly.2 hs').1⟩,
    t, ht, hmomentary.1.mpr (ht'.mono fun _ _ h => h.hands), (hmomentary.2 ht').1, ?_⟩
  exact (hmomentary.2 ht').2 pairsApart_loginAndReuse

/-- The access token of a login at the given second. -/
def loginAccess (second : ℤ) : Token :=
  .jwt ⟨⟨js "agent-1", js "did:prom:agent-1", js "agent"⟩, none, second, second + 3600⟩

/-- A login, and a rotation of its access token. -/
def accessRotated : List Event :=
  [ .issueTokenPair ⟨js "agent-1", js "did:prom:agent-1", js "agent"⟩ 0 0 (js "aa"),
    .rotate (loginAccess 0) ⟨5000, 5000, 5000, 5000, 5000⟩ (js "bb") ]

/-- The access token is accepted, and then the login has two refresh tokens that are accepted. -/
theorem accessToken_rotated : ∃ s,
    run (step weekly) (initial 0) accessRotated = some s
      ∧ ¬ AcceptsReturned s.log ∧ ¬ OneRefreshLine weekly s := by
  obtain ⟨s, hs⟩ := Option.isSome_iff_exists.mp
    (by decide : (run (step weekly) (initial 0) accessRotated).isSome = true)
  obtain rfl := Option.some.inj (hs.symm.trans rfl)
  refine ⟨_, hs, fun haccepts => ?_, fun hline => ?_⟩
  · have hreturned := haccepts [_] _ [] (loginAccess 0) rfl (by decide)
    exact absurd hreturned (by decide)
  · have hsame := hline 0 5000 (loginToken 0 (js "aa")) (loginToken 5 (js "bb")) (by decide)
      (by decide) (by decide) (by decide) (by decide) ⟨[], _, rfl⟩ ⟨[], _, rfl⟩
    exact absurd hsame (by decide)

end A2aAgentLayer.Auth.TokenLines
