import Mathlib.Data.Set.Insert
import Mathlib.Order.Interval.Set.Basic
import A2aAgentLayer.Blockchain.NonceManager

/-!
# What the callers of `reserve` get

Callbacks take turns in the order of the calls and get consecutive nonces, and a failure is reported
to the caller it belongs to and to nobody else (`allocated`).

A nonce is used up when its callback starts.  When the callback fails before it has broadcast its
transaction, the nonce is lost, and as soon as a later callback succeeds the broadcast nonces have a
gap (`gapFree_throughout_iff`).
-/

namespace A2aAgentLayer.Blockchain.NonceManager

open A2aAgentLayer.Lib.Run

/-! ### Outcomes -/

/-- The promise of the caller is fulfilled. -/
def Phase.isFulfilled : Phase → Bool
  | .fulfilled _ => true
  | _ => false

/-- The promises are settled as `fetchNonce` and the callbacks of their own calls were. -/
structure Reported (es : List Event) (s : State) : Prop where
  rejected : ∀ (i : ℕ) (c : Call), s.calls[i]? = some c →
    (c.phase.isRejected = true ↔ .fetchRejected i ∈ es ∨ .rejected i ∈ es)
  fulfilled : ∀ (i : ℕ) (c : Call), s.calls[i]? = some c →
    (c.phase.isFulfilled = true ↔ .fulfilled i ∈ es)
  known : ∀ i : ℕ, .fetchRejected i ∈ es ∨ .rejected i ∈ es ∨ .fulfilled i ∈ es →
    i < s.calls.length

/-- A call that moves reports what its event says. -/
theorem Reported.setPhase {es : List Event} {s : State} {e : Event} (h : Reported es s) {i : ℕ}
    {c : Call} (hc : s.calls[i]? = some c) (hopen : c.phase.settled = false) (phase : Phase)
    (hrejected : phase.isRejected = true ↔ e = .fetchRejected i ∨ e = .rejected i)
    (hfulfilled : phase.isFulfilled = true ↔ e = .fulfilled i)
    (hown : ∀ j, e = .fetchRejected j ∨ e = .rejected j ∨ e = .fulfilled j → j = i) :
    Reported (es ++ [e]) (setPhase s i phase) := by
  have hold : c.phase.isRejected = false ∧ c.phase.isFulfilled = false := by
    cases hphase : c.phase <;> simp_all [Phase.settled, Phase.isRejected, Phase.isFulfilled]
  have hrej := h.rejected i c hc
  have hful := h.fulfilled i c hc
  rw [hold.1] at hrej
  rw [hold.2] at hful
  simp only [Bool.false_eq_true, false_iff, not_or] at hrej hful
  have hlen : (NonceManager.setPhase s i phase).calls.length = s.calls.length :=
    List.length_modify ..
  have hmem : ∀ x : Event, x ∈ es ++ [e] ↔ x ∈ es ∨ e = x := by
    intro x
    rw [List.mem_append, List.mem_singleton, eq_comm (a := x)]
  have hother : ∀ j, j ≠ i → e ≠ .fetchRejected j ∧ e ≠ .rejected j ∧ e ≠ .fulfilled j :=
    fun j hji => ⟨fun he => hji (hown j (.inl he)), fun he => hji (hown j (.inr (.inl he))),
      fun he => hji (hown j (.inr (.inr he)))⟩
  refine ⟨fun j d hd => ?_, fun j d hd => ?_, fun j hj => ?_⟩
  · rw [hmem, hmem]
    rcases getElem?_setPhase hc hd with ⟨rfl, rfl⟩ | ⟨hji, hd⟩
    · rw [hrejected, or_iff_right hrej.1, or_iff_right hrej.2]
    · obtain ⟨hfetch, hreject, -⟩ := hother j hji
      rw [h.rejected j d hd, or_iff_left hfetch, or_iff_left hreject]
  · rw [hmem]
    rcases getElem?_setPhase hc hd with ⟨rfl, rfl⟩ | ⟨hji, hd⟩
    · rw [hfulfilled, or_iff_right hful]
    · rw [h.fulfilled j d hd, or_iff_left (hother j hji).2.2]
  · rw [hlen]
    rw [hmem, hmem, hmem] at hj
    by_cases hji : j = i
    · subst hji
      exact (List.getElem?_eq_some_iff.mp hc).1
    · obtain ⟨hfetch, hreject, hfulfill⟩ := hother j hji
      rw [or_iff_left hfetch, or_iff_left hreject, or_iff_left hfulfill] at hj
      exact h.known j hj

/-- A new call reports nothing yet. -/
theorem Reported.reserve {es : List Event} {s : State} (h : Reported es s) :
    Reported (es ++ [.reserve]) { s with
      calls := s.calls ++ [⟨s.queue, .waiting⟩], queue := .caught s.calls.length } := by
  have hmem : ∀ x : Event, x ≠ .reserve → (x ∈ es ++ [.reserve] ↔ x ∈ es) := by
    intro x hx
    rw [List.mem_append, List.mem_singleton, or_iff_left hx]
  have hnew := fun hold => Nat.lt_irrefl _ (h.known s.calls.length hold)
  refine ⟨fun j d hd => ?_, fun j d hd => ?_, fun j hj => ?_⟩
  · rw [hmem (.fetchRejected j) (by simp), hmem (.rejected j) (by simp)]
    rcases getElem?_concat_eq_some.mp hd with hd | ⟨rfl, rfl⟩
    · exact h.rejected j d hd
    · exact iff_of_false (by simp [Phase.isRejected]) fun hold => hnew (hold.imp_right .inl)
  · rw [hmem (.fulfilled j) (by simp)]
    rcases getElem?_concat_eq_some.mp hd with hd | ⟨rfl, rfl⟩
    · exact h.fulfilled j d hd
    · exact iff_of_false (by simp [Phase.isFulfilled]) fun hold => hnew (.inr (.inr hold))
  · rw [hmem (.fetchRejected j) (by simp), hmem (.rejected j) (by simp),
      hmem (.fulfilled j) (by simp)] at hj
    show j < (s.calls ++ [_]).length
    rw [List.length_append, List.length_singleton]
    exact Nat.lt_succ_of_lt (h.known j hj)

theorem reported : ∀ es s, run step initial es = some s → Reported es s := by
  refine run_induction step ⟨by simp [initial], by simp [initial], by simp⟩ ?_
  intro es s e t hrun ih hstep
  have hord := ordered es s hrun
  rcases step_cases hstep with ⟨rfl, rfl⟩ | ⟨i, c, hc, hm⟩
  · exact ih.reserve
  · obtain ⟨hopen, -, -⟩ := hord.moves_first hc hm
    have hnew := fun phase => ih.setPhase (e := e) hc hopen phase
    generalize c.phase = phase at hm
    cases hm with
    | fetching after _ _ _ =>
        exact hnew .fetching (by simp [Phase.isRejected]) (by simp [Phase.isFulfilled]) (by simp)
    | invoking after nonce _ _ _ =>
        have h := hnew (.calling nonce) (by simp [Phase.isRejected]) (by simp [Phase.isFulfilled])
          (by simp)
        exact ⟨h.rejected, h.fulfilled, h.known⟩
    | fetched nonce =>
        have h := hnew (.calling nonce) (by simp [Phase.isRejected]) (by simp [Phase.isFulfilled])
          (by simp)
        exact ⟨h.rejected, h.fulfilled, h.known⟩
    | fetchRejected =>
        exact hnew .fetchRejected (by simp [Phase.isRejected]) (by simp [Phase.isFulfilled])
          (by simp)
    | fulfilled nonce =>
        exact hnew (.fulfilled nonce) (by simp [Phase.isRejected]) (by simp [Phase.isFulfilled])
          (by simp)
    | rejected nonce =>
        exact hnew (.rejected nonce) (by simp [Phase.isRejected]) (by simp [Phase.isFulfilled])
          (by simp)

/-! ### Safe allocation -/

/-- What the callers of `reserve` rely on. -/
structure Allocated (es : List Event) (s : State) : Prop where
  /-- A call has begun only if all calls before it have settled. -/
  oneAtATime : ∀ (i j : ℕ) (c d : Call), i < j → s.calls[i]? = some c → s.calls[j]? = some d →
    d.phase ≠ .waiting → c.phase.settled = true
  inOrder : (s.invoked.map Prod.fst).Pairwise (· < ·)
  numbered : ∀ k i nonce : ℕ, s.invoked[k]? = some (i, nonce) →
    ∃ n₀, firstFetched es = some n₀ ∧ nonce = n₀ + k
  distinct : (s.invoked.map Prod.snd).Nodup
  ownFailures : ∀ (i : ℕ) (c : Call), s.calls[i]? = some c →
    (c.phase.isRejected = true ↔ .fetchRejected i ∈ es ∨ .rejected i ∈ es)
  ownSuccesses : ∀ (i : ℕ) (c : Call), s.calls[i]? = some c →
    (c.phase.isFulfilled = true ↔ .fulfilled i ∈ es)
  /-- However the calls before it ended, a waiting call can begin. -/
  neverBlocked : ∀ (i : ℕ) (c : Call), s.calls[i]? = some c → c.phase = .waiting →
    (∀ (j : ℕ) (d : Call), j < i → s.calls[j]? = some d → d.phase.settled = true) →
    ∃ t d, step s (.start i) = some t ∧ t.calls[i]? = some d
      ∧ (d.phase = .fetching ∨ ∃ nonce, d.phase = .calling nonce)

/-- The place of a callback among those started tells its nonce. -/
theorem Ordered.exists_place {es : List Event} {s : State} (h : Ordered es s) {i nonce : ℕ}
    (hmem : (i, nonce) ∈ s.invoked) :
    ∃ n₀ k, firstFetched es = some n₀ ∧ s.invoked[k]? = some (i, nonce) ∧ nonce = n₀ + k := by
  obtain ⟨k, hk⟩ := List.mem_iff_getElem?.mp hmem
  obtain ⟨n₀, hn₀, hnonce⟩ := h.nonces k i nonce hk
  exact ⟨n₀, k, hn₀, hk, hnonce⟩

/-- Callbacks are started in the order of their calls. -/
theorem Ordered.place_lt_iff {es : List Event} {s : State} (h : Ordered es s)
    {k l i j n m : ℕ} (hk : s.invoked[k]? = some (i, n)) (hl : s.invoked[l]? = some (j, m)) :
    i < j ↔ k < l := by
  obtain ⟨hk', hki⟩ := List.getElem?_eq_some_iff.mp hk
  obtain ⟨hl', hlj⟩ := List.getElem?_eq_some_iff.mp hl
  have hpairs := List.pairwise_iff_getElem.mp h.increasing
  simp only [List.length_map, List.getElem_map] at hpairs
  rcases Nat.lt_trichotomy k l with hlt | rfl | hgt
  · have := hpairs k l hk' hl' hlt
    rw [hki, hlj] at this
    exact iff_of_true this hlt
  · rw [hk] at hl
    obtain ⟨rfl, rfl⟩ := Prod.mk.injEq .. ▸ Option.some.inj hl
    simp
  · have hge := hpairs l k hl' hk' hgt
    rw [hki, hlj] at hge
    exact iff_of_false (Nat.lt_asymm hge) (Nat.lt_asymm hgt)

/-- **Nonces are allocated safely.**  In every run, whatever `fetchNonce` and the callbacks do and
whenever they do it. -/
theorem allocated {es : List Event} {s : State} (hrun : run step initial es = some s) :
    Allocated es s := by
  have h := ordered es s hrun
  have hreported := reported es s hrun
  refine
    { oneAtATime := h.inTurn
      inOrder := h.increasing
      numbered := h.nonces
      distinct := ?_
      ownFailures := hreported.rejected
      ownSuccesses := hreported.fulfilled
      neverBlocked := fun i c hc hwaiting hbefore => ?_ }
  · rw [List.Nodup, List.pairwise_iff_getElem]
    intro k l hk hl hkl
    rw [List.length_map] at hk hl
    obtain ⟨a, ha, hka⟩ := h.nonces k _ _ (List.getElem?_eq_getElem hk)
    obtain ⟨b, hb, hlb⟩ := h.nonces l _ _ (List.getElem?_eq_getElem hl)
    obtain rfl := Option.some.inj (ha.symm.trans hb)
    rw [List.getElem_map, List.getElem_map]
    show (s.invoked.get ⟨k, hk⟩).snd ≠ (s.invoked.get ⟨l, hl⟩).snd
    omega
  · obtain ⟨after, phase⟩ := c
    obtain rfl : phase = .waiting := hwaiting
    have hresolved := (h.isResolved_iff hc).mpr hbefore
    cases hnext : s.next with
    | none =>
        refine ⟨setPhase s i .fetching, _, ?_, getElem?_setPhase_self hc, .inl rfl⟩
        simp only [step, hc, hresolved, if_true, hnext]
    | some nonce =>
        refine ⟨invoke s i nonce, _, ?_, getElem?_setPhase_self hc, .inr ⟨nonce, rfl⟩⟩
        simp only [step, hc, hresolved, if_true, hnext]

/-! Three calls at once: the first fetch fails, then a callback, then one succeeds. -/

def failures : List Event :=
  [.reserve, .reserve, .reserve, .start 0, .fetchRejected 0, .start 1, .fetched 1 100, .rejected 1,
    .start 2, .fulfilled 2]

theorem allocated_failures : ∃ s, run step initial failures = some s
    ∧ s.calls.map (·.phase) = [.fetchRejected, .rejected 100, .fulfilled 101]
    ∧ s.invoked = [(1, 100), (2, 101)] ∧ Allocated failures s := by
  obtain ⟨s, hs⟩ := Option.isSome_iff_exists.mp
    (by decide : (run step initial failures).isSome = true)
  have hend : (run step initial failures).map (fun s => (s.calls.map (·.phase), s.invoked))
      = some ([.fetchRejected, .rejected 100, .fulfilled 101], [(1, 100), (2, 101)]) := by decide
  rw [hs, Option.map_some, Option.some.injEq, Prod.mk.injEq] at hend
  exact ⟨s, hs, hend.1, hend.2, allocated hs⟩

/-! ### Gaps -/

/-- The nonces whose callbacks succeeded. -/
def broadcast (s : State) : Set ℕ :=
  {nonce | ∃ (i : ℕ) (c : Call), s.calls[i]? = some c ∧ c.phase = .fulfilled nonce}

/-- The broadcast nonces are a range that starts at the fetched nonce. -/
def GapFree (es : List Event) (s : State) : Prop :=
  ∀ n₀, firstFetched es = some n₀ → ∃ k, broadcast s = Set.Ico n₀ (n₀ + k)

/-- A callback succeeds only if none has failed. -/
def NoneFailed (s : State) (e : Event) : Prop :=
  ∀ i, e = .fulfilled i → ∀ (j : ℕ) (c : Call) (nonce : ℕ), s.calls[j]? = some c →
    c.phase ≠ .rejected nonce

theorem broadcast_setPhase_of_ne {s : State} {i : ℕ} {c : Call} (hc : s.calls[i]? = some c)
    (hopen : c.phase.settled = false) {phase : Phase}
    (hphase : ∀ nonce, phase ≠ .fulfilled nonce) :
    broadcast (setPhase s i phase) = broadcast s := by
  ext nonce
  constructor
  · rintro ⟨j, d, hd, hful⟩
    rcases getElem?_setPhase hc hd with ⟨rfl, rfl⟩ | ⟨-, hd⟩
    · exact absurd hful (hphase nonce)
    · exact ⟨j, d, hd, hful⟩
  · rintro ⟨j, d, hd, hful⟩
    by_cases hj : j = i
    · subst hj
      obtain rfl := Option.some.inj (hc.symm.trans hd)
      rw [hful] at hopen
      cases hopen
    · exact ⟨j, d, (getElem?_setPhase_of_ne hj).trans hd, hful⟩

theorem broadcast_fulfilled {s : State} {i nonce : ℕ} {c : Call} (hc : s.calls[i]? = some c)
    (hphase : c.phase = .calling nonce) :
    broadcast (setPhase s i (.fulfilled nonce)) = insert nonce (broadcast s) := by
  ext m
  rw [Set.mem_insert_iff]
  constructor
  · rintro ⟨j, d, hd, hful⟩
    rcases getElem?_setPhase hc hd with ⟨rfl, rfl⟩ | ⟨-, hd⟩
    · exact .inl (Phase.fulfilled.inj hful).symm
    · exact .inr ⟨j, d, hd, hful⟩
  · rintro (rfl | ⟨j, d, hd, hful⟩)
    · exact ⟨i, _, getElem?_setPhase_self hc, rfl⟩
    · by_cases hj : j = i
      · subst hj
        obtain rfl := Option.some.inj (hc.symm.trans hd)
        rw [hphase] at hful
        cases hful
      · exact ⟨j, d, (getElem?_setPhase_of_ne hj).trans hd, hful⟩

/-- What was broadcast lies in front of the callback that is under way. -/
theorem Ordered.broadcast_lt {es : List Event} {s : State} (h : Ordered es s) {i nonce m : ℕ}
    {c : Call} (hc : s.calls[i]? = some c) (hphase : c.phase = .calling nonce) {j : ℕ} {d : Call}
    (hd : s.calls[j]? = some d) (hsettled : d.phase.settled = true) (hm : d.phase.nonce = some m)
    {n₀ : ℕ} (hn₀ : firstFetched es = some n₀) : n₀ ≤ m ∧ m < nonce := by
  have hij : j < i := by
    rcases Nat.lt_trichotomy j i with hlt | rfl | hgt
    · exact hlt
    · obtain rfl := Option.some.inj (hc.symm.trans hd)
      rw [hphase] at hsettled
      cases hsettled
    · have hmoved : d.phase ≠ .waiting := by
        intro hwaiting
        rw [hwaiting] at hsettled
        cases hsettled
      have hearlier := h.inTurn i j c d hgt hc hd hmoved
      rw [hphase] at hearlier
      cases hearlier
  obtain ⟨a, k, ha, hk, rfl⟩ :=
    h.exists_place ((h.recorded i nonce).mpr ⟨c, hc, by rw [hphase]; rfl⟩)
  obtain ⟨b, l, hb, hl, rfl⟩ := h.exists_place ((h.recorded j m).mpr ⟨d, hd, hm⟩)
  obtain rfl := Option.some.inj (hn₀.symm.trans ha)
  obtain rfl := Option.some.inj (hn₀.symm.trans hb)
  have hlk := (h.place_lt_iff hl hk).mp hij
  omega

/-- Every nonce in front of the callback that is under way was given to a call that has settled. -/
theorem Ordered.exists_settled {es : List Event} {s : State} (h : Ordered es s) {i nonce m : ℕ}
    {c : Call} (hc : s.calls[i]? = some c) (hphase : c.phase = .calling nonce) {n₀ : ℕ}
    (hn₀ : firstFetched es = some n₀) (hle : n₀ ≤ m) (hlt : m < nonce) :
    ∃ (j : ℕ) (d : Call), s.calls[j]? = some d
      ∧ (d.phase = .fulfilled m ∨ d.phase = .rejected m) := by
  obtain ⟨a, k, ha, hk, rfl⟩ :=
    h.exists_place ((h.recorded i nonce).mpr ⟨c, hc, by rw [hphase]; rfl⟩)
  obtain rfl := Option.some.inj (hn₀.symm.trans ha)
  obtain ⟨hklen, -⟩ := List.getElem?_eq_some_iff.mp hk
  have hplace : m - n₀ < s.invoked.length := by omega
  have hentry := List.getElem?_eq_getElem hplace
  obtain ⟨j, m', hpair⟩ : ∃ j m', s.invoked.get ⟨m - n₀, hplace⟩ = (j, m') := ⟨_, _, rfl⟩
  have hl : s.invoked[m - n₀]? = some (j, m') := hentry.trans (congrArg some hpair)
  obtain ⟨b, hb, hm'⟩ := h.nonces _ j m' hl
  obtain rfl := Option.some.inj (hn₀.symm.trans hb)
  have hmm : m' = m := by omega
  subst hmm
  obtain ⟨d, hd, hnonce⟩ := (h.recorded j m').mp (List.mem_of_getElem? hl)
  have hji : j < i := (h.place_lt_iff hl hk).mpr (by omega)
  have hsettled := h.inTurn j i d c hji hd hc (by rw [hphase]; simp)
  refine ⟨j, d, hd, ?_⟩
  generalize d.phase = phase at hsettled hnonce
  cases phase with
  | fulfilled n => exact .inl (congrArg Phase.fulfilled (Option.some.inj hnonce))
  | rejected n => exact .inr (congrArg Phase.rejected (Option.some.inj hnonce))
  | fetchRejected => cases hnonce
  | waiting => cases hsettled
  | fetching => cases hsettled
  | calling n => cases hsettled

/-- **A success closes the range exactly when no callback has failed.** -/
theorem gapFree_fulfilled_iff {es : List Event} {s : State} (h : Ordered es s) {i nonce : ℕ}
    {c : Call} (hc : s.calls[i]? = some c) (hphase : c.phase = .calling nonce) {n₀ : ℕ}
    (hn₀ : firstFetched es = some n₀) :
    (∃ k, broadcast (setPhase s i (.fulfilled nonce)) = Set.Ico n₀ (n₀ + k))
      ↔ NoneFailed s (.fulfilled i) := by
  obtain ⟨a, k, ha, hk, hnonce⟩ :=
    h.exists_place ((h.recorded i nonce).mpr ⟨c, hc, by rw [hphase]; rfl⟩)
  obtain rfl := Option.some.inj (hn₀.symm.trans ha)
  rw [broadcast_fulfilled hc hphase]
  constructor
  · rintro ⟨l, hrange⟩ i' - j d m hd hfailed
    have hm := h.broadcast_lt hc hphase hd (by rw [hfailed]; rfl) (by rw [hfailed]; rfl) hn₀
    have hmem : nonce ∈ Set.Ico n₀ (n₀ + l) := hrange ▸ Set.mem_insert _ _
    have hgap : m ∈ Set.Ico n₀ (n₀ + l) := ⟨hm.1, hm.2.trans hmem.2⟩
    rw [← hrange, Set.mem_insert_iff] at hgap
    rcases hgap with rfl | ⟨j', d', hd', hful⟩
    · omega
    · -- one nonce would have been given to two calls
      obtain ⟨b, p, hb, hp, hpm⟩ :=
        h.exists_place ((h.recorded j m).mpr ⟨d, hd, by rw [hfailed]; rfl⟩)
      obtain ⟨b', p', hb', hp', hpm'⟩ :=
        h.exists_place ((h.recorded j' m).mpr ⟨d', hd', by rw [hful]; rfl⟩)
      obtain rfl := Option.some.inj (hb.symm.trans hb')
      have hpp : p = p' := by omega
      subst hpp
      have hjj := Option.some.inj (hp.symm.trans hp')
      obtain rfl : j = j' := congrArg Prod.fst hjj
      obtain rfl := Option.some.inj (hd.symm.trans hd')
      rw [hfailed] at hful
      cases hful
  · intro hnone
    refine ⟨k + 1, ?_⟩
    ext m
    rw [Set.mem_insert_iff]
    constructor
    · rintro (rfl | ⟨j, d, hd, hful⟩)
      · exact ⟨by omega, by omega⟩
      · have hm := h.broadcast_lt hc hphase hd (by rw [hful]; rfl) (by rw [hful]; rfl) hn₀
        exact ⟨hm.1, by omega⟩
    · rintro ⟨hle, hlt⟩
      rcases Nat.lt_or_ge m nonce with hbefore | hge
      · obtain ⟨j, d, hd, hful | hfailed⟩ := h.exists_settled hc hphase hn₀ hle hbefore
        · exact .inr ⟨j, d, hd, hful⟩
        · exact absurd hfailed (hnone i rfl j d m hd)
      · exact .inl (by omega)

/-- Before the first fetch nothing was broadcast. -/
theorem Ordered.broadcast_eq_empty {es : List Event} {s : State} (h : Ordered es s)
    (hnone : firstFetched es = none) : broadcast s = ∅ := by
  refine Set.eq_empty_of_forall_notMem ?_
  rintro m ⟨j, d, hd, hful⟩
  obtain ⟨n₀, k, hn₀, -, -⟩ := h.exists_place ((h.recorded j m).mpr ⟨d, hd, by rw [hful]; rfl⟩)
  rw [hnone] at hn₀
  cases hn₀

/-- A step leaves the range without a gap exactly if it is no success after a failure. -/
theorem gapFree_step_iff {es : List Event} {s t : State} {e : Event} (h : Ordered es s)
    (hgood : GapFree es s) (hstep : step s e = some t) :
    GapFree (es ++ [e]) t ↔ NoneFailed s e := by
  have hsame : broadcast t = broadcast s → (∀ i, e ≠ .fulfilled i) →
      (GapFree (es ++ [e]) t ↔ NoneFailed s e) := by
    intro hbroadcast hother
    refine iff_of_true (fun n₀ hn₀ => ?_) fun i hi => absurd hi (hother i)
    rw [hbroadcast]
    cases hfirst : firstFetched es with
    | none => exact ⟨0, by rw [h.broadcast_eq_empty hfirst, Nat.add_zero, Set.Ico_self]⟩
    | some m =>
        rw [firstFetched_snoc, hfirst, Option.some_or] at hn₀
        exact hgood n₀ (hfirst.trans hn₀)
  rcases step_cases hstep with ⟨rfl, rfl⟩ | ⟨i, c, hc, hm⟩
  · refine hsame ?_ (by simp)
    ext m
    constructor
    · rintro ⟨j, d, hd, hful⟩
      rcases getElem?_concat_eq_some.mp hd with hd | ⟨rfl, rfl⟩
      · exact ⟨j, d, hd, hful⟩
      · cases hful
    · rintro ⟨j, d, hd, hful⟩
      exact ⟨j, d, getElem?_concat_eq_some.mpr (.inl hd), hful⟩
  · obtain ⟨hopen, -, -⟩ := h.moves_first hc hm
    generalize hphase : c.phase = phase at hm
    cases hm with
    | fetching after _ _ _ => exact hsame (broadcast_setPhase_of_ne hc hopen (by simp)) (by simp)
    | invoking after nonce _ _ _ =>
        exact hsame (broadcast_setPhase_of_ne hc hopen (by simp)) (by simp)
    | fetched nonce => exact hsame (broadcast_setPhase_of_ne hc hopen (by simp)) (by simp)
    | fetchRejected => exact hsame (broadcast_setPhase_of_ne hc hopen (by simp)) (by simp)
    | rejected nonce => exact hsame (broadcast_setPhase_of_ne hc hopen (by simp)) (by simp)
    | fulfilled nonce =>
        obtain ⟨n₀, -, hn₀, -, -⟩ :=
          h.exists_place ((h.recorded i nonce).mpr ⟨c, hc, by rw [hphase]; rfl⟩)
        have hfirst : firstFetched (es ++ [.fulfilled i]) = some n₀ := by
          rw [firstFetched_snoc, hn₀]
          rfl
        rw [← gapFree_fulfilled_iff h hc hphase hn₀]
        constructor
        · intro hgap
          exact hgap n₀ hfirst
        · intro hrange m hm
          obtain rfl := Option.some.inj (hfirst.symm.trans hm)
          exact hrange

/-- **When the broadcast nonces have no gap.**  At every moment of a run they are a range from the
fetched nonce, if and only if no callback succeeds after one has failed. -/
theorem gapFree_throughout_iff : ∀ es s, run step initial es = some s →
    ((∀ ps m, ps <+: es → run step initial ps = some m → GapFree ps m)
      ↔ AllSteps step NoneFailed initial es) := by
  refine throughout_history_iff step ?_ ?_
  · intro n₀ hn₀
    cases hn₀
  · intro es s e t hrun hgood hstep
    exact gapFree_step_iff (ordered es s hrun) hgood hstep

/-! A run that ends with a failure, and the run above, in which a success comes after one. -/

def lastFails : List Event :=
  [.reserve, .reserve, .start 0, .fetched 0 100, .fulfilled 0, .start 1, .rejected 1]

theorem gapFree_throughout_lastFails : ∃ s, run step initial lastFails = some s
    ∧ s.calls.map (·.phase) = [.fulfilled 100, .rejected 101]
    ∧ ((∀ ps m, ps <+: lastFails → run step initial ps = some m → GapFree ps m)
      ↔ AllSteps step NoneFailed initial lastFails) := by
  obtain ⟨s, hs⟩ := Option.isSome_iff_exists.mp
    (by decide : (run step initial lastFails).isSome = true)
  have hend : (run step initial lastFails).map (fun s => s.calls.map (·.phase))
      = some [.fulfilled 100, .rejected 101] := by decide
  rw [hs, Option.map_some, Option.some.injEq] at hend
  exact ⟨s, hs, hend, gapFree_throughout_iff lastFails s hs⟩

/-- Nonce 101 is broadcast and nonce 100, the first one, is not. -/
theorem failures_leave_gap : ∃ s, run step initial failures = some s
    ∧ firstFetched failures = some 100 ∧ 101 ∈ broadcast s ∧ ¬ GapFree failures s := by
  obtain ⟨s, hs⟩ := Option.isSome_iff_exists.mp
    (by decide : (run step initial failures).isSome = true)
  have hcalls : (run step initial failures).map (·.calls) = some [⟨.resolved, .fetchRejected⟩,
      ⟨.caught 0, .rejected 100⟩, ⟨.caught 1, .fulfilled 101⟩] := by decide
  rw [hs, Option.map_some, Option.some.injEq] at hcalls
  have hlast : 101 ∈ broadcast s := ⟨2, ⟨.caught 1, .fulfilled 101⟩, by rw [hcalls]; rfl, rfl⟩
  refine ⟨s, hs, by decide, hlast, fun hgap => ?_⟩
  obtain ⟨k, hrange⟩ := hgap 100 (by decide)
  rw [hrange] at hlast
  have hfirst : 100 ∈ broadcast s := by
    rw [hrange]
    exact ⟨Nat.le_refl 100, by have := hlast.2; omega⟩
  obtain ⟨i, c, hc, hful⟩ := hfirst
  rw [hcalls] at hc
  have hmem := List.mem_of_getElem? hc
  simp only [List.mem_cons, List.not_mem_nil, or_false] at hmem
  rcases hmem with rfl | rfl | rfl
  · cases hful
  · cases hful
  · cases hful

end A2aAgentLayer.Blockchain.NonceManager
