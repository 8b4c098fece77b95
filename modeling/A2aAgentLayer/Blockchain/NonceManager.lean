import Mathlib.Data.List.Basic
import A2aAgentLayer.Lib.Run

/-!
# The nonce manager

`reserve` chains its job to the promise in `queue` and puts the caught promise of its own run in
there.  A job runs when the promise it was chained to has resolved: it fetches the first nonce if
none is known, takes the next one and hands it to its callback.  `fetchNonce` and the callbacks
settle whenever they like.

Nothing in a step looks at other jobs than through the promises.  That jobs nevertheless take turns
in the order of the calls is the invariant of a run (`ordered`).
-/

namespace A2aAgentLayer.Blockchain.NonceManager

open A2aAgentLayer.Lib.Run

/-- What `queue` can hold: `Promise.resolve()`, or the caught promise of a run. -/
inductive Link where
  | resolved
  | caught (i : ℕ)
  deriving DecidableEq

/-- What the run of a call waits for, or how its promise was settled. -/
inductive Phase where
  | waiting
  | fetching
  | calling (nonce : ℕ)
  | fulfilled (nonce : ℕ)
  | fetchRejected
  | rejected (nonce : ℕ)
  deriving DecidableEq

def Phase.settled : Phase → Bool
  | .waiting => false
  | .fetching => false
  | .calling _ => false
  | .fulfilled _ => true
  | .fetchRejected => true
  | .rejected _ => true

/-- The nonce that was given to the callback, once it has been started. -/
def Phase.nonce : Phase → Option ℕ
  | .calling nonce => some nonce
  | .fulfilled nonce => some nonce
  | .rejected nonce => some nonce
  | _ => none

/-- The promise of the caller is rejected. -/
def Phase.isRejected : Phase → Bool
  | .fetchRejected => true
  | .rejected _ => true
  | _ => false

/-- A call of `reserve`, with the promise its job is chained to. -/
structure Call where
  after : Link
  phase : Phase
  deriving DecidableEq

/-- `invoked` lists the callbacks that were started, by the number of their call, with the nonces
they were given. -/
structure State where
  next : Option ℕ
  queue : Link
  calls : List Call
  invoked : List (ℕ × ℕ)
  deriving DecidableEq

inductive Event where
  | reserve
  | start (i : ℕ)
  | fetched (i nonce : ℕ)
  | fetchRejected (i : ℕ)
  | fulfilled (i : ℕ)
  | rejected (i : ℕ)
  deriving DecidableEq

def initial : State := ⟨none, .resolved, [], []⟩

/-- The catch handler makes a promise of `queue` resolve however its run ended. -/
def Link.isResolved (calls : List Call) : Link → Bool
  | .resolved => true
  | .caught i => (calls[i]?).any fun c => c.phase.settled

def setPhase (s : State) (i : ℕ) (phase : Phase) : State :=
  { s with calls := s.calls.modify i fun c => { c with phase := phase } }

/-- `this.next = nonce + 1; return fn(nonce)`. -/
def invoke (s : State) (i nonce : ℕ) : State :=
  { setPhase s i (.calling nonce) with
    next := some (nonce + 1), invoked := s.invoked ++ [(i, nonce)] }

def step (s : State) : Event → Option State
  | .reserve => some { s with
      calls := s.calls ++ [⟨s.queue, .waiting⟩], queue := .caught s.calls.length }
  | .start i =>
      match s.calls[i]? with
      | some ⟨after, .waiting⟩ =>
          if after.isResolved s.calls then
            match s.next with
            | none => some (setPhase s i .fetching)
            | some nonce => some (invoke s i nonce)
          else none
      | _ => none
  | .fetched i nonce =>
      match s.calls[i]? with
      | some ⟨_, .fetching⟩ => some (invoke s i nonce)
      | _ => none
  | .fetchRejected i =>
      match s.calls[i]? with
      | some ⟨_, .fetching⟩ => some (setPhase s i .fetchRejected)
      | _ => none
  | .fulfilled i =>
      match s.calls[i]? with
      | some ⟨_, .calling nonce⟩ => some (setPhase s i (.fulfilled nonce))
      | _ => none
  | .rejected i =>
      match s.calls[i]? with
      | some ⟨_, .calling nonce⟩ => some (setPhase s i (.rejected nonce))
      | _ => none

/-- The first value that `fetchNonce` returned. -/
def firstFetched (es : List Event) : Option ℕ :=
  es.findSome? fun e =>
    match e with
    | .fetched _ nonce => some nonce
    | _ => none

/-! ### What one step does -/

/-- A call moves on from one phase to another. -/
inductive Moves (s : State) (i : ℕ) : Phase → Event → State → Prop where
  | fetching (after : Link) : s.calls[i]? = some ⟨after, .waiting⟩ →
      after.isResolved s.calls = true → s.next = none →
      Moves s i .waiting (.start i) (setPhase s i .fetching)
  | invoking (after : Link) (nonce : ℕ) : s.calls[i]? = some ⟨after, .waiting⟩ →
      after.isResolved s.calls = true → s.next = some nonce →
      Moves s i .waiting (.start i) (invoke s i nonce)
  | fetched (nonce : ℕ) : Moves s i .fetching (.fetched i nonce) (invoke s i nonce)
  | fetchRejected : Moves s i .fetching (.fetchRejected i) (setPhase s i .fetchRejected)
  | fulfilled (nonce : ℕ) :
      Moves s i (.calling nonce) (.fulfilled i) (setPhase s i (.fulfilled nonce))
  | rejected (nonce : ℕ) :
      Moves s i (.calling nonce) (.rejected i) (setPhase s i (.rejected nonce))

/-- **A step** registers a call, or one call moves on. -/
theorem step_cases {s t : State} {e : Event} (h : step s e = some t) :
    (e = .reserve ∧ t = { s with
        calls := s.calls ++ [⟨s.queue, .waiting⟩], queue := .caught s.calls.length })
      ∨ ∃ i c, s.calls[i]? = some c ∧ Moves s i c.phase e t := by
  cases e with
  | reserve => exact .inl ⟨rfl, (Option.some.inj h).symm⟩
  | start i =>
      simp only [step] at h
      split at h
      next after hc =>
        split_ifs at h with hresolved
        split at h
        next hnext =>
          obtain rfl := Option.some.inj h
          exact .inr ⟨i, _, hc, .fetching after hc hresolved hnext⟩
        next nonce hnext =>
          obtain rfl := Option.some.inj h
          exact .inr ⟨i, _, hc, .invoking after nonce hc hresolved hnext⟩
      · cases h
  | fetched i nonce =>
      simp only [step] at h
      split at h
      next hc =>
        obtain rfl := Option.some.inj h
        exact .inr ⟨i, _, hc, .fetched nonce⟩
      · cases h
  | fetchRejected i =>
      simp only [step] at h
      split at h
      next hc =>
        obtain rfl := Option.some.inj h
        exact .inr ⟨i, _, hc, .fetchRejected⟩
      · cases h
  | fulfilled i =>
      simp only [step] at h
      split at h
      next nonce hc =>
        obtain rfl := Option.some.inj h
        exact .inr ⟨i, _, hc, .fulfilled nonce⟩
      · cases h
  | rejected i =>
      simp only [step] at h
      split at h
      next nonce hc =>
        obtain rfl := Option.some.inj h
        exact .inr ⟨i, _, hc, .rejected nonce⟩
      · cases h

/-! ### Taking turns -/

/-- The promise that the job of the `i`-th call is chained to. -/
def linkBefore : ℕ → Link
  | 0 => .resolved
  | i + 1 => .caught i

/-- What holds in every state a run reaches. -/
structure Ordered (es : List Event) (s : State) : Prop where
  chained : ∀ (i : ℕ) (c : Call), s.calls[i]? = some c → c.after = linkBefore i
  queue : s.queue = linkBefore s.calls.length
  inTurn : ∀ (i j : ℕ) (c d : Call), i < j → s.calls[i]? = some c → s.calls[j]? = some d →
    d.phase ≠ .waiting → c.phase.settled = true
  fetching : ∀ (i : ℕ) (c : Call), s.calls[i]? = some c → c.phase = .fetching → s.next = none
  next : s.next = (firstFetched es).map (· + s.invoked.length)
  nonces : ∀ k i nonce : ℕ, s.invoked[k]? = some (i, nonce) →
    ∃ n₀, firstFetched es = some n₀ ∧ nonce = n₀ + k
  recorded : ∀ i nonce : ℕ, (i, nonce) ∈ s.invoked ↔
    ∃ c : Call, s.calls[i]? = some c ∧ c.phase.nonce = some nonce
  increasing : (s.invoked.map Prod.fst).Pairwise (· < ·)

theorem ordered_initial : Ordered [] initial where
  chained := by simp [initial]
  queue := rfl
  inTurn := by simp [initial]
  fetching := by simp [initial]
  next := rfl
  nonces := by simp [initial]
  recorded := by simp [initial]
  increasing := by simp [initial]

/-- Under the invariant a job may run when all calls before it have settled. -/
theorem Ordered.isResolved_iff {es : List Event} {s : State} (h : Ordered es s) {i : ℕ} {c : Call}
    (hc : s.calls[i]? = some c) :
    c.after.isResolved s.calls = true ↔
      ∀ j d, j < i → s.calls[j]? = some d → d.phase.settled = true := by
  rw [h.chained i c hc]
  cases i with
  | zero =>
      refine iff_of_true rfl ?_
      intro j d hj
      omega
  | succ i =>
      have hi : i < s.calls.length := by
        obtain ⟨hlt, -⟩ := List.getElem?_eq_some_iff.mp hc
        omega
      have hprev := List.getElem?_eq_getElem hi
      show ((s.calls[i]?).any fun d => d.phase.settled) = true ↔ _
      rw [hprev, Option.any_some]
      constructor
      · intro hsettled j d hj hd
        rcases Nat.lt_or_ge j i with hlt | hge
        · refine h.inTurn j i d _ hlt hd hprev ?_
          intro hwaiting
          rw [hwaiting] at hsettled
          cases hsettled
        · have hji : j = i := by omega
          subst hji
          obtain rfl := Option.some.inj (hprev.symm.trans hd)
          exact hsettled
      · intro hall
        exact hall i _ (by omega) hprev

theorem getElem?_setPhase_self {s : State} {i : ℕ} {c : Call} {phase : Phase}
    (hc : s.calls[i]? = some c) :
    (setPhase s i phase).calls[i]? = some { c with phase := phase } := by
  show (s.calls.modify i fun c => { c with phase := phase })[i]? = _
  rw [List.getElem?_modify_eq, hc]
  rfl

theorem getElem?_setPhase_of_ne {s : State} {i j : ℕ} {phase : Phase} (h : j ≠ i) :
    (setPhase s i phase).calls[j]? = s.calls[j]? := by
  show (s.calls.modify i fun c => { c with phase := phase })[j]? = s.calls[j]?
  rw [List.getElem?_modify_ne _ _ (Ne.symm h)]

/-- A call of the new state is the one that moved, or stands as it was. -/
theorem getElem?_setPhase {s : State} {i j : ℕ} {c d : Call} {phase : Phase}
    (hc : s.calls[i]? = some c) (hd : (setPhase s i phase).calls[j]? = some d) :
    (j = i ∧ d = { c with phase := phase }) ∨ (j ≠ i ∧ s.calls[j]? = some d) := by
  by_cases hj : j = i
  · subst hj
    rw [getElem?_setPhase_self hc] at hd
    exact .inl ⟨rfl, (Option.some.inj hd).symm⟩
  · rw [getElem?_setPhase_of_ne hj] at hd
    exact .inr ⟨hj, hd⟩

/-- **Only the first open call moves.** -/
theorem Ordered.moves_first {es : List Event} {s t : State} {e : Event} (h : Ordered es s) {i : ℕ}
    {c : Call} (hc : s.calls[i]? = some c) (hm : Moves s i c.phase e t) :
    c.phase.settled = false
      ∧ (∀ j d, j < i → s.calls[j]? = some d → d.phase.settled = true)
      ∧ ∀ j d, i < j → s.calls[j]? = some d → d.phase = .waiting := by
  have hopen : c.phase.settled = false := by
    generalize c.phase = phase at hm
    cases hm <;> rfl
  refine ⟨hopen, fun j d hj hd => ?_, fun j d hj hd => ?_⟩
  · by_cases hwaiting : c.phase = .waiting
    · have hresolved : c.after.isResolved s.calls = true := by
        rw [hwaiting] at hm
        cases hm with
        | fetching after hc' hresolved _ =>
            obtain rfl := Option.some.inj (hc.symm.trans hc')
            exact hresolved
        | invoking after nonce hc' hresolved _ =>
            obtain rfl := Option.some.inj (hc.symm.trans hc')
            exact hresolved
      exact (h.isResolved_iff hc).mp hresolved j d hj hd
    · exact h.inTurn j i d c hj hd hc hwaiting
  · by_contra hmoved
    rw [h.inTurn i j c d hj hc hd hmoved] at hopen
    cases hopen

theorem Ordered.chained_setPhase {es : List Event} {s : State} (h : Ordered es s) {i : ℕ}
    {c : Call} (hc : s.calls[i]? = some c) {phase : Phase} (j : ℕ) (d : Call)
    (hd : (setPhase s i phase).calls[j]? = some d) : d.after = linkBefore j := by
  rcases getElem?_setPhase hc hd with ⟨rfl, rfl⟩ | ⟨-, hd⟩
  · exact h.chained j c hc
  · exact h.chained j d hd

theorem Ordered.queue_setPhase {es : List Event} {s : State} (h : Ordered es s) {i : ℕ}
    {phase : Phase} : s.queue = linkBefore (setPhase s i phase).calls.length := by
  show s.queue = linkBefore (s.calls.modify i fun c => { c with phase := phase }).length
  rw [List.length_modify]
  exact h.queue

/-- Calls still take turns when one of them has moved. -/
theorem Ordered.inTurn_setPhase {es : List Event} {s t : State} {e : Event} (h : Ordered es s)
    {i : ℕ} {c : Call} (hc : s.calls[i]? = some c) (hm : Moves s i c.phase e t) {phase : Phase}
    (j k : ℕ) (a b : Call) (hjk : j < k) (ha : (setPhase s i phase).calls[j]? = some a)
    (hb : (setPhase s i phase).calls[k]? = some b) (hmoved : b.phase ≠ .waiting) :
    a.phase.settled = true := by
  obtain ⟨-, hbefore, hbehind⟩ := h.moves_first hc hm
  rcases getElem?_setPhase hc ha with ⟨rfl, rfl⟩ | ⟨-, ha⟩
  · rcases getElem?_setPhase hc hb with ⟨rfl, rfl⟩ | ⟨-, hb⟩
    · omega
    · exact absurd (hbehind k b hjk hb) hmoved
  · rcases getElem?_setPhase hc hb with ⟨hk, -⟩ | ⟨-, hb⟩
    · exact hbefore j a (hk ▸ hjk) ha
    · exact h.inTurn j k a b hjk ha hb hmoved

/-- A step that starts no callback keeps the invariant, if the call's nonce stays and a fetch
begins only while no nonce is known. -/
theorem Ordered.setPhase {es : List Event} {s t : State} {e : Event} (h : Ordered es s) {i : ℕ}
    {c : Call} (hc : s.calls[i]? = some c) {phase : Phase}
    (hm : Moves s i c.phase e t) (hnonce : phase.nonce = c.phase.nonce)
    (hfetch : phase = .fetching → s.next = none)
    (hfirst : firstFetched (es ++ [e]) = firstFetched es) :
    Ordered (es ++ [e]) (setPhase s i phase) := by
  refine
    { chained := h.chained_setPhase hc
      queue := h.queue_setPhase
      inTurn := h.inTurn_setPhase hc hm
      fetching := fun j d hd hphase => ?_
      next := hfirst ▸ h.next
      nonces := hfirst ▸ h.nonces
      recorded := fun j nonce => ?_
      increasing := h.increasing }
  · rcases getElem?_setPhase hc hd with ⟨rfl, rfl⟩ | ⟨-, hd⟩
    · exact hfetch hphase
    · exact h.fetching j d hd hphase
  · show (j, nonce) ∈ s.invoked ↔ _
    rw [h.recorded]
    by_cases hj : j = i
    · subst hj
      simp only [getElem?_setPhase_self hc, hc, Option.some.injEq, exists_eq_left', hnonce]
    · rw [getElem?_setPhase_of_ne hj]

/-- A step that starts a callback with the next nonce keeps the invariant. -/
theorem Ordered.invoke {es : List Event} {s t : State} {e : Event} (h : Ordered es s) {i : ℕ}
    {c : Call} (hc : s.calls[i]? = some c) {nonce n₀ : ℕ} (hm : Moves s i c.phase e t)
    (hnew : c.phase.nonce = none) (hfirst : firstFetched (es ++ [e]) = some n₀)
    (hnonce : nonce = n₀ + s.invoked.length)
    (hold : ∀ k j m, s.invoked[k]? = some (j, m) → m = n₀ + k) :
    Ordered (es ++ [e]) (invoke s i nonce) := by
  obtain ⟨hopen, hbefore, hbehind⟩ := h.moves_first hc hm
  refine
    { chained := h.chained_setPhase hc
      queue := h.queue_setPhase
      inTurn := h.inTurn_setPhase hc hm
      fetching := fun j d hd hphase => ?_
      next := ?_
      nonces := fun k j m hk => ⟨n₀, hfirst, ?_⟩
      recorded := fun j m => ?_
      increasing := ?_ }
  · -- no other call can be fetching: those before have settled, those behind wait
    rcases getElem?_setPhase hc hd with ⟨rfl, rfl⟩ | ⟨hj, hd⟩
    · cases hphase
    · rcases Nat.lt_or_gt_of_ne hj with hlt | hgt
      · have hsettled := hbefore j d hlt hd
        rw [hphase] at hsettled
        cases hsettled
      · rw [hbehind j d hgt hd] at hphase
        cases hphase
  · show some (nonce + 1) = (firstFetched (es ++ [e])).map (· + (s.invoked ++ [(i, nonce)]).length)
    rw [hfirst, Option.map_some, List.length_append, List.length_singleton, hnonce, Nat.add_assoc]
  · rcases getElem?_concat_eq_some.mp hk with hk | ⟨rfl, hpair⟩
    · exact hold k j m hk
    · rw [(Prod.mk.inj hpair).2, hnonce]
  · show (j, m) ∈ s.invoked ++ [(i, nonce)] ↔ _
    rw [List.mem_append, List.mem_singleton, h.recorded, Prod.mk.injEq]
    show _ ↔ ∃ d, (NonceManager.setPhase s i (.calling nonce)).calls[j]? = some d ∧ _
    by_cases hj : j = i
    · subst hj
      have hgiven : (Phase.calling nonce).nonce = some nonce := rfl
      simp only [getElem?_setPhase_self hc, hc, Option.some.injEq, exists_eq_left', hnew, hgiven,
        reduceCtorEq, false_or, true_and]
      exact eq_comm
    · rw [getElem?_setPhase_of_ne hj]
      simp [hj]
  · show ((s.invoked ++ [(i, nonce)]).map Prod.fst).Pairwise (· < ·)
    rw [List.map_append, List.map_singleton, List.pairwise_append]
    refine ⟨h.increasing, List.pairwise_singleton _ _, ?_⟩
    intro j hj i' hi'
    obtain rfl := List.mem_singleton.mp hi'
    obtain ⟨⟨j, m⟩, hmem, rfl⟩ := List.mem_map.mp hj
    obtain ⟨d, hd, hphase⟩ := (h.recorded j m).mp hmem
    rcases Nat.lt_trichotomy j i' with hlt | rfl | hgt
    · exact hlt
    · obtain rfl := Option.some.inj (hc.symm.trans hd)
      rw [hnew] at hphase
      cases hphase
    · rw [hbehind j d hgt hd] at hphase
      cases hphase

theorem firstFetched_snoc (es : List Event) (e : Event) :
    firstFetched (es ++ [e]) = (firstFetched es).or (firstFetched [e]) :=
  List.findSome?_append

/-- A new call waits behind all others. -/
theorem Ordered.reserve {es : List Event} {s : State} (h : Ordered es s) :
    Ordered (es ++ [.reserve]) { s with
      calls := s.calls ++ [⟨s.queue, .waiting⟩], queue := .caught s.calls.length } := by
  have hfirst : firstFetched (es ++ [.reserve]) = firstFetched es := by
    rw [firstFetched_snoc]
    exact Option.or_none
  refine
    { chained := fun j d hd => ?_
      queue := ?_
      inTurn := fun j k a b hjk ha hb hmoved => ?_
      fetching := fun j d hd hphase => ?_
      next := hfirst ▸ h.next
      nonces := hfirst ▸ h.nonces
      recorded := fun j nonce => ?_
      increasing := h.increasing }
  · rcases getElem?_concat_eq_some.mp hd with hd | ⟨rfl, rfl⟩
    · exact h.chained j d hd
    · exact h.queue
  · show Link.caught s.calls.length = linkBefore (s.calls ++ [(⟨s.queue, .waiting⟩ : Call)]).length
    rw [List.length_append, List.length_singleton]
    rfl
  · rcases getElem?_concat_eq_some.mp hb with hb | ⟨rfl, rfl⟩
    · rcases getElem?_concat_eq_some.mp ha with ha | ⟨rfl, rfl⟩
      · exact h.inTurn j k a b hjk ha hb hmoved
      · obtain ⟨hlt, -⟩ := List.getElem?_eq_some_iff.mp hb
        omega
    · exact absurd rfl hmoved
  · rcases getElem?_concat_eq_some.mp hd with hd | ⟨rfl, rfl⟩
    · exact h.fetching j d hd hphase
    · cases hphase
  · show (j, nonce) ∈ s.invoked ↔ _
    rw [h.recorded]
    constructor
    · rintro ⟨d, hd, hphase⟩
      exact ⟨d, getElem?_concat_eq_some.mpr (.inl hd), hphase⟩
    · rintro ⟨d, hd, hphase⟩
      rcases getElem?_concat_eq_some.mp hd with hd | ⟨rfl, rfl⟩
      · exact ⟨d, hd, hphase⟩
      · cases hphase

/-- While a call fetches the first nonce, no callback has one. -/
theorem Ordered.nothing_fetched {es : List Event} {s : State} (h : Ordered es s) {i : ℕ} {c : Call}
    (hc : s.calls[i]? = some c) (hphase : c.phase = .fetching) :
    firstFetched es = none ∧ s.invoked = [] := by
  have hnone : firstFetched es = none := by
    have hnext := h.next
    rw [h.fetching i c hc hphase] at hnext
    exact Option.map_eq_none_iff.mp hnext.symm
  refine ⟨hnone, List.eq_nil_iff_forall_not_mem.mpr fun p hp => ?_⟩
  obtain ⟨k, hk⟩ := List.mem_iff_getElem?.mp hp
  obtain ⟨n, hn, -⟩ := h.nonces k p.1 p.2 hk
  rw [hnone] at hn
  cases hn

/-- **The invariant of a run.** -/
theorem ordered : ∀ es s, run step initial es = some s → Ordered es s := by
  refine run_induction step ordered_initial ?_
  intro es s e t _ ih hstep
  rcases step_cases hstep with ⟨rfl, rfl⟩ | ⟨i, c, hc, hm⟩
  · exact ih.reserve
  · have hm' := hm
    have hkept : firstFetched [e] = none → firstFetched (es ++ [e]) = firstFetched es := by
      intro hnone
      rw [firstFetched_snoc, hnone, Option.or_none]
    generalize hphase : c.phase = phase at hm
    cases hm with
    | fetching after hc' _ hnext =>
        exact ih.setPhase hc hm' (by rw [hphase]; rfl) (fun _ => hnext) (hkept rfl)
    | invoking after nonce hc' _ hnext =>
        have hsome := ih.next
        rw [hnext] at hsome
        obtain ⟨n₀, hn₀, hlast⟩ := Option.map_eq_some_iff.mp hsome.symm
        refine ih.invoke hc hm' (by rw [hphase]; rfl) ((hkept rfl).trans hn₀) hlast.symm ?_
        intro k j m hk
        obtain ⟨n, hn, rfl⟩ := ih.nonces k j m hk
        rw [Option.some.inj (hn₀.symm.trans hn)]
    | fetched nonce =>
        obtain ⟨hnone, hempty⟩ := ih.nothing_fetched hc hphase
        have hfirst : firstFetched (es ++ [.fetched i nonce]) = some nonce := by
          rw [firstFetched_snoc, hnone]
          rfl
        refine ih.invoke hc hm' (by rw [hphase]; rfl) hfirst ?_ ?_
        · rw [hempty]
          rfl
        · rw [hempty]
          simp
    | fetchRejected =>
        exact ih.setPhase hc hm' (by rw [hphase]; rfl) nofun (hkept rfl)
    | fulfilled nonce =>
        exact ih.setPhase hc hm' (by rw [hphase]; rfl) nofun (hkept rfl)
    | rejected nonce =>
        exact ih.setPhase hc hm' (by rw [hphase]; rfl) nofun (hkept rfl)

end A2aAgentLayer.Blockchain.NonceManager
