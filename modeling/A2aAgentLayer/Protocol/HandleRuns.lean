import A2aAgentLayer.Lib.Run
import A2aAgentLayer.Protocol.HandleRequest

/-!
# Runs of `handleRequest`

What holds in every state that interleaved calls reach: the calls are the requests that came in, in
their order; the nonce step lets one agent's checked nonce pass again only after the window; and the
rows of the two tables were written by calls that the policies allowed.
-/

namespace A2aAgentLayer.Protocol.HandleRequest

open A2aAgentLayer.Lib.Utf16 A2aAgentLayer.Lib.KeyedStore A2aAgentLayer.Lib.Run
open A2aAgentLayer.Metering.MeteringService A2aAgentLayer.Policies.Evaluator
open A2aAgentLayer.Protocol.NonceStore A2aAgentLayer.Protocol.Processing

/-! ### The nonce step along a run -/

/-- A call at the nonce step. -/
structure Attempt where
  dto : A2aRequestDto
  reached : ℤ
  passed : Bool

def Call.attempt (c : Call) : Attempt :=
  ⟨c.dto, c.reached, decide (c.phase ≠ .failed .replayed)⟩

def State.attempts (s : State) : List Attempt := s.calls.map Call.attempt

/-- Two attempts that the nonce step lets pass: the same agent and the same checked nonce come again
only after the window. -/
def Separated (windowMs : ℤ) (a b : Attempt) : Prop :=
  a.passed = true → b.passed = true → a.dto.agentFromId = b.dto.agentFromId →
    ∀ nonce, checkedNonce a.dto.nonce = some nonce → checkedNonce b.dto.nonce = some nonce →
      a.reached + windowMs < b.reached

/-- What the nonce step keeps true. -/
structure Gate (windowMs : ℤ) (entries : Entries) (now : ℤ) (attempts : List Attempt) : Prop where
  ordered : attempts.Pairwise fun a b => a.reached ≤ b.reached
  past : ∀ a ∈ attempts, a.reached ≤ now
  remembered : ∀ a ∈ attempts, a.passed = true → ∀ nonce, checkedNonce a.dto.nonce = some nonce →
    Remembers windowMs entries (nonceKey a.dto.agentFromId nonce) a.reached now
  separated : attempts.Pairwise (Separated windowMs)
  unchecked : ∀ a ∈ attempts, checkedNonce a.dto.nonce = none → a.passed = true

theorem Gate.evict {windowMs now later : ℤ} {entries : Entries} {attempts : List Attempt}
    (h : Gate windowMs entries now attempts) (hle : now ≤ later) :
    Gate windowMs (evictExpired windowMs entries later) later attempts where
  ordered := h.ordered
  past a ha := (h.past a ha).trans hle
  remembered a ha hpassed nonce hnonce :=
    Remembered.evict (h.remembered a ha hpassed nonce hnonce) (expired_later hle)
  separated := h.separated
  unchecked := h.unchecked

theorem Gate.wait {windowMs now later : ℤ} {entries : Entries} {attempts : List Attempt}
    (h : Gate windowMs entries now attempts) (hle : now ≤ later) :
    Gate windowMs entries later attempts where
  ordered := h.ordered
  past a ha := (h.past a ha).trans hle
  remembered a ha hpassed nonce hnonce :=
    Remembered.later (h.remembered a ha hpassed nonce hnonce) (expired_later hle)
  separated := h.separated
  unchecked := h.unchecked

/-- **The nonce step keeps the gate.** -/
theorem Gate.nonceStep {env : Env} {now reached written : ℤ} {entries : Entries}
    {attempts : List Attempt} (h : Gate env.windowMs entries now attempts) (dto : A2aRequestDto)
    (hnow : now ≤ reached) (hwritten : reached ≤ written) :
    Gate env.windowMs (nonceStep env entries dto reached written).1 written
      (attempts ++ [⟨dto, reached, (nonceStep env entries dto reached written).2⟩]) := by
  have hlast : ∀ {P : Attempt → Prop} {a : Attempt}, (∀ b ∈ attempts, P b) → P a →
      ∀ b ∈ attempts ++ [a], P b := by
    intro P a hall ha
    exact List.forall_mem_append.mpr ⟨hall, List.forall_mem_singleton.mpr ha⟩
  have hsnoc : ∀ {R : Attempt → Attempt → Prop} {a : Attempt}, attempts.Pairwise R →
      (∀ b ∈ attempts, R b a) → (attempts ++ [a]).Pairwise R := by
    intro R a hpair hall
    exact List.pairwise_append.mpr ⟨hpair, List.pairwise_singleton _ _, by simpa using hall⟩
  refine ⟨hsnoc h.ordered fun a ha => (h.past a ha).trans hnow,
    hlast (fun a ha => ((h.past a ha).trans hnow).trans hwritten) hwritten, ?_, ?_, ?_⟩
  · cases hchecked : checkedNonce dto.nonce with
    | none =>
        rw [nonceStep_of_none hchecked]
        exact hlast (h.wait (hnow.trans hwritten)).remembered
          fun _ nonce hnonce => absurd (hchecked.symm.trans hnonce) nofun
    | some nonce =>
        rw [nonceStep_of_some hchecked]
        refine hlast (fun a ha hpassed n hn => ?_) fun hpassed n hn => ?_
        · exact remembers_assertFresh (h.remembered a ha hpassed n hn) hnow hwritten (h.past a ha)
        · obtain rfl := Option.some.inj (hchecked.symm.trans hn)
          exact remembers_accepted hwritten hpassed
  · refine hsnoc h.separated fun a ha hpassed hfresh hagent nonce hnonce hchecked => ?_
    have hrem := h.remembered a ha hpassed nonce hnonce
    rw [show a.dto.agentFromId = dto.agentFromId from hagent] at hrem
    exact window_passed_of_accepted hrem hnow (nonceStep_of_some hchecked ▸ hfresh)
  · refine hlast h.unchecked fun hchecked => ?_
    show (HandleRequest.nonceStep env entries dto reached written).2 = true
    rw [nonceStep_of_none hchecked]

/-! ### Runs -/

/-- The requests of a list of events, with the instants at which they reach the nonce step. -/
def requests (es : List Event) : List (A2aRequestDto × ℤ) :=
  es.filterMap fun
    | .request dto reached _ => some (dto, reached)
    | _ => none

/-- Every row was written by an allowed call. -/
def WrittenByAllowed {α : Type*} (calls : List Call) (rows : List (ℕ × α)) : Prop :=
  ∀ i row, (i, row) ∈ rows → ∃ c, calls[i]? = some c ∧ c.phase.allowed

structure Sound (env : Env) (es : List Event) (s : State) : Prop where
  arrived : s.attempts.map (fun a => (a.dto, a.reached)) = requests es
  gate : Gate env.windowMs s.entries s.now s.attempts
  usage : WrittenByAllowed s.calls s.usage
  receipts : WrittenByAllowed s.calls s.receipts

theorem WrittenByAllowed.snoc {α : Type*} {calls : List Call} {rows : List (ℕ × α)}
    (h : WrittenByAllowed calls rows) (call : Call) : WrittenByAllowed (calls ++ [call]) rows := by
  intro i row hrow
  obtain ⟨c, hc, hallowed⟩ := h i row hrow
  exact ⟨c, List.getElem?_append_left (List.getElem?_eq_some_iff.mp hc).1 ▸ hc, hallowed⟩

/-- A call that moves on keeps its rows and adds those it writes now. -/
theorem WrittenByAllowed.set {α : Type*} {calls : List Call} {rows : List (ℕ × α)} {i : ℕ}
    {call : Call} {phase : Phase} {added : List α} (h : WrittenByAllowed calls rows)
    (hcall : calls[i]? = some call) (hstays : call.phase.allowed → phase.allowed)
    (hadded : added ≠ [] → phase.allowed) :
    WrittenByAllowed (calls.set i { call with phase := phase }) (rows ++ added.map (i, ·)) := by
  have hi := (List.getElem?_eq_some_iff.mp hcall).1
  intro j row hrow
  by_cases hj : i = j
  · subst hj
    refine ⟨{ call with phase := phase }, List.getElem?_set_self hi, ?_⟩
    rcases List.mem_append.mp hrow with hrow | hrow
    · obtain ⟨c, hc, hallowed⟩ := h i row hrow
      obtain rfl := Option.some.inj (hcall.symm.trans hc)
      exact hstays hallowed
    · obtain ⟨a, ha, -⟩ := List.mem_map.mp hrow
      exact hadded (List.ne_nil_of_mem ha)
  · rcases List.mem_append.mp hrow with hrow | hrow
    · rw [List.getElem?_set_ne hj]
      exact h j row hrow
    · obtain ⟨a, -, ha⟩ := List.mem_map.mp hrow
      exact absurd (congrArg Prod.fst ha) hj

/-- A call that moves on was let pass and stays so. -/
theorem attempts_set {calls : List Call} {i : ℕ} {call : Call} {phase : Phase}
    (hcall : calls[i]? = some call) (hbefore : call.phase ≠ .failed .replayed)
    (hafter : phase ≠ .failed .replayed) :
    (calls.set i { call with phase := phase }).map Call.attempt = calls.map Call.attempt := by
  obtain ⟨hi, hget⟩ := List.getElem?_eq_some_iff.mp hcall
  have hsame : Call.attempt { call with phase := phase } = call.attempt := by
    simp [Call.attempt, hbefore, hafter]
  rw [List.map_set, hsame, ← hget, ← List.getElem_map Call.attempt, List.set_getElem_self]
  simpa using hi

theorem sound (env : Env) (policies : List Policy) (since : ℤ) :
    ∀ es s, run (step env) (initial policies since) es = some s → Sound env es s := by
  refine run_induction (step env) ⟨rfl, ⟨.nil, nofun, nofun, .nil, nofun⟩, nofun, nofun⟩ ?_
  intro es s e t _ inv hstep
  have hsnoc : ∀ e, requests (es ++ [e]) = requests es ++ requests [e] :=
    fun e => List.filterMap_append
  -- an event that is no request leaves the arrivals as they are
  have hquiet : ∀ e, requests [e] = [] →
      s.attempts.map (fun a => (a.dto, a.reached)) = requests (es ++ [e]) := by
    intro e he
    rw [hsnoc, he, List.append_nil]
    exact inv.arrived
  cases e with
  | request dto reached written =>
      obtain ⟨⟨hnow, hwritten⟩, rfl⟩ := step_request.mp hstep
      have hattempts : ∀ fresh : Bool, Call.attempt
          ⟨dto, reached, if fresh then .deciding else .failed .replayed⟩
            = ⟨dto, reached, fresh⟩ := by
        intro fresh
        cases fresh <;> rfl
      refine ⟨?_, ?_, inv.usage.snoc _, inv.receipts.snoc _⟩
      · rw [hsnoc, ← inv.arrived, State.attempts, List.map_append, List.map_append]
        rfl
      · rw [State.attempts, List.map_append, List.map_singleton, hattempts]
        exact inv.gate.nonceStep dto hnow hwritten
  | evict now =>
      obtain ⟨hnow, rfl⟩ := step_evict.mp hstep
      exact ⟨hquiet _ rfl, inv.gate.evict hnow, inv.usage, inv.receipts⟩
  | setPolicies policies =>
      obtain rfl := Option.some.inj hstep
      exact ⟨hquiet _ rfl, inv.gate, inv.usage, inv.receipts⟩
  | call i e =>
      obtain ⟨call, effect, hcall, heffect, rfl⟩ := step_call hstep
      obtain ⟨hactive, hpassed, hnow, hstays, hwrites⟩ := callStep_effect heffect
      have hattempts := attempts_set hcall (hactive .replayed) hpassed
      refine ⟨?_, ?_, inv.usage.set hcall hstays fun h => hwrites (.inl h),
        inv.receipts.set hcall hstays fun h => hwrites (.inr h)⟩
      · rw [State.attempts, hattempts]
        exact hquiet _ rfl
      · rw [State.attempts, hattempts]
        exact inv.gate.wait hnow

/-! ### Calls and requests -/

/-- The call wrote a usage record or a receipt. -/
def Wrote (s : State) (i : ℕ) : Prop := (∃ u, (i, u) ∈ s.usage) ∨ ∃ r, (i, r) ∈ s.receipts

/-- A call that wrote was allowed. -/
theorem Sound.allowed_of_wrote {env : Env} {es : List Event} {s : State} (h : Sound env es s)
    {i : ℕ} {c : Call} (hc : s.calls[i]? = some c) (hw : Wrote s i) : c.phase.allowed := by
  rcases hw with ⟨u, hu⟩ | ⟨r, hr⟩
  · obtain ⟨c', hc', hallowed⟩ := h.usage i u hu
    obtain rfl := Option.some.inj (hc.symm.trans hc')
    exact hallowed
  · obtain ⟨c', hc', hallowed⟩ := h.receipts i r hr
    obtain rfl := Option.some.inj (hc.symm.trans hc')
    exact hallowed

theorem Sound.request_of_call {env : Env} {es : List Event} {s : State} (h : Sound env es s)
    {i : ℕ} {c : Call} (hc : s.calls[i]? = some c) :
    (requests es)[i]? = some (c.dto, c.reached) := by
  rw [← h.arrived, State.attempts, List.map_map, List.getElem?_map, hc]
  rfl

theorem Sound.call_of_request {env : Env} {es : List Event} {s : State} (h : Sound env es s)
    {i : ℕ} {dto : A2aRequestDto} {t : ℤ} (hr : (requests es)[i]? = some (dto, t)) :
    ∃ c, s.calls[i]? = some c ∧ c.dto = dto ∧ c.reached = t := by
  rw [← h.arrived, State.attempts, List.map_map, List.getElem?_map,
    Option.map_eq_some_iff] at hr
  obtain ⟨c, hc, hpair⟩ := hr
  exact ⟨c, hc, congrArg Prod.fst hpair, congrArg Prod.snd hpair⟩

end A2aAgentLayer.Protocol.HandleRequest
