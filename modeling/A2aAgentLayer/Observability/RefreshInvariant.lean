import A2aAgentLayer.Lib.Run
import A2aAgentLayer.Observability.GaugeRefresh

/-!
# One load at a time

The invariant of the service: at most the newest load is in flight, and the gauges, the error
counter and the time of the latest refresh are those of the loads that have come far enough.  So no
load starts next to another one or within the TTL, and the gauges change all at once.
-/

namespace A2aAgentLayer.Observability.GaugeRefresh

open A2aAgentLayer.Lib.Run (getElem?_concat_eq_some)

/-! ### What a load has done -/

@[simp] theorem Load.advance_now (l : Load) : l.advance.now = l.now := rfl

@[simp] theorem Load.advance_rows (l : Load) : l.advance.rows = l.rows := rfl

@[simp] theorem Load.advance_hasFailed (l : Load) : l.advance.hasFailed = l.hasFailed := rfl

@[simp] theorem Load.advance_stage (l : Load) : l.advance.stage = l.stage.next := rfl

@[simp] theorem Load.answer_now (l : Load) (answer : Answer) : (l.answer answer).now = l.now := by
  unfold Load.answer
  split
  · rfl
  · cases answer <;> rfl

@[simp] theorem Load.answer_stage (l : Load) (answer : Answer) :
    (l.answer answer).stage = l.stage := by
  unfold Load.answer
  split
  · rfl
  · cases answer <;> rfl

theorem Load.answer_of_joined {l : Load} (h : l.joined = true) (answer : Answer) :
    l.answer answer = l := if_pos h

/-- All queries answered, or one of them failed, but not both. -/
theorem Load.hasFailed_of_joined {l : Load} (h : l.joined = true) :
    l.hasFailed = l.rows.isNone := by
  obtain ⟨now, agents, services, usage, stage⟩ := l
  cases agents <;> cases services <;> cases usage <;> first | rfl | cases h

/-- All its queries have answered. -/
def Load.succeeded (l : Load) : Bool := l.rows.isSome

/-- It succeeded, and the gauges have been set. -/
def Load.written (l : Load) : Bool := l.rows.isSome && decide (l.stage ≠ .pending)

/-- It succeeded, and its time has been noted. -/
def Load.noted (l : Load) : Bool :=
  l.rows.isSome && decide (l.stage ≠ .pending ∧ l.stage ≠ .settled)

/-- It failed, and the failure has been counted. -/
def Load.reported (l : Load) : Bool :=
  l.hasFailed && decide (l.stage = .caught ∨ l.stage = .cleared)

def Load.outstanding (l : Load) : Bool := decide (l.stage ≠ .cleared)

/-- The latest load that passes a test. -/
def latest (p : Load → Bool) (loads : List Load) : Option Load := (loads.filter p).getLast?

theorem latest_concat (p : Load → Bool) (loads : List Load) (l : Load) :
    latest p (loads ++ [l]) = if p l then some l else latest p loads := by
  rw [latest, List.filter_append]
  by_cases hl : p l = true
  · rw [List.filter_cons_of_pos hl, List.filter_nil, List.getLast?_concat, if_pos hl]
  · rw [List.filter_cons_of_neg hl, List.filter_nil, List.append_nil, if_neg hl, latest]

theorem latest_congr {p q : Load → Bool} {loads : List Load} (h : ∀ l ∈ loads, p l = q l) :
    latest p loads = latest q loads := by
  rw [latest, latest, List.filter_congr h]

theorem mem_of_latest {p : Load → Bool} {loads : List Load} {l : Load}
    (h : latest p loads = some l) : l ∈ loads ∧ p l = true :=
  List.mem_filter.mp (List.mem_of_getLast? h)

/-! ### The invariant -/

/-- The field holds the promise of the last load as long as its last handler has not run. -/
def OneInFlight (s : State) : Prop :=
  (s.inFlight = none ∧ ∀ l ∈ s.loads, l.stage = .cleared)
    ∨ ∃ xs l, s.loads = xs ++ [l] ∧ s.inFlight = some xs.length
      ∧ (∀ x ∈ xs, x.stage = .cleared) ∧ l.stage ≠ .cleared

/-- What the fields hold, read off the loads. -/
structure Accounted (s : State) : Prop where
  lastRefreshAt : s.lastRefreshAt = ((latest Load.noted s.loads).map (·.now)).getD 0
  gauges : s.gauges = ((latest Load.written s.loads).bind Load.rows).elim Gauges.initial gaugesOf
  refreshErrors : s.refreshErrors = s.loads.countP Load.reported

structure Inv (s : State) : Prop where
  oneInFlight : OneInFlight s
  accounted : Accounted s
  joined : ∀ l ∈ s.loads, l.stage ≠ .pending → l.joined = true
  positive : ∀ l ∈ s.loads, 0 < l.now
  calls : ∀ i, .awaiting i ∈ s.calls → i < s.loads.length

theorem inv_initial : Inv initial where
  oneInFlight := .inl ⟨rfl, fun _ hl => absurd hl List.not_mem_nil⟩
  accounted := ⟨rfl, rfl, rfl⟩
  joined _ hl := absurd hl List.not_mem_nil
  positive _ hl := absurd hl List.not_mem_nil
  calls _ hi := absurd hi List.not_mem_nil

/-- A load whose last handler has not run is the last one. -/
theorem OneInFlight.last {s : State} (h : OneInFlight s) {i : ℕ} {l : Load}
    (hl : s.loads[i]? = some l) (hstage : l.stage ≠ .cleared) :
    ∃ xs, s.loads = xs ++ [l] ∧ i = xs.length ∧ s.inFlight = some xs.length
      ∧ ∀ x ∈ xs, x.stage = .cleared := by
  rcases h with ⟨-, hcleared⟩ | ⟨xs, last, hloads, hinFlight, hcleared, -⟩
  · exact absurd (hcleared l (List.mem_of_getElem? hl)) hstage
  · rw [hloads] at hl
    rcases getElem?_concat_eq_some.mp hl with hl | ⟨rfl, rfl⟩
    · exact absurd (hcleared l (List.mem_of_getElem? hl)) hstage
    · exact ⟨xs, hloads, rfl, hinFlight, hcleared⟩

/-- A step that changes nothing but the last load and the fields that are read off the loads. -/
theorem Inv.replaceLast {s t : State} (h : Inv s) {xs : List Load} {l l' : Load}
    (hs : s.loads = xs ++ [l]) (ht : t.loads = xs ++ [l']) (hcalls : t.calls = s.calls)
    (hone : OneInFlight t) (haccounted : Accounted t) (hnow : l'.now = l.now)
    (hjoined : l'.stage ≠ .pending → l'.joined = true) : Inv t where
  oneInFlight := hone
  accounted := haccounted
  joined := by
    intro x hx hstage
    rw [ht, List.mem_append, List.mem_singleton] at hx
    rcases hx with hx | rfl
    · exact h.joined x (by rw [hs]; exact List.mem_append_left _ hx) hstage
    · exact hjoined hstage
  positive := by
    intro x hx
    rw [ht, List.mem_append, List.mem_singleton] at hx
    rcases hx with hx | rfl
    · exact h.positive x (by rw [hs]; exact List.mem_append_left _ hx)
    · rw [hnow]
      exact h.positive l (by rw [hs]; exact List.mem_append_right _ (List.mem_singleton_self l))
  calls := by
    intro i hi
    rw [hcalls] at hi
    have hlt := h.calls i hi
    rw [hs, List.length_append] at hlt
    rwa [ht, List.length_append]

theorem inv_of_calls {s : State} (h : Inv s) {calls : List Call}
    (hcalls : ∀ i, .awaiting i ∈ calls → i < s.loads.length) : Inv { s with calls := calls } :=
  ⟨h.oneInFlight, ⟨h.accounted.lastRefreshAt, h.accounted.gauges, h.accounted.refreshErrors⟩,
    h.joined, h.positive, hcalls⟩

theorem inv_addCall {s : State} (h : Inv s) {call : Call}
    (hcall : ∀ i, call = .awaiting i → i < s.loads.length) :
    Inv { s with calls := s.calls ++ [call] } := by
  refine inv_of_calls h fun i hi => ?_
  rcases List.mem_append.mp hi with hi | hi
  · exact h.calls i hi
  · exact hcall i (List.mem_singleton.mp hi).symm

theorem inv_start {s : State} (h : Inv s) (hnone : s.inFlight = none) {now : ℤ} (hnow : 0 < now) :
    Inv { s with
      loads := s.loads ++ [Load.start now]
      inFlight := some s.loads.length
      calls := s.calls ++ [.awaiting s.loads.length] } where
  oneInFlight := by
    rcases h.oneInFlight with ⟨-, hcleared⟩ | ⟨xs, l, -, hsome, -⟩
    · exact .inr ⟨s.loads, Load.start now, rfl, rfl, hcleared, nofun⟩
    · rw [hnone] at hsome
      cases hsome
  accounted := by
    constructor
    · rw [latest_concat]
      exact h.accounted.lastRefreshAt
    · rw [latest_concat]
      exact h.accounted.gauges
    · rw [List.countP_append]
      exact h.accounted.refreshErrors
  joined := by
    intro l hl hstage
    rcases List.mem_append.mp hl with hl | hl
    · exact h.joined l hl hstage
    · rw [List.mem_singleton.mp hl] at hstage
      exact absurd rfl hstage
  positive := by
    intro l hl
    rcases List.mem_append.mp hl with hl | hl
    · exact h.positive l hl
    · rw [List.mem_singleton.mp hl]
      exact hnow
  calls := by
    intro i hi
    show i < (s.loads ++ [Load.start now]).length
    rw [List.length_append]
    rcases List.mem_append.mp hi with hi | hi
    · exact Nat.lt_succ_of_lt (h.calls i hi)
    · obtain rfl := Call.awaiting.inj (List.mem_singleton.mp hi)
      exact Nat.lt_succ_self _

theorem inv_answer {s : State} (h : Inv s) {i : ℕ} {l : Load} (hl : s.loads[i]? = some l)
    (answer : Answer) : Inv { s with loads := s.loads.set i (l.answer answer) } := by
  cases hjoined : l.joined with
  | true =>
      obtain ⟨hi, rfl⟩ := List.getElem?_eq_some_iff.mp hl
      rw [Load.answer_of_joined hjoined, List.set_getElem_self]
      exact h
  | false =>
      have hpending : l.stage = .pending := by
        by_contra hstage
        rw [h.joined l (List.mem_of_getElem? hl) hstage] at hjoined
        cases hjoined
      obtain ⟨xs, hloads, rfl, hinFlight, hcleared⟩ := h.oneInFlight.last hl (by simp [hpending])
      have hset : s.loads.set xs.length (l.answer answer) = xs ++ [l.answer answer] := by
        rw [hloads, List.set_append_right _ _ le_rfl, Nat.sub_self, List.set_cons_zero]
      have hstage : (l.answer answer).stage = .pending := by rw [Load.answer_stage, hpending]
      have haccounted := h.accounted
      refine h.replaceLast hloads hset rfl ?_ ?_ (Load.answer_now l answer) fun hne =>
        absurd hstage hne
      · exact .inr ⟨xs, _, hset, hinFlight, hcleared, by simp [hpending]⟩
      · constructor
        · rw [haccounted.lastRefreshAt, hset, hloads, latest_concat, latest_concat]
          simp [Load.noted, hpending]
        · rw [haccounted.gauges, hset, hloads, latest_concat, latest_concat]
          simp [Load.written, hpending]
        · rw [haccounted.refreshErrors, hset, hloads, List.countP_append, List.countP_append]
          simp [Load.reported, hpending]

@[simp] theorem handle_calls (s : State) (l : Load) : (handle s l).calls = s.calls := by
  rw [handle]
  cases l.stage <;> cases l.rows <;> rfl

theorem handle_inFlight (s : State) (l : Load) :
    (handle s l).inFlight = if l.stage = .caught then none else s.inFlight := by
  rw [handle]
  cases l.stage <;> cases l.rows <;> rfl

theorem handle_lastRefreshAt (s : State) (l : Load) :
    (handle s l).lastRefreshAt
      = if l.stage = .settled ∧ l.rows.isSome = true then l.now else s.lastRefreshAt := by
  rw [handle]
  cases l.stage <;> cases l.rows <;> simp

/-- The gauges change in one turn, and all at once. -/
theorem handle_gauges (s : State) (l : Load) :
    (handle s l).gauges
      = if l.stage = .pending then l.rows.elim s.gauges gaugesOf else s.gauges := by
  rw [handle]
  cases l.stage <;> cases l.rows <;> simp [set_eq_gaugesOf]

theorem handle_refreshErrors (s : State) (l : Load) :
    (handle s l).refreshErrors
      = if l.stage = .thenned ∧ l.rows = none then s.refreshErrors + 1 else s.refreshErrors := by
  rw [handle]
  cases l.stage <;> cases l.rows <;> simp

/-- A handler changes the fields as the stage of its load does. -/
theorem Accounted.handle {s : State} (h : Accounted s) {xs : List Load} {l : Load}
    (hloads : s.loads = xs ++ [l]) (hfailed : l.hasFailed = l.rows.isNone) :
    Accounted { handle s l with loads := xs ++ [l.advance] } := by
  obtain ⟨hlast, hgauges, herrors⟩ := h
  rw [hloads, latest_concat] at hlast hgauges
  rw [hloads, List.countP_append] at herrors
  refine ⟨?_, ?_, ?_⟩
  · rw [latest_concat, handle_lastRefreshAt, hlast]
    cases hs : l.stage <;> cases hrows : l.rows <;> simp [Load.noted, hs, hrows, Stage.next]
  · rw [latest_concat, handle_gauges, hgauges]
    cases hs : l.stage <;> cases hrows : l.rows <;> simp [Load.written, hs, hrows, Stage.next]
  · rw [List.countP_append, handle_refreshErrors, herrors]
    cases hs : l.stage <;> cases hrows : l.rows <;>
      simp [Load.reported, hs, hrows, hfailed, Stage.next]

theorem Load.stage_ne_cleared_of_ready {l : Load} (h : l.ready = true) : l.stage ≠ .cleared := by
  intro hstage
  rw [Load.ready, hstage] at h
  cases h

/-- A load whose next handler can run is joined. -/
theorem Inv.joined_of_ready {s : State} (h : Inv s) {l : Load} (hl : l ∈ s.loads)
    (hready : l.ready = true) : l.joined = true := by
  by_cases hpending : l.stage = .pending
  · rwa [Load.ready, hpending] at hready
  · exact h.joined l hl hpending

theorem inv_turn {s : State} (h : Inv s) {i : ℕ} {l : Load} (hl : s.loads[i]? = some l)
    (hready : l.ready = true) : Inv { handle s l with loads := s.loads.set i l.advance } := by
  have hjoined := h.joined_of_ready (List.mem_of_getElem? hl) hready
  obtain ⟨xs, hloads, rfl, hinFlight, hcleared⟩ :=
    h.oneInFlight.last hl (Load.stage_ne_cleared_of_ready hready)
  have hset : s.loads.set xs.length l.advance = xs ++ [l.advance] := by
    rw [hloads, List.set_append_right _ _ le_rfl, Nat.sub_self, List.set_cons_zero]
  rw [hset]
  refine h.replaceLast hloads rfl (handle_calls s l) ?_
    (h.accounted.handle hloads (Load.hasFailed_of_joined hjoined)) rfl fun _ => hjoined
  by_cases hcaught : l.stage = .caught
  · refine .inl ⟨by rw [handle_inFlight, if_pos hcaught], fun x hx => ?_⟩
    rcases List.mem_append.mp hx with hx | hx
    · exact hcleared x hx
    · rw [List.mem_singleton.mp hx, Load.advance_stage, hcaught]
      rfl
  · refine .inr ⟨xs, l.advance, rfl, ?_, hcleared, ?_⟩
    · rw [handle_inFlight, if_neg hcaught, hinFlight]
    · have hnot := Load.stage_ne_cleared_of_ready hready
      rw [Load.advance_stage]
      cases hs : l.stage <;> simp_all [Stage.next]

theorem Inv.does {ttlMs : ℤ} {s t : State} {e : Event} (h : Inv s)
    (hnow : ∀ now, e = .refresh now → 0 < now) (hdoes : Does ttlMs s e t) : Inv t := by
  cases hdoes with
  | answered hcall =>
      refine inv_addCall h fun i hi => ?_
      rcases h.oneInFlight with ⟨hnone, -⟩ | ⟨xs, l, hloads, hsome, -⟩
      · rw [hcall i hi] at hnone
        cases hnone
      · obtain rfl := Option.some.inj (hsome.symm.trans (hcall i hi))
        rw [hloads, List.length_append]
        exact Nat.lt_succ_self _
  | started hcached hnone => exact inv_start h hnone (hnow _ rfl)
  | told hl answer => exact inv_answer h hl answer
  | turned hl hready => exact inv_turn h hl hready
  | resumed hwaits hcleared =>
      refine inv_of_calls h fun i hi => ?_
      rcases List.mem_or_eq_of_mem_set hi with hi | hi
      · exact h.calls i hi
      · cases hi
  | idle => exact h

/-! ### Refreshing without stampede -/

variable {ttlMs : ℤ}

theorem countP_cleared {loads : List Load} (h : ∀ l ∈ loads, l.stage = .cleared) :
    loads.countP Load.outstanding = 0 :=
  List.countP_eq_zero.mpr fun l hl => by simp [Load.outstanding, h l hl]

theorem OneInFlight.countP_le {s : State} (h : OneInFlight s) :
    s.loads.countP Load.outstanding ≤ 1 := by
  rcases h with ⟨-, hcleared⟩ | ⟨xs, l, hloads, -, hcleared, -⟩
  · rw [countP_cleared hcleared]
    exact Nat.zero_le 1
  · rw [hloads, List.countP_append, countP_cleared hcleared, Nat.zero_add]
    exact List.countP_le_length

/-- No load starts within the TTL of the latest that succeeded. -/
theorem Inv.spaced {s : State} (h : Inv s) (hnone : s.inFlight = none) {now : ℤ}
    (hcached : ¬ (s.lastRefreshAt ≠ 0 ∧ now - s.lastRefreshAt < ttlMs)) {t : Load}
    (ht : latest Load.succeeded s.loads = some t) : ttlMs ≤ now - t.now := by
  have hcleared : ∀ l ∈ s.loads, l.stage = .cleared := by
    rcases h.oneInFlight with ⟨-, hcleared⟩ | ⟨xs, l, -, hsome, -⟩
    · exact hcleared
    · rw [hnone] at hsome
      cases hsome
  have hnoted : latest Load.noted s.loads = some t := by
    rw [← ht]
    refine latest_congr fun l hl => ?_
    simp [Load.noted, Load.succeeded, hcleared l hl]
  have hlast : s.lastRefreshAt = t.now := by
    rw [h.accounted.lastRefreshAt, hnoted]
    rfl
  have hpos := h.positive t (mem_of_latest ht).1
  rw [hlast] at hcached
  by_contra hlt
  exact hcached ⟨hpos.ne', not_le.mp hlt⟩

/-- An event that starts a load. -/
theorem Does.starts {s t : State} {e : Event} (hdoes : Does ttlMs s e t) (h : Inv s)
    (hmore : s.loads.length < t.loads.length) :
    ∃ now, e = .refresh now ∧ t.loads = s.loads ++ [Load.start now]
      ∧ ∀ l, latest Load.succeeded s.loads = some l → ttlMs ≤ now - l.now := by
  cases hdoes with
  | @started now hcached hnone => exact ⟨now, rfl, rfl, fun l hl => h.spaced hnone hcached hl⟩
  | answered hcall => exact absurd hmore (lt_irrefl _)
  | told hl answer => exact absurd (List.length_set ▸ hmore) (lt_irrefl _)
  | turned hl hready => exact absurd (List.length_set ▸ hmore) (lt_irrefl _)
  | resumed hwaits hcleared => exact absurd hmore (lt_irrefl _)
  | idle => exact absurd hmore (lt_irrefl _)

/-- Gauges change when a load has all its rows, and all of them do. -/
theorem Does.gauges {s t : State} {e : Event} (hdoes : Does ttlMs s e t) :
    t.gauges = s.gauges
      ∨ ∃ i l rows, e = .turn i ∧ s.loads[i]? = some l ∧ l.rows = some rows
        ∧ t.gauges = gaugesOf rows := by
  cases hdoes with
  | @turned i l hl hready =>
      show (handle s l).gauges = _ ∨ _
      cases hrows : l.rows with
      | none =>
          refine .inl ?_
          rw [handle_gauges, hrows, Option.elim_none, ite_self]
      | some rows =>
          by_cases hpending : l.stage = .pending
          · refine .inr ⟨i, l, rows, rfl, hl, hrows, ?_⟩
            show (handle s l).gauges = _
            rw [handle_gauges, if_pos hpending, hrows, Option.elim_some]
          · exact .inl (by rw [handle_gauges, if_neg hpending])
  | _ => exact .inl rfl

/-! ### Calls -/

theorem Does.calls {s t : State} {now : ℤ} (hdoes : Does ttlMs s (.refresh now) t) :
    ∃ call, t.calls = s.calls ++ [call] := by
  cases hdoes with
  | answered hcall => exact ⟨_, rfl⟩
  | started hcached hnone => exact ⟨_, rfl⟩
  | idle he => exact absurd rfl (he now)

/-- Every call stays, and resolves at most. -/
def CallsStay (s t : State) : Prop :=
  ∀ (c : ℕ) (call : Call), s.calls[c]? = some call →
    t.calls[c]? = some call ∨ t.calls[c]? = some .resolved

theorem callsStay_trans (a b c : State) (hab : CallsStay a b) (hbc : CallsStay b c) :
    CallsStay a c := by
  intro k call hcall
  rcases hab k call hcall with h | h
  · exact hbc k call h
  · exact .inr ((hbc k .resolved h).elim id id)

theorem callsStay_of_eq {s t : State} (h : t.calls = s.calls) : CallsStay s t :=
  fun c call hcall => .inl (by rw [h, hcall])

theorem Does.callsStay {s t : State} {e : Event} (hdoes : Does ttlMs s e t) :
    CallsStay s t := by
  cases hdoes with
  | answered hcall => exact fun c call hc => .inl (getElem?_concat_eq_some.mpr (.inl hc))
  | started hcached hnone => exact fun c call hc => .inl (getElem?_concat_eq_some.mpr (.inl hc))
  | told hl answer => exact callsStay_of_eq rfl
  | @turned i l hl hready => exact callsStay_of_eq (handle_calls s l)
  | @resumed k i hwaits hcleared =>
      intro c call hc
      by_cases hk : k = c
      · subst hk
        exact .inr (List.getElem?_set_self (List.getElem?_eq_some_iff.mp hc).1)
      · refine .inl ?_
        show (s.calls.set k .resolved)[c]? = _
        rw [List.getElem?_set_ne hk, hc]
  | idle => exact callsStay_of_eq rfl

end A2aAgentLayer.Observability.GaugeRefresh
