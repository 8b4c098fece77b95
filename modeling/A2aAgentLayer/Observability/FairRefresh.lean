import A2aAgentLayer.Lib.Timeline
import A2aAgentLayer.Observability.RefreshInvariant

/-!
# Every load ends

Along a fair timeline every query answers, every handler runs and every call resumes.  A load that
has not ended is then brought nearer to its end again and again, and so are the calls that wait for
it.
-/

namespace A2aAgentLayer.Observability.GaugeRefresh

open A2aAgentLayer.Lib.Timeline
open A2aAgentLayer.Lib.Run (getElem?_concat_eq_some)
open A2aAgentLayer.Identity.AgentRows (AgentStatus)

/-! ### Progress -/

inductive Source where
  | agents
  | services
  | usage
  deriving DecidableEq

def Answer.source : Answer → Source
  | .agents _ => .agents
  | .services _ => .services
  | .usage _ => .usage

def Load.isRunning (l : Load) : Source → Bool
  | .agents => l.agents.isRunning
  | .services => l.services.isRunning
  | .usage => l.usage.isRunning

/-- How many handlers have not run. -/
def Stage.left : Stage → ℕ
  | .pending => 4
  | .settled => 3
  | .thenned => 2
  | .caught => 1
  | .cleared => 0

/-- How many handlers and queries a load still has to wait for. -/
def Load.left (l : Load) : ℕ :=
  l.stage.left + l.agents.isRunning.toNat + l.services.isRunning.toNat + l.usage.isRunning.toNat

/-- A load is as it was, or has come nearer to its end. -/
def Load.Advanced (l l' : Load) : Prop :=
  l' = l ∨ (l'.left < l.left ∧ l'.stage.left ≤ l.stage.left)

theorem Load.advanced_trans {a b c : Load} (hab : a.Advanced b) (hbc : b.Advanced c) :
    a.Advanced c := by
  rcases hab with rfl | hab
  · exact hbc
  · rcases hbc with rfl | hbc
    · exact .inr hab
    · exact .inr ⟨hbc.1.trans hab.1, hbc.2.trans hab.2⟩

theorem Query.settle_of_not_running {α : Type} {query : Query α} (h : query.isRunning = false)
    (answer : Option α) : query.settle answer = query := by
  cases query with
  | running => cases h
  | answered value => rfl
  | failed => rfl

theorem Query.not_running_settle {α : Type} (query : Query α) (answer : Option α) :
    (query.settle answer).isRunning = false := by
  cases query <;> cases answer <;> rfl

/-- A query that a load waits for and that answers brings it nearer to its end. -/
theorem Load.left_answer_lt {l : Load} {answer : Answer} (hjoined : l.joined = false)
    (hrunning : l.isRunning answer.source = true) : (l.answer answer).left < l.left := by
  cases answer with
  | agents rows =>
      have hrunning : l.agents.isRunning = true := hrunning
      simp [Load.answer, hjoined, Load.left, Query.not_running_settle, hrunning]
  | services rows =>
      have hrunning : l.services.isRunning = true := hrunning
      simp [Load.answer, hjoined, Load.left, Query.not_running_settle, hrunning]
  | usage row =>
      have hrunning : l.usage.isRunning = true := hrunning
      simp [Load.answer, hjoined, Load.left, Query.not_running_settle, hrunning]

theorem Load.answer_of_not_running {l : Load} {answer : Answer}
    (hrunning : l.isRunning answer.source = false) : l.answer answer = l := by
  cases answer with
  | agents rows => rw [Load.answer, Query.settle_of_not_running hrunning rows, ite_self]
  | services rows => rw [Load.answer, Query.settle_of_not_running hrunning rows, ite_self]
  | usage row => rw [Load.answer, Query.settle_of_not_running hrunning row, ite_self]

theorem Load.advanced_answer (l : Load) (answer : Answer) : l.Advanced (l.answer answer) := by
  cases hjoined : l.joined with
  | true => exact .inl (Load.answer_of_joined hjoined answer)
  | false =>
      cases hrunning : l.isRunning answer.source with
      | true =>
          exact .inr ⟨Load.left_answer_lt hjoined hrunning, by rw [Load.answer_stage]⟩
      | false => exact .inl (Load.answer_of_not_running hrunning)

theorem Load.stage_left_advance_lt {l : Load} (hready : l.ready = true) :
    l.advance.stage.left < l.stage.left := by
  have hnot := Load.stage_ne_cleared_of_ready hready
  rw [Load.advance_stage]
  cases hs : l.stage with
  | cleared => exact absurd hs hnot
  | _ => decide

theorem Load.left_advance_lt {l : Load} (hready : l.ready = true) : l.advance.left < l.left := by
  have hstage := Load.stage_left_advance_lt hready
  simp only [Load.left, Load.advance] at hstage ⊢
  omega

theorem Load.advanced_advance {l : Load} (hready : l.ready = true) : l.Advanced l.advance :=
  .inr ⟨Load.left_advance_lt hready, (Load.stage_left_advance_lt hready).le⟩

theorem Stage.left_eq_zero {stage : Stage} : stage.left = 0 ↔ stage = .cleared := by
  cases stage <;> simp [Stage.left]

/-- A load whose next handler cannot run waits for a query. -/
theorem Load.exists_running {l : Load} (hjoined : l.joined = false) :
    ∃ source, l.isRunning source = true := by
  obtain ⟨now, agents, services, usage, stage⟩ := l
  cases agents with
  | running => exact ⟨.agents, rfl⟩
  | failed => cases hjoined
  | answered agentRows =>
      cases services with
      | running => exact ⟨.services, rfl⟩
      | failed => cases hjoined
      | answered serviceRows =>
          cases usage with
          | running => exact ⟨.usage, rfl⟩
          | failed => cases hjoined
          | answered row => cases hjoined

/-- The service before the `n`-th event. -/
def service (ttlMs : ℤ) (events : ℕ → Event) (n : ℕ) : State :=
  stateAt (step ttlMs) initial events n

/-- Every query of a load that waits for it answers, every handler that can run does, and every call
whose promise has settled resumes. -/
structure Fair (ttlMs : ℤ) (events : ℕ → Event) : Prop where
  answered : ∀ n i l source, (service ttlMs events n).loads[i]? = some l → l.joined = false →
    l.isRunning source = true →
      ∃ m answer, n ≤ m ∧ answer.source = source ∧ events m = .answer i answer
  turned : ∀ n i l, (service ttlMs events n).loads[i]? = some l → l.ready = true →
    ∃ m, n ≤ m ∧ events m = .turn i
  resumed : ∀ n call i l, (service ttlMs events n).calls[call]? = some (.awaiting i) →
    (service ttlMs events n).loads[i]? = some l → l.stage = .cleared →
      ∃ m, n ≤ m ∧ events m = .resume call

/-- Every load stays, and only comes nearer to its end. -/
def LoadsAdvance (s t : State) : Prop :=
  ∀ (i : ℕ) (l : Load), s.loads[i]? = some l → ∃ l', t.loads[i]? = some l' ∧ l.Advanced l'

theorem loadsAdvance_of_eq {s t : State} (h : t.loads = s.loads) : LoadsAdvance s t :=
  fun i l hl => ⟨l, by rw [h, hl], .inl rfl⟩

theorem loadsAdvance_trans (a b c : State) (hab : LoadsAdvance a b) (hbc : LoadsAdvance b c) :
    LoadsAdvance a c := by
  intro i l hl
  obtain ⟨l', hl', h⟩ := hab i l hl
  obtain ⟨l'', hl'', h'⟩ := hbc i l' hl'
  exact ⟨l'', hl'', Load.advanced_trans h h'⟩

theorem loadsAdvance_set {s t : State} {i : ℕ} {l l' : Load} (hl : s.loads[i]? = some l)
    (ht : t.loads = s.loads.set i l') (h : l.Advanced l') : LoadsAdvance s t := by
  intro j x hx
  rw [ht]
  by_cases hij : i = j
  · subst hij
    obtain rfl := Option.some.inj (hl.symm.trans hx)
    exact ⟨l', List.getElem?_set_self (List.getElem?_eq_some_iff.mp hl).1, h⟩
  · exact ⟨x, by rw [List.getElem?_set_ne hij, hx], .inl rfl⟩

theorem Does.loadsAdvance {ttlMs : ℤ} {s t : State} {e : Event} (hdoes : Does ttlMs s e t) :
    LoadsAdvance s t := by
  cases hdoes with
  | answered hcall => exact loadsAdvance_of_eq rfl
  | started hcached hnone =>
      exact fun i l hl => ⟨l, getElem?_concat_eq_some.mpr (.inl hl), .inl rfl⟩
  | told hl answer => exact loadsAdvance_set hl rfl (Load.advanced_answer _ answer)
  | turned hl hready => exact loadsAdvance_set hl rfl (Load.advanced_advance hready)
  | resumed hwaits hcleared => exact loadsAdvance_of_eq rfl
  | idle => exact loadsAdvance_of_eq rfl

section Timelines

variable {ttlMs : ℤ} {events : ℕ → Event}

theorem service_succ (n : ℕ) :
    service ttlMs events (n + 1) = step ttlMs (service ttlMs events n) (events n) := rfl

theorem inv_service (hnow : ∀ n now, events n = .refresh now → 0 < now) (n : ℕ) :
    Inv (service ttlMs events n) :=
  always inv_initial (fun _ n h => h.does (hnow n) (does_step _ _ _)) n

theorem loadsAdvance_later {n m : ℕ} (h : n ≤ m) :
    LoadsAdvance (service ttlMs events n) (service ttlMs events m) :=
  later (fun _ => loadsAdvance_of_eq rfl) loadsAdvance_trans
    (fun s e => (does_step ttlMs s e).loadsAdvance) h

theorem callsStay_later {n m : ℕ} (h : n ≤ m) :
    CallsStay (service ttlMs events n) (service ttlMs events m) :=
  later (fun _ => callsStay_of_eq rfl) callsStay_trans
    (fun s e => (does_step ttlMs s e).callsStay) h

/-- A load that has not ended is brought nearer to its end by some event to come. -/
theorem Fair.exists_helpful (hfair : Fair ttlMs events) {n i : ℕ} {l : Load}
    (hl : (service ttlMs events n).loads[i]? = some l) (hstage : l.stage ≠ .cleared) :
    ∃ m, n ≤ m ∧ ∀ s : State, s.loads[i]? = some l →
      ∃ l', (step ttlMs s (events m)).loads[i]? = some l' ∧ l'.left < l.left := by
  have hset : ∀ (s : State) (l' : Load), s.loads[i]? = some l → (s.loads.set i l')[i]? = some l' :=
    fun s l' hs => List.getElem?_set_self (List.getElem?_eq_some_iff.mp hs).1
  cases hready : l.ready with
  | true =>
      obtain ⟨m, hnm, hm⟩ := hfair.turned n i l hl hready
      refine ⟨m, hnm, fun s hs => ⟨l.advance, ?_, Load.left_advance_lt hready⟩⟩
      simp only [hm, step, hs, hready, if_true]
      exact hset s l.advance hs
  | false =>
      have hjoined : l.joined = false := by
        rw [Load.ready] at hready
        cases hs : l.stage with
        | pending => rwa [hs] at hready
        | cleared => exact absurd hs hstage
        | _ => simp [hs] at hready
      obtain ⟨source, hrunning⟩ := Load.exists_running hjoined
      obtain ⟨m, answer, hnm, rfl, hm⟩ := hfair.answered n i l source hl hjoined hrunning
      refine ⟨m, hnm, fun s hs => ⟨l.answer answer, ?_, Load.left_answer_lt hjoined hrunning⟩⟩
      simp only [hm, step, hs]
      exact hset s (l.answer answer) hs

/-- The handlers of a load have all run. -/
def Ended (s : State) (i : ℕ) : Prop := ∀ l, s.loads[i]? = some l → l.stage = .cleared

def State.left (s : State) (i : ℕ) : ℕ := (s.loads[i]?.map Load.left).getD 0

theorem State.left_eq {s : State} {i : ℕ} {l : Load} (hl : s.loads[i]? = some l) :
    s.left i = l.left := by
  rw [State.left, hl]
  rfl

/-- **Every load ends.** -/
theorem Fair.eventually_ended (hfair : Fair ttlMs events) (i n : ℕ) :
    ∃ m, n ≤ m ∧ Ended (service ttlMs events m) i := by
  refine eventually_of_rank (fun m => (service ttlMs events m).left i) ?_ n
  intro n hnot
  obtain ⟨l, hl, hstage⟩ : ∃ l, (service ttlMs events n).loads[i]? = some l
      ∧ l.stage ≠ .cleared := by
    simpa only [Ended, not_forall, exists_prop] using hnot
  obtain ⟨m, hnm, hm⟩ := hfair.exists_helpful hl hstage
  obtain ⟨l', hl', rfl | ⟨hlt, -⟩⟩ := loadsAdvance_later hnm i l hl
  · obtain ⟨l'', hl'', hlt⟩ := hm _ hl'
    rw [← service_succ] at hl''
    refine ⟨m + 1, Nat.le_succ_of_le hnm, .inr ?_⟩
    show (service ttlMs events (m + 1)).left i < (service ttlMs events n).left i
    rwa [State.left_eq hl, State.left_eq hl'']
  · refine ⟨m, hnm, .inr ?_⟩
    show (service ttlMs events m).left i < (service ttlMs events n).left i
    rwa [State.left_eq hl, State.left_eq hl']

/-- A load that has ended does not change any more. -/
theorem cleared_later {n m i : ℕ} (h : n ≤ m) {l : Load}
    (hl : (service ttlMs events n).loads[i]? = some l) (hstage : l.stage = .cleared) :
    ∃ l', (service ttlMs events m).loads[i]? = some l' ∧ l'.stage = .cleared := by
  obtain ⟨l', hl', rfl | ⟨-, hle⟩⟩ := loadsAdvance_later h i l hl
  · exact ⟨_, hl', hstage⟩
  · rw [hstage] at hle
    exact ⟨l', hl', Stage.left_eq_zero.mp (Nat.le_zero.mp hle)⟩

/-- **Every call resolves.** -/
theorem Fair.eventually_resolved (hfair : Fair ttlMs events)
    (hnow : ∀ n now, events n = .refresh now → 0 < now) {n c : ℕ} {call : Call}
    (hcall : (service ttlMs events n).calls[c]? = some call) :
    ∃ m, n ≤ m ∧ (service ttlMs events m).calls[c]? = some .resolved := by
  cases call with
  | resolved => exact ⟨n, le_rfl, hcall⟩
  | awaiting i =>
      have hlt := (inv_service hnow n).calls i (List.mem_of_getElem? hcall)
      have hl := List.getElem?_eq_getElem hlt
      obtain ⟨m, hnm, hended⟩ := hfair.eventually_ended i n
      obtain ⟨l, hm, -⟩ := loadsAdvance_later hnm i _ hl
      rcases callsStay_later hnm c _ hcall with hwaits | hresolved
      · obtain ⟨k, hmk, hresume⟩ := hfair.resumed m c i l hwaits hm (hended l hm)
        obtain ⟨l', hl', hstage⟩ := cleared_later hmk hm (hended l hm)
        rcases callsStay_later hmk c _ hwaits with hwaits | hresolved
        · refine ⟨k + 1, Nat.le_succ_of_le (hnm.trans hmk), ?_⟩
          simp only [service_succ, hresume, step, resume, hwaits, hl', Option.map_some, hstage,
            if_true]
          exact List.getElem?_set_self (List.getElem?_eq_some_iff.mp hwaits).1
        · exact ⟨k, hnm.trans hmk, hresolved⟩
      · exact ⟨m, hnm, hresolved⟩

/-! ### The main result -/

/-- What a service does along a timeline.  Its gauges are those of the latest load that has written
them, and the counter counts the loads that failed. -/
structure Refreshes (ttlMs : ℤ) (events : ℕ → Event) : Prop where
  single : ∀ n, (service ttlMs events n).loads.countP Load.outstanding ≤ 1
  spaced : ∀ n,
    (service ttlMs events n).loads.length < (service ttlMs events (n + 1)).loads.length →
      ∃ now, events n = .refresh now
        ∧ (service ttlMs events (n + 1)).loads = (service ttlMs events n).loads ++ [Load.start now]
        ∧ ∀ t, latest Load.succeeded (service ttlMs events n).loads = some t → ttlMs ≤ now - t.now
  gauges : ∀ n, (service ttlMs events n).gauges
    = ((latest Load.written (service ttlMs events n).loads).bind Load.rows).elim Gauges.initial
        gaugesOf
  atomic : ∀ n, (service ttlMs events (n + 1)).gauges = (service ttlMs events n).gauges
    ∨ ∃ i l rows, events n = .turn i ∧ (service ttlMs events n).loads[i]? = some l
      ∧ l.rows = some rows ∧ (service ttlMs events (n + 1)).gauges = gaugesOf rows
  zero : ∀ rows status, ((∀ row ∈ rows.agents, row.status ≠ status) →
      (gaugesOf rows).agents status = some 0)
    ∧ ((∀ row ∈ rows.services, row.status ≠ status) → (gaugesOf rows).services status = some 0)
  errors : ∀ n, (service ttlMs events n).refreshErrors
    = (service ttlMs events n).loads.countP Load.reported
  ends : Fair ttlMs events → ∀ n (i : ℕ) l, (service ttlMs events n).loads[i]? = some l →
    ∃ m, n ≤ m ∧ ∃ l', (service ttlMs events m).loads[i]? = some l' ∧ l'.stage = .cleared
  resolves : Fair ttlMs events → ∀ n now, events n = .refresh now → ∃ m, n ≤ m
    ∧ (service ttlMs events m).calls[(service ttlMs events n).calls.length]? = some .resolved

/-- **Refreshes are atomic and do not stampede.** -/
theorem refresh_atomic (hnow : ∀ n now, events n = .refresh now → 0 < now) :
    Refreshes ttlMs events where
  single n := (inv_service hnow n).oneInFlight.countP_le
  spaced n hmore := (does_step ttlMs _ _).starts (inv_service hnow n) hmore
  gauges n := (inv_service hnow n).accounted.gauges
  atomic n := (does_step ttlMs _ _).gauges
  zero rows status := ⟨fun h => congrArg some (countOf_of_no_rows h),
    fun h => congrArg some (countOf_of_no_rows h)⟩
  errors n := (inv_service hnow n).accounted.refreshErrors
  ends hfair n i l hl := by
    obtain ⟨m, hnm, hended⟩ := hfair.eventually_ended i n
    obtain ⟨l', hl', -⟩ := loadsAdvance_later hnm i l hl
    exact ⟨m, hnm, l', hl', hended l' hl'⟩
  resolves hfair n now hevent := by
    obtain ⟨call, hcalls⟩ := (does_step ttlMs (service ttlMs events n) (.refresh now)).calls
    have hcall : (service ttlMs events (n + 1)).calls[(service ttlMs events n).calls.length]?
        = some call := by
      rw [service_succ, hevent, hcalls, List.getElem?_concat_length]
    obtain ⟨m, hnm, hm⟩ := hfair.eventually_resolved hnow hcall
    exact ⟨m, Nat.le_of_succ_le hnm, hm⟩

end Timelines

/-- Two concurrent scrapes, and all that can happen to their load in turn. -/
def twoScrapes : ℕ → Event
  | 0 => .refresh 1000
  | 1 => .refresh 1001
  | n + 2 =>
      match n % 6 with
      | 0 => .answer 0 (.agents (some [⟨.active, 7⟩]))
      | 1 => .answer 0 (.services (some []))
      | 2 => .answer 0 (.usage (some none))
      | 3 => .turn 0
      | 4 => .resume 0
      | _ => .resume 1

/-- Each of the six events comes again and again. -/
theorem twoScrapes_again (n : ℕ) {k : ℕ} (hk : k < 6) :
    ∃ m, n ≤ m ∧ twoScrapes m = twoScrapes (k + 2) := by
  refine ⟨6 * n + k + 2, by omega, ?_⟩
  show (match (6 * n + k) % 6 with | 0 => _ | 1 => _ | 2 => _ | 3 => _ | 4 => _ | _ => _) = _
  rw [Nat.mul_add_mod]
  rfl

theorem twoScrapes_ne_refresh (n : ℕ) (now : ℤ) : twoScrapes (n + 2) ≠ .refresh now := by
  rw [twoScrapes]
  split <;> nofun

theorem Does.lengths {ttlMs : ℤ} {s t : State} {e : Event} (hdoes : Does ttlMs s e t)
    (he : ∀ now, e ≠ .refresh now) :
    t.loads.length = s.loads.length ∧ t.calls.length = s.calls.length := by
  cases hdoes with
  | answered hcall => exact absurd rfl (he _)
  | started hcached hnone => exact absurd rfl (he _)
  | told hl answer => exact ⟨List.length_set, rfl⟩
  | @turned i l hl hready => exact ⟨List.length_set, congrArg List.length (handle_calls s l)⟩
  | resumed hwaits hcleared => exact ⟨rfl, List.length_set⟩
  | idle => exact ⟨rfl, rfl⟩

theorem twoScrapes_sizes : ∀ n, (service 15000 twoScrapes n).loads.length ≤ 1
    ∧ (service 15000 twoScrapes n).calls.length ≤ 2
  | 0 => by decide
  | 1 => by decide
  | 2 => by decide
  | n + 3 => by
      obtain ⟨hloads, hcalls⟩ := (does_step 15000 (service 15000 twoScrapes (n + 2))
        (twoScrapes (n + 2))).lengths (twoScrapes_ne_refresh n)
      rw [service_succ, hloads, hcalls]
      exact twoScrapes_sizes (n + 2)

theorem twoScrapes_fair : Fair 15000 twoScrapes where
  answered n i l source hl hjoined hrunning := by
    have hi : i = 0 := by
      have hlt := (List.getElem?_eq_some_iff.mp hl).1
      have hsize := (twoScrapes_sizes n).1
      omega
    subst hi
    cases source with
    | agents =>
        obtain ⟨m, hnm, hm⟩ := twoScrapes_again n (k := 0) (by decide)
        exact ⟨m, _, hnm, rfl, hm⟩
    | services =>
        obtain ⟨m, hnm, hm⟩ := twoScrapes_again n (k := 1) (by decide)
        exact ⟨m, _, hnm, rfl, hm⟩
    | usage =>
        obtain ⟨m, hnm, hm⟩ := twoScrapes_again n (k := 2) (by decide)
        exact ⟨m, _, hnm, rfl, hm⟩
  turned n i l hl hready := by
    have hi : i = 0 := by
      have hlt := (List.getElem?_eq_some_iff.mp hl).1
      have hsize := (twoScrapes_sizes n).1
      omega
    subst hi
    exact twoScrapes_again n (k := 3) (by decide)
  resumed n call i l hcall hl hstage := by
    have hlt := (List.getElem?_eq_some_iff.mp hcall).1
    have hsize := (twoScrapes_sizes n).2
    obtain rfl | rfl : call = 0 ∨ call = 1 := by omega
    · exact twoScrapes_again n (k := 4) (by decide)
    · exact twoScrapes_again n (k := 5) (by decide)

theorem twoScrapes_refresh : ∀ n now, twoScrapes n = .refresh now → 0 < now
  | 0, _, h => Event.refresh.inj h ▸ by decide
  | 1, _, h => Event.refresh.inj h ▸ by decide
  | n + 2, now, h => absurd h (twoScrapes_ne_refresh n now)

theorem twoScrapes_atomic : Fair 15000 twoScrapes ∧ Refreshes 15000 twoScrapes :=
  ⟨twoScrapes_fair, refresh_atomic twoScrapes_refresh⟩

end A2aAgentLayer.Observability.GaugeRefresh
