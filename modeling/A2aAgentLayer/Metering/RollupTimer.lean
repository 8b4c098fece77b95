import Mathlib.Algebra.Order.Group.Int
import A2aAgentLayer.Lib.Run
import A2aAgentLayer.Metering.RollupJob

/-!
# The rollup on its timer

`onModuleInit` starts a timer; its `k`-th run comes `k` intervals after the start and aggregates the
hour of that instant.  Usage records are inserted at any time, before the start as well, and carry
the time of their insertion.

After every moment of every run a row holds the totals of the records inserted before the last timer
run of its hour.  A record inserted after that run is never counted.
-/

namespace A2aAgentLayer.Metering.RollupTimer

open A2aAgentLayer.Lib.Utf16 A2aAgentLayer.Lib.KeyedStore A2aAgentLayer.Lib.Run
open A2aAgentLayer.Metering.MeteringService A2aAgentLayer.Metering.RollupJob

/-- The start of the process and the interval of its timer. -/
structure Schedule where
  start : ℤ
  intervalMs : ℕ

/-- `METERING_ROLLUP_INTERVAL_MS` when the environment does not set it. -/
def defaultIntervalMs : ℕ := 3600000

structure State where
  now : ℤ
  runs : ℕ
  usage : List UsageRecord
  rollups : Rollups

inductive Event where
  | insert (u : UsageRecord)
  | timer (date : ℤ)

def Event.time : Event → ℤ
  | .insert u => u.createdAt
  | .timer date => date

def initial (since : ℤ) : State := ⟨since, 0, [], ∅⟩

/-- The instant of the `k`-th timer run. -/
def runTime (c : Schedule) (k : ℕ) : ℤ := c.start + k * c.intervalMs

/-- A record is inserted while no timer run is overdue; a timer run happens at its instant, sees the
records inserted so far and must succeed. -/
def step (c : Schedule) (s : State) : Event → Option State
  | .insert u =>
      if s.now ≤ u.createdAt ∧ u.createdAt ≤ runTime c (s.runs + 1) then
        some { s with now := u.createdAt, usage := s.usage ++ [u] }
      else none
  | .timer date =>
      if s.now ≤ date ∧ date = runTime c (s.runs + 1) then
        match runHourlyRollup none s.usage s.rollups date with
        | (rollups, .success _) =>
            some { s with now := date, runs := s.runs + 1, rollups := rollups }
        | (_, .failure) => none
      else none

/-- What an insertion does. -/
theorem step_insert {c : Schedule} {s t : State} {u : UsageRecord} :
    step c s (.insert u) = some t ↔
      (s.now ≤ u.createdAt ∧ u.createdAt ≤ runTime c (s.runs + 1))
        ∧ t = { s with now := u.createdAt, usage := s.usage ++ [u] } := by
  rw [step, Option.ite_none_right_eq_some, Option.some.injEq, eq_comm (b := t)]

/-- What a timer run does. -/
theorem step_timer {c : Schedule} {s t : State} {date : ℤ}
    (h : step c s (.timer date) = some t) :
    s.now ≤ date ∧ date = runTime c (s.runs + 1) ∧ ∃ rollups buckets,
      runHourlyRollup none s.usage s.rollups date = (rollups, .success buckets)
        ∧ t = { s with now := date, runs := s.runs + 1, rollups := rollups } := by
  rw [step, Option.ite_none_right_eq_some] at h
  obtain ⟨⟨hnow, hdate⟩, h⟩ := h
  split at h
  · rename_i rollups buckets hrun
    exact ⟨hnow, hdate, rollups, buckets, hrun, (Option.some.inj h).symm⟩
  · cases h

/-! ### Times along a run -/

/-- The records a list of events inserts. -/
def inserted (es : List Event) : List UsageRecord :=
  es.filterMap fun
    | .insert u => some u
    | .timer _ => none

theorem inserted_append (es fs : List Event) : inserted (es ++ fs) = inserted es ++ inserted fs :=
  List.filterMap_append

theorem mem_inserted {es : List Event} {u : UsageRecord} :
    u ∈ inserted es ↔ Event.insert u ∈ es := by
  rw [inserted, List.mem_filterMap]
  constructor
  · rintro ⟨e, he, hu⟩
    cases e with
    | insert v =>
        obtain rfl := Option.some.inj hu
        exact he
    | timer date => cases hu
  · exact fun he => ⟨_, he, rfl⟩

/-- The clock, the order of the events and the latest timer run. -/
structure Timed (c : Schedule) (es : List Event) (s : State) : Prop where
  usage : s.usage = inserted es
  ordered : (es.map Event.time).Pairwise (· ≤ ·)
  past : ∀ e ∈ es, e.time ≤ s.now
  timers : ∀ date, Event.timer date ∈ es → 0 < s.runs ∧ date ≤ runTime c s.runs
  latest : 0 < s.runs → Event.timer (runTime c s.runs) ∈ es

theorem runTime_le_succ (c : Schedule) (k : ℕ) : runTime c k ≤ runTime c (k + 1) := by
  have hinterval : (0 : ℤ) ≤ c.intervalMs := Int.natCast_nonneg _
  rw [runTime, runTime, Int.natCast_add, Int.add_mul]
  omega

theorem ordered_snoc {es : List Event} {e : Event} {now : ℤ}
    (hordered : (es.map Event.time).Pairwise (· ≤ ·)) (hpast : ∀ f ∈ es, f.time ≤ now)
    (hnow : now ≤ e.time) :
    ((es ++ [e]).map Event.time).Pairwise (· ≤ ·) ∧ ∀ f ∈ es ++ [e], f.time ≤ e.time := by
  have hall : ∀ f ∈ es, f.time ≤ e.time := fun f hf => (hpast f hf).trans hnow
  refine ⟨?_, fun f hf => ?_⟩
  · rw [List.map_append, List.pairwise_append]
    refine ⟨hordered, List.pairwise_singleton _ _, ?_⟩
    simpa using hall
  · rcases List.mem_append.mp hf with hf | hf
    · exact hall f hf
    · rw [List.mem_singleton.mp hf]

theorem timed (c : Schedule) (since : ℤ) :
    ∀ es s, run (step c) (initial since) es = some s → Timed c es s := by
  refine run_induction (step c) ⟨rfl, .nil, by simp, by simp, by simp [initial]⟩ ?_
  intro es s e t _ inv hstep
  cases e with
  | insert u =>
      obtain ⟨⟨hnow, _⟩, rfl⟩ := step_insert.mp hstep
      obtain ⟨hordered, hpast⟩ := ordered_snoc (e := .insert u) inv.ordered inv.past hnow
      refine ⟨?_, hordered, hpast, fun date hd => ?_, fun hruns => ?_⟩
      · rw [inserted_append, ← inv.usage]
        rfl
      · exact inv.timers date (by simpa using hd)
      · exact List.mem_append_left _ (inv.latest hruns)
  | timer date =>
      obtain ⟨hnow, hdate, rollups, buckets, _, rfl⟩ := step_timer hstep
      obtain ⟨hordered, hpast⟩ := ordered_snoc (e := .timer date) inv.ordered inv.past hnow
      refine ⟨?_, hordered, hpast, fun d hd => ?_, fun _ => ?_⟩
      · rw [inserted_append, ← inv.usage]
        exact (List.append_nil _).symm
      · rcases List.mem_append.mp hd with hd | hd
        · exact ⟨s.runs.succ_pos, (inv.timers d hd).2.trans (runTime_le_succ c s.runs)⟩
        · obtain rfl := Event.timer.inj (List.mem_singleton.mp hd)
          exact ⟨s.runs.succ_pos, hdate.le⟩
      · rw [← hdate]
        exact List.mem_append_right _ (List.mem_singleton_self _)

/-! ### What a row holds -/

/-- The row of an agent and an hour when the records of `es` are all that was aggregated for it. -/
def rowAfter (es : List Event) (agentId : JsString) (hour : ℤ) : Option UsageRollup :=
  if agentHour (inserted es) agentId hour ≠ [] then
    some (totals (agentHour (inserted es) agentId hour))
  else none

/-- The rows of an hour stem from the events up to its last timer run. -/
def FromLastRun (es : List Event) (s : State) (hour : ℤ) : Prop :=
  ∃ ps qs, es = ps ++ qs
    ∧ (ps = [] ∨ ∃ ps' date, ps = ps' ++ [.timer date] ∧ truncateToHour date = hour)
    ∧ (∀ date, Event.timer date ∈ qs → truncateToHour date ≠ hour)
    ∧ ∀ agentId, s.rollups.lookup (agentId, hour) = rowAfter ps agentId hour

/-- **Rows along a run.** -/
theorem fromLastRun (c : Schedule) (since hour : ℤ) :
    ∀ es s, run (step c) (initial since) es = some s → FromLastRun es s hour := by
  refine run_induction (step c) ⟨[], [], rfl, .inl rfl, by simp, fun _ => rfl⟩ ?_
  intro es s e t hrun inv hstep
  have htimed := timed c since es s hrun
  obtain ⟨ps, qs, rfl, hlast, hnone, hrows⟩ := inv
  cases e with
  | insert u =>
      obtain ⟨_, rfl⟩ := step_insert.mp hstep
      refine ⟨ps, qs ++ [.insert u], List.append_assoc _ _ _, hlast, fun date hd => ?_, hrows⟩
      exact hnone date (by simpa using hd)
  | timer date =>
      obtain ⟨_, _, rollups, buckets, hrollup, rfl⟩ := step_timer hstep
      have hlookup := fun agentId => lookup_runHourlyRollup hrollup agentId hour
      by_cases hhour : truncateToHour date = hour
      · refine ⟨ps ++ qs ++ [.timer date], [], (List.append_nil _).symm,
          .inr ⟨_, date, rfl, hhour⟩, by simp, fun agentId => ?_⟩
        have hsame : inserted (ps ++ qs ++ [.timer date]) = s.usage := by
          rw [htimed.usage, inserted_append (ps ++ qs)]
          exact List.append_nil _
        rw [hlookup agentId, rowAfter, hsame]
        by_cases hempty : agentHour s.usage agentId hour = []
        · -- no record now, so none at the earlier run
          have hps : agentHour (inserted ps) agentId hour = [] := by
            rw [htimed.usage, inserted_append, agentHour_append] at hempty
            exact (List.append_eq_nil_iff.mp hempty).1
          simp [hempty, hrows agentId, rowAfter, hps]
        · simp [hempty, hhour]
      · refine ⟨ps, qs ++ [.timer date], List.append_assoc _ _ _, hlast, fun d hd => ?_,
          fun agentId => ?_⟩
        · rcases List.mem_append.mp hd with hd | hd
          · exact hnone d hd
          · rw [Event.timer.inj (List.mem_singleton.mp hd)]
            exact hhour
        · rw [hlookup agentId, if_neg fun hrow => hhour hrow.1.symm, hrows agentId]

/-! ### Complete rollups -/

/-- Every hour that ended by the latest timer run has its row for every agent with a record in it,
with the totals over all of them. -/
def Complete (c : Schedule) (s : State) : Prop :=
  0 < s.runs → ∀ hour, truncateToHour hour = hour → hour + hourMs ≤ runTime c s.runs →
    ∀ agentId, agentHour s.usage agentId hour ≠ [] →
      s.rollups.lookup (agentId, hour) = some (totals (agentHour s.usage agentId hour))

/-- Every record whose hour ended before a later timer run is followed by a timer run in its own
hour. -/
def TailsCovered (es : List Event) : Prop :=
  ∀ ps u qs, es = ps ++ .insert u :: qs →
    (∃ date, Event.timer date ∈ qs ∧ truncateToHour u.createdAt + hourMs ≤ date) →
    ∃ date, Event.timer date ∈ qs ∧ truncateToHour date = truncateToHour u.createdAt

/-- In an ordered list of events what is later than an insertion comes after it. -/
theorem mem_of_later {ps qs : List Event} {u : UsageRecord} {e : Event}
    (hordered : ((ps ++ .insert u :: qs).map Event.time).Pairwise (· ≤ ·))
    (he : e ∈ ps ++ .insert u :: qs) (hlater : u.createdAt < e.time) : e ∈ qs := by
  rw [List.map_append, List.pairwise_append] at hordered
  rcases List.mem_append.mp he with he | he
  · have hle := hordered.2.2 _ (List.mem_map_of_mem he) u.createdAt (by simp [Event.time])
    omega
  · rcases List.mem_cons.mp he with rfl | he
    · exact absurd hlater (lt_irrefl _)
    · exact he

/-- When a row of the last run counts every record, none was inserted after that run. -/
theorem agentHour_eq_nil_of_totals {ps qs : List Event} {agentId : JsString} {hour : ℤ}
    (h : rowAfter ps agentId hour = some (totals (agentHour (inserted (ps ++ qs)) agentId hour))) :
    agentHour (inserted qs) agentId hour = [] := by
  rw [rowAfter, Option.ite_none_right_eq_some, Option.some.injEq, inserted_append,
    agentHour_append] at h
  have hcount := congrArg UsageRollup.requestCount h.2
  simp only [totals, columns, aggregateOf, List.length_append] at hcount
  rw [← List.length_eq_zero_iff]
  omega

/-- The last element of a list comes after any other one of it. -/
theorem mem_of_concat_eq {ps qs rs : List Event} {e f : Event} (h : ps ++ e :: qs = rs ++ [f])
    (hne : f ≠ e) : f ∈ qs := by
  have hlast : (ps ++ e :: qs).getLast? = some f := by rw [h, List.getLast?_concat]
  rw [List.getLast?_append_cons] at hlast
  exact List.mem_of_ne_of_mem hne (List.mem_of_getLast? hlast)

theorem tailsCovered_of_complete {c : Schedule} {since : ℤ} {es : List Event} {s : State}
    (hrun : run (step c) (initial since) es = some s) (hcomplete : Complete c s) :
    TailsCovered es := by
  have htimed := timed c since es s hrun
  rintro ps u qs rfl ⟨late, hlate, hended⟩
  obtain ⟨ps', qs', hsplit, hlast, -, hrows⟩ :=
    fromLastRun c since (truncateToHour u.createdAt) _ s hrun
  obtain ⟨hruns, hle⟩ := htimed.timers late (by simp [hlate])
  have hu : u ∈ agentHour s.usage u.agentId (truncateToHour u.createdAt) := by
    rw [mem_agentHour, htimed.usage, mem_inserted, inHour_iff (truncateToHour_idem _)]
    simp
  have hrow := hcomplete hruns _ (truncateToHour_idem _) (hended.trans hle) u.agentId
    (List.ne_nil_of_mem hu)
  rw [hrows, htimed.usage, hsplit] at hrow
  have hafter := agentHour_eq_nil_of_totals hrow
  have hnot : Event.insert u ∉ qs' := by
    intro hmem
    refine List.ne_nil_of_mem (a := u) ?_ hafter
    rw [mem_agentHour, mem_inserted, inHour_iff (truncateToHour_idem _)]
    exact ⟨hmem, rfl, rfl⟩
  -- so the insertion lies before the last run of its hour
  rcases List.append_eq_append_iff.mp hsplit with ⟨x, rfl, hx⟩ | ⟨x, -, rfl⟩
  · cases x with
    | nil =>
        rw [List.nil_append] at hx
        exact absurd (hx ▸ List.mem_cons_self) hnot
    | cons e x =>
        obtain ⟨rfl, rfl⟩ := List.cons.inj hx
        rcases hlast with hnil | ⟨ps'', date, hps, hdate⟩
        · simp at hnil
        · exact ⟨date, List.mem_append_left _ (mem_of_concat_eq hps nofun), hdate⟩
  · simp at hnot

theorem complete_of_tailsCovered {c : Schedule} {since : ℤ} {es : List Event} {s : State}
    (hrun : run (step c) (initial since) es = some s) (hcovered : TailsCovered es) :
    Complete c s := by
  have htimed := timed c since es s hrun
  intro hruns hour hhour hended agentId hrecords
  obtain ⟨ps, qs, rfl, hlast, hnone, hrows⟩ := fromLastRun c since hour es s hrun
  have hafter : agentHour (inserted qs) agentId hour = [] := by
    rw [List.eq_nil_iff_forall_not_mem]
    intro u hu
    obtain ⟨hu, hin, -⟩ := mem_agentHour.mp hu
    obtain ⟨q₁, q₂, rfl⟩ := List.append_of_mem (mem_inserted.mp hu)
    rw [inHour_iff hhour] at hin
    have hordered := htimed.ordered
    have hlatest := htimed.latest hruns
    rw [← List.append_assoc] at hordered hlatest
    have hlt := lt_truncateToHour_add u.createdAt
    have hq₂ := mem_of_later hordered hlatest (by rw [Event.time]; omega)
    obtain ⟨date, hdate, hsame⟩ := hcovered (ps ++ q₁) u q₂ (by rw [List.append_assoc])
      ⟨_, hq₂, by rw [hin]; exact hended⟩
    exact hnone date (by simp [hdate]) (hsame.trans hin)
  have hall : agentHour s.usage agentId hour = agentHour (inserted ps) agentId hour := by
    rw [htimed.usage, inserted_append, agentHour_append, hafter, List.append_nil]
  rw [hrows agentId, rowAfter, ← hall, if_pos hrecords]

theorem tailsCovered_start {ps qs : List Event}
    (hordered : ((ps ++ qs).map Event.time).Pairwise (· ≤ ·)) (h : TailsCovered (ps ++ qs)) :
    TailsCovered ps := by
  rintro p₁ u p₂ rfl ⟨late, hlate, hended⟩
  obtain ⟨date, hdate, hsame⟩ := h p₁ u (p₂ ++ qs) (by simp)
    ⟨late, List.mem_append_left _ hlate, hended⟩
  rcases List.mem_append.mp hdate with hdate | hdate
  · exact ⟨date, hdate, hsame⟩
  · -- a run after `late` is no longer in the hour of the record
    rw [List.map_append, List.pairwise_append] at hordered
    have hle := hordered.2.2 late (List.mem_map.mpr ⟨.timer late, by simp [hlate], rfl⟩)
      date (List.mem_map.mpr ⟨.timer date, hdate, rfl⟩)
    have hlt := lt_truncateToHour_add date
    omega

/-- **When the rollup is complete at every moment:** exactly in the runs in which no record is
inserted after the last timer run of its hour. -/
theorem complete_throughout_iff {c : Schedule} {since : ℤ} {es : List Event} {s : State}
    (hrun : run (step c) (initial since) es = some s) :
    (∀ ps m, ps <+: es → run (step c) (initial since) ps = some m → Complete c m)
      ↔ TailsCovered es := by
  constructor
  · intro h
    exact tailsCovered_of_complete hrun (h es s List.prefix_rfl hrun)
  · rintro h ps m ⟨qs, rfl⟩ hps
    exact complete_of_tailsCovered hps
      (tailsCovered_start (timed c since _ s hrun).ordered h)

/-! A process started ten minutes past the hour, with the default interval. -/

def tenPast : Schedule := ⟨600000, defaultIntervalMs⟩

def usageAt (createdAt : ℤ) : UsageRecord where
  sessionId := js "sess-001"
  agentId := js "agent-a"
  tokensUsed := 5
  cpuMs := 2
  bytesIn := 17
  bytesOut := 68
  modelId := none
  toolCallsCount := 1
  createdAt := createdAt

/-- A record five minutes past the hour and the runs of this hour and of the next. -/
def earlyRecord : List Event := [.insert (usageAt 3900000), .timer 4200000, .timer 7800000]

/-- One more record half an hour past. -/
def lateRecord : List Event :=
  [.insert (usageAt 3900000), .timer 4200000, .insert (usageAt 5400000), .timer 7800000]

theorem complete_throughout_earlyRecord : ∃ s,
    run (step tenPast) (initial 0) earlyRecord = some s ∧
      ((∀ ps m, ps <+: earlyRecord → run (step tenPast) (initial 0) ps = some m →
        Complete tenPast m) ↔ TailsCovered earlyRecord) := by
  obtain ⟨s, hs⟩ := Option.isSome_iff_exists.mp
    (by decide : (run (step tenPast) (initial 0) earlyRecord).isSome = true)
  exact ⟨s, hs, complete_throughout_iff hs⟩

/-- The late record is in no total: the row of its hour counts one request of two. -/
theorem lateRecord_lost : ∃ s, run (step tenPast) (initial 0) lateRecord = some s
    ∧ s.rollups.lookup (js "agent-a", 3600000) = some ⟨1, 5, 17, 68, 2⟩
    ∧ totals (agentHour s.usage (js "agent-a") 3600000) = ⟨2, 10, 34, 136, 4⟩
    ∧ ¬ Complete tenPast s := by
  obtain ⟨s, hs⟩ := Option.isSome_iff_exists.mp
    (by decide : (run (step tenPast) (initial 0) lateRecord).isSome = true)
  have hrow : (run (step tenPast) (initial 0) lateRecord).map
      (fun s => (s.rollups.lookup (js "agent-a", 3600000),
        totals (agentHour s.usage (js "agent-a") 3600000)))
      = some (some ⟨1, 5, 17, 68, 2⟩, ⟨2, 10, 34, 136, 4⟩) := by decide
  rw [hs, Option.map_some, Option.some.injEq, Prod.mk.injEq] at hrow
  refine ⟨s, hs, hrow.1, hrow.2, fun hcomplete => ?_⟩
  have hcovered := tailsCovered_of_complete hs hcomplete
  obtain ⟨date, hdate, hsame⟩ := hcovered [.insert (usageAt 3900000), .timer 4200000]
    (usageAt 5400000) [.timer 7800000] rfl ⟨7800000, by simp, by decide⟩
  obtain rfl := Event.timer.inj (List.mem_singleton.mp hdate)
  exact absurd hsame (by decide)

end A2aAgentLayer.Metering.RollupTimer
