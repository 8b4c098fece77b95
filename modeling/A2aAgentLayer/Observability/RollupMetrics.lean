import A2aAgentLayer.Lib.Instances
import A2aAgentLayer.Lib.Run
import A2aAgentLayer.Metering.RollupJob

/-!
# Counting rollup runs

`runHourlyRollup` counts its outcome, and a run that succeeds sets the two gauges.  Runs overlap
with each other and with new usage records, and the database may refuse any of their statements: a
run that fails has written some of its rows.

`writes` is bookkeeping: which run wrote which row.
-/

namespace A2aAgentLayer.Observability.RollupMetrics

open A2aAgentLayer.Lib.Utf16 A2aAgentLayer.Lib.KeyedStore A2aAgentLayer.Lib.Run
open A2aAgentLayer.Lib.Instances (entriesOf entriesOf_append entriesOf_map)
open A2aAgentLayer.Metering.MeteringService A2aAgentLayer.Metering.RollupJob

/-! ### The metrics -/

inductive RollupResult where
  | success
  | failure
  deriving DecidableEq

/-- The counter by result and the two gauges, of which the first is in seconds. -/
structure Metrics where
  runs : RollupResult → ℕ
  lastSuccess : ℤ
  lastBuckets : ℕ

def Metrics.initial : Metrics := ⟨fun _ => 0, 0, 0⟩

def Metrics.recordRollupRun (metrics : Metrics) (result : RollupResult) (buckets : ℕ) (now : ℤ) :
    Metrics :=
  { runs := Function.update metrics.runs result (metrics.runs result + 1)
    lastSuccess := if result = .success then now / 1000 else metrics.lastSuccess
    lastBuckets := if result = .success then buckets else metrics.lastBuckets }

/-! ### The runs -/

/-- Where a run is.  `seen` is the number of usage records when its query was answered, `rows` the
answer, and `written` how many of the rows it has upserted. -/
inductive Phase where
  | aggregating
  | upserting (seen : ℕ) (rows : List AggregateRow) (written : ℕ)
  | resolved (seen : ℕ) (rows : List AggregateRow) (now : ℤ)
  | rejected (seen : ℕ) (rows : List AggregateRow) (written : ℕ) (now : ℤ)

structure Call where
  hourBucket : ℤ
  phase : Phase

/-- An upserted row, with its hour. -/
abbrev Write := ℤ × AggregateRow

structure State where
  usage : List UsageRecord
  rollups : Rollups
  calls : List Call
  metrics : Metrics
  writes : List (ℕ × Write)

def initial : State := ⟨[], ∅, [], .initial, []⟩

/-- Times are in milliseconds. -/
inductive Event where
  | insert (u : UsageRecord)
  | run (referenceDate : ℤ)
  /-- The aggregate query of a run is answered or fails. -/
  | aggregated (call : ℕ) (answer : Option (List AggregateRow)) (now : ℤ)
  /-- The next upsert of a run is executed; the database may refuse it. -/
  | upserted (call : ℕ) (refused : Bool) (now : ℤ)

/-- `recordRollupRun`, when a run ends. -/
def Phase.recorded (metrics : Metrics) : Phase → Metrics
  | .resolved _ rows now => metrics.recordRollupRun .success rows.length now
  | .rejected _ _ _ now => metrics.recordRollupRun .failure 0 now
  | _ => metrics

/-- One upsert. -/
def store (rollups : Rollups) (w : Write) : Rollups :=
  rollups.insert (w.2.agentId, w.1) (columns w.2)

/-- A run goes on to a phase and writes some rows on the way. -/
def State.move (s : State) (i : ℕ) (hour : ℤ) (phase : Phase) (more : List AggregateRow) :
    State where
  usage := s.usage
  rollups := (more.map fun row => (hour, row)).foldl store s.rollups
  calls := s.calls.set i ⟨hour, phase⟩
  metrics := phase.recorded s.metrics
  writes := s.writes ++ (more.map fun row => (hour, row)).map fun w => (i, w)

/-- The phase of a run that has written some of its rows. -/
def Phase.after (seen : ℕ) (rows : List AggregateRow) (written : ℕ) (now : ℤ) : Phase :=
  if rows.length ≤ written then .resolved seen rows now else .upserting seen rows written

def step (s : State) : Event → Option State
  | .insert u => some { s with usage := s.usage ++ [u] }
  | .run referenceDate =>
      some { s with calls := s.calls ++ [⟨truncateToHour referenceDate, .aggregating⟩] }
  | .aggregated i answer now =>
      match s.calls[i]? with
      | some ⟨hour, .aggregating⟩ =>
          match answer with
          | none => some (s.move i hour (.rejected s.usage.length [] 0 now) [])
          | some rows =>
              if rows.Perm (aggregates s.usage hour) then
                some (s.move i hour (.after s.usage.length rows 0 now) [])
              else none
      | _ => none
  | .upserted i refused now =>
      match s.calls[i]? with
      | some ⟨hour, .upserting seen rows written⟩ =>
          match rows[written]? with
          | none => none
          | some row =>
              if refused || !fitsColumns (columns row) then
                some (s.move i hour (.rejected seen rows written now) [])
              else some (s.move i hour (.after seen rows (written + 1) now) [row])
      | _ => none

/-! ### What a run has done -/

def Phase.result : Phase → Option RollupResult
  | .resolved .. => some .success
  | .rejected .. => some .failure
  | _ => none

/-- The rows that a run has written. -/
def Phase.wrote : Phase → List AggregateRow
  | .aggregating => []
  | .upserting _ rows written => rows.take written
  | .resolved _ rows _ => rows
  | .rejected _ rows written _ => rows.take written

/-- The rows of a run are those of its hour among the records that were there; a run that failed at
the query has none. -/
def Phase.Reads (usage : List UsageRecord) (hour : ℤ) : Phase → Prop
  | .aggregating => True
  | .upserting seen rows _ => seen ≤ usage.length ∧ rows.Perm (aggregates (usage.take seen) hour)
  | .resolved seen rows _ => seen ≤ usage.length ∧ rows.Perm (aggregates (usage.take seen) hour)
  | .rejected seen rows _ _ =>
      seen ≤ usage.length ∧ (rows = [] ∨ rows.Perm (aggregates (usage.take seen) hour))

/-- A failed run has left a row out, unless it had none. -/
def Phase.Stops : Phase → Prop
  | .rejected _ rows written _ => rows = [] ∨ written < rows.length
  | _ => True

theorem Phase.reads_append {usage more : List UsageRecord} {hour : ℤ} {phase : Phase}
    (h : phase.Reads usage hour) : phase.Reads (usage ++ more) hour := by
  have htake : ∀ seen, seen ≤ usage.length → (usage ++ more).take seen = usage.take seen :=
    fun seen hseen => List.take_append_of_le_length hseen
  have hlength : ∀ seen, seen ≤ usage.length → seen ≤ (usage ++ more).length := by
    intro seen hseen
    rw [List.length_append]
    omega
  cases phase with
  | aggregating => trivial
  | upserting seen rows written => exact ⟨hlength seen h.1, (htake seen h.1) ▸ h.2⟩
  | resolved seen rows now => exact ⟨hlength seen h.1, (htake seen h.1) ▸ h.2⟩
  | rejected seen rows written now => exact ⟨hlength seen h.1, (htake seen h.1) ▸ h.2⟩

theorem Phase.wrote_after (seen : ℕ) (rows : List AggregateRow) (written : ℕ) (now : ℤ) :
    (Phase.after seen rows written now).wrote = rows.take written := by
  rw [Phase.after]
  split_ifs with h
  · exact (List.take_of_length_le h).symm
  · rfl

theorem Phase.stops_after (seen : ℕ) (rows : List AggregateRow) (written : ℕ) (now : ℤ) :
    (Phase.after seen rows written now).Stops := by
  rw [Phase.after]
  split_ifs <;> trivial

theorem Phase.reads_after {usage : List UsageRecord} {hour : ℤ} {seen : ℕ}
    {rows : List AggregateRow} (hseen : seen ≤ usage.length)
    (hrows : rows.Perm (aggregates (usage.take seen) hour)) (written : ℕ) (now : ℤ) :
    (Phase.after seen rows written now).Reads usage hour := by
  rw [Phase.after]
  split_ifs <;> exact ⟨hseen, hrows⟩

/-- The time of the event in which a run can end. -/
def Event.now? : Event → Option ℤ
  | .aggregated _ _ now => some now
  | .upserted _ _ now => some now
  | _ => none

def times (es : List Event) : List ℤ := es.filterMap Event.now?

/-- A run that resolved did so at the time. -/
def Phase.ResolvedAt (now : ℤ) : Phase → Prop
  | .resolved _ _ time => time = now
  | _ => True

/-- What a step can do: a record or a run is new, or a run goes on. -/
inductive Moves (s : State) (e : Event) : State → Prop
  | insert (u : UsageRecord) : Moves s e { s with usage := s.usage ++ [u] }
  | start (hour : ℤ) : Moves s e { s with calls := s.calls ++ [⟨hour, .aggregating⟩] }
  | move {i : ℕ} {hour now : ℤ} {old : Phase} (phase : Phase) (more : List AggregateRow)
      (hcall : s.calls[i]? = some ⟨hour, old⟩) (hopen : old.result = none)
      (hwrote : phase.wrote = old.wrote ++ more) (hreads : phase.Reads s.usage hour)
      (hstops : phase.Stops) (hnow : e.now? = some now) (hat : phase.ResolvedAt now) :
      Moves s e (s.move i hour phase more)

theorem Phase.resolvedAt_after (seen : ℕ) (rows : List AggregateRow) (written : ℕ) (now : ℤ) :
    (Phase.after seen rows written now).ResolvedAt now := by
  rw [Phase.after]
  split_ifs
  · exact rfl
  · trivial

theorem step_moves {s t : State} {e : Event}
    (hs : ∀ (i : ℕ) (hour : ℤ) (phase : Phase), s.calls[i]? = some ⟨hour, phase⟩ →
      phase.Reads s.usage hour)
    (h : step s e = some t) : Moves s e t := by
  cases e with
  | insert u => exact Option.some.inj h ▸ .insert u
  | run referenceDate => exact Option.some.inj h ▸ .start (truncateToHour referenceDate)
  | aggregated i answer now =>
      rw [step] at h
      split at h
      · next hour hcall =>
          cases answer with
          | none =>
              obtain rfl := Option.some.inj h
              exact .move _ [] hcall rfl rfl ⟨Nat.le_refl _, .inl rfl⟩ (.inl rfl) rfl trivial
          | some rows =>
              dsimp only at h
              split_ifs at h with hrows
              obtain rfl := Option.some.inj h
              refine .move _ [] hcall rfl ?_ (Phase.reads_after (Nat.le_refl _) ?_ _ _)
                (Phase.stops_after ..) rfl (Phase.resolvedAt_after ..)
              · rw [Phase.wrote_after]
                rfl
              · rw [List.take_length]
                exact hrows
      · cases h
  | upserted i refused now =>
      rw [step] at h
      split at h
      · next hour seen rows written hcall =>
          obtain ⟨hseen, hrows⟩ := hs i hour _ hcall
          split at h
          · cases h
          · next row hrow =>
              obtain ⟨hwritten, hrow⟩ := List.getElem?_eq_some_iff.mp hrow
              split_ifs at h
              · obtain rfl := Option.some.inj h
                exact .move _ [] hcall rfl (List.append_nil _).symm ⟨hseen, .inr hrows⟩
                  (.inr hwritten) rfl trivial
              · obtain rfl := Option.some.inj h
                refine .move _ [row] hcall rfl ?_ (Phase.reads_after hseen hrows _ _)
                  (Phase.stops_after ..) rfl (Phase.resolvedAt_after ..)
                rw [Phase.wrote_after, List.take_add_one, List.getElem?_eq_getElem hwritten, hrow]
                rfl
      · cases h

/-! ### Along a run of the service -/

/-- The writes of a run. -/
def Call.wrote (call : Call) : List Write := call.phase.wrote.map fun row => (call.hourBucket, row)

/-- The gauges are those of a run that resolved, and of the latest one if the clock never goes back;
as long as none has, they are zero. -/
def State.Gauges (es : List Event) (s : State) : Prop :=
  ((∀ call ∈ s.calls, call.phase.result ≠ some .success)
      ∧ s.metrics.lastSuccess = 0 ∧ s.metrics.lastBuckets = 0)
    ∨ ∃ hour seen rows now, ⟨hour, .resolved seen rows now⟩ ∈ s.calls
      ∧ s.metrics.lastSuccess = now / 1000 ∧ s.metrics.lastBuckets = rows.length
      ∧ ((times es).Pairwise (· ≤ ·) → ∀ hour' seen' rows' now',
        ⟨hour', .resolved seen' rows' now'⟩ ∈ s.calls → now' ≤ now)

structure Inv (es : List Event) (s : State) : Prop where
  runs : ∀ result, s.metrics.runs result
    = s.calls.countP fun call => decide (call.phase.result = some result)
  sound : ∀ (i : ℕ) (hour : ℤ) (phase : Phase), s.calls[i]? = some ⟨hour, phase⟩ →
    phase.Reads s.usage hour ∧ phase.Stops
  wrote : ∀ i, entriesOf i s.writes = (s.calls[i]?.map Call.wrote).getD []
  table : s.rollups = (s.writes.map Prod.snd).foldl store ∅
  timed : ∀ hour seen rows now, ⟨hour, .resolved seen rows now⟩ ∈ s.calls → now ∈ times es
  gauges : s.Gauges es

theorem times_concat (es : List Event) (e : Event) :
    times (es ++ [e]) = times es ++ e.now?.toList := by
  rw [times, List.filterMap_append, times]
  refine congrArg (es.filterMap Event.now? ++ ·) ?_
  cases hnow : e.now? with
  | none => exact List.filterMap_cons_none hnow
  | some now => exact List.filterMap_cons_some hnow

theorem inv_initial : Inv [] initial where
  runs := fun _ => rfl
  sound := nofun
  wrote := fun _ => rfl
  table := rfl
  timed := fun _ _ _ _ h => absurd h List.not_mem_nil
  gauges := .inl ⟨fun _ h => absurd h List.not_mem_nil, rfl, rfl⟩

/-- Where no run ends, what is said about the ends of runs stays true. -/
theorem Gauges.later {es : List Event} {s t : State} (e : Event) (h : s.Gauges es)
    (hmetrics : t.metrics.lastSuccess = s.metrics.lastSuccess
      ∧ t.metrics.lastBuckets = s.metrics.lastBuckets)
    (hcalls : ∀ call : Call, call.phase.result = some .success →
      (call ∈ t.calls ↔ call ∈ s.calls)) : t.Gauges (es ++ [e]) := by
  rcases h with ⟨hnone, hlast, hbuckets⟩ | ⟨hour, seen, rows, now, hcall, hlast, hbuckets, hlatest⟩
  · refine .inl ⟨fun call hcall hresult => ?_, hmetrics.1.trans hlast, hmetrics.2.trans hbuckets⟩
    exact hnone call ((hcalls call hresult).mp hcall) hresult
  · refine .inr ⟨hour, seen, rows, now, (hcalls _ rfl).mpr hcall, hmetrics.1.trans hlast,
      hmetrics.2.trans hbuckets, fun hsorted hour' seen' rows' now' hother => ?_⟩
    rw [times_concat] at hsorted
    exact hlatest (List.pairwise_append.mp hsorted).1 hour' seen' rows' now'
      ((hcalls _ rfl).mp hother)

/-- Replacing one entry neither brings nor takes others. -/
theorem mem_set_of_ne {calls : List Call} {i : ℕ} {old call : Call} (hold : calls[i]? = some old)
    (hne : call ≠ old) (new : Call) : call ∈ calls.set i new ↔ call = new ∨ call ∈ calls := by
  constructor
  · intro h
    exact (List.mem_or_eq_of_mem_set h).symm
  · rintro (rfl | h)
    · exact List.mem_set (List.getElem?_eq_some_iff.mp hold).1 _
    · obtain ⟨j, hj⟩ := List.mem_iff_getElem?.mp h
      have hij : i ≠ j := by
        rintro rfl
        exact hne (Option.some.inj (hj.symm.trans hold))
      exact List.mem_of_getElem? (i := j) (by rw [List.getElem?_set_ne hij]; exact hj)

/-- Ends are counted when they come. -/
theorem runs_move {s : State} {i : ℕ} {hour : ℤ} {old : Phase} (phase : Phase)
    (hcall : s.calls[i]? = some ⟨hour, old⟩) (hopen : old.result = none)
    (hruns : ∀ result, s.metrics.runs result
      = s.calls.countP fun call => decide (call.phase.result = some result))
    (result : RollupResult) : (phase.recorded s.metrics).runs result
      = (s.calls.set i ⟨hour, phase⟩).countP fun call =>
        decide (call.phase.result = some result) := by
  obtain ⟨hi, hget⟩ := List.getElem?_eq_some_iff.mp hcall
  rw [List.countP_set hi, hget, ← hruns, hopen]
  have hnot : decide ((none : Option RollupResult) = some result) = false := rfl
  rw [hnot]
  cases phase with
  | aggregating => rfl
  | upserting seen rows written => rfl
  | resolved seen rows now =>
      cases result <;> simp [Phase.recorded, Metrics.recordRollupRun, Phase.result]
  | rejected seen rows written now =>
      cases result <;> simp [Phase.recorded, Metrics.recordRollupRun, Phase.result]

/-- The gauges of a run that goes on. -/
theorem gauges_move {es : List Event} {s : State} {e : Event} {i : ℕ} {hour now : ℤ}
    {old phase : Phase} {more : List AggregateRow} (inv : Inv es s)
    (hcall : s.calls[i]? = some ⟨hour, old⟩) (hopen : old.result = none)
    (hnow : e.now? = some now) (hat : phase.ResolvedAt now) :
    (s.move i hour phase more).Gauges (es ++ [e]) := by
  have hmem : ∀ call : Call, call.phase.result = some .success →
      (call ∈ s.calls.set i ⟨hour, phase⟩ ↔ call = ⟨hour, phase⟩ ∨ call ∈ s.calls) := by
    intro call hresult
    refine mem_set_of_ne hcall (fun heq => ?_) _
    rw [heq, hopen] at hresult
    cases hresult
  have hkeeps : phase.result ≠ some .success →
      (phase.recorded s.metrics).lastSuccess = s.metrics.lastSuccess
        ∧ (phase.recorded s.metrics).lastBuckets = s.metrics.lastBuckets →
      (s.move i hour phase more).Gauges (es ++ [e]) := by
    intro hphase hmetrics
    refine Gauges.later e inv.gauges hmetrics fun call hresult => (hmem call hresult).trans ?_
    refine or_iff_right fun heq => hphase ?_
    rw [heq] at hresult
    exact hresult
  cases phase with
  | aggregating => exact hkeeps nofun ⟨rfl, rfl⟩
  | upserting seen rows written => exact hkeeps nofun ⟨rfl, rfl⟩
  | rejected seen rows written time => exact hkeeps nofun ⟨rfl, rfl⟩
  | resolved seen rows time =>
      obtain rfl : time = now := hat
      refine .inr ⟨hour, seen, rows, time, (hmem _ rfl).mpr (.inl rfl), rfl, rfl, ?_⟩
      intro hsorted hour' seen' rows' now' hother
      rcases (hmem _ rfl).mp hother with heq | hother
      · obtain ⟨-, -, rfl⟩ := Phase.resolved.inj (Call.mk.inj heq).2
        exact le_refl _
      · rw [times_concat, hnow] at hsorted
        exact (List.pairwise_append.mp hsorted).2.2 now' (inv.timed _ _ _ _ hother) time
          (List.mem_singleton.mpr rfl)

/-- **One step.** -/
theorem Inv.moves {es : List Event} {s t : State} {e : Event} (inv : Inv es s)
    (h : Moves s e t) : Inv (es ++ [e]) t := by
  have htimes : ∀ now ∈ times es, now ∈ times (es ++ [e]) := by
    intro now hnow
    rw [times_concat]
    exact List.mem_append_left _ hnow
  cases h with
  | insert u =>
      exact ⟨inv.runs, fun i hour phase hcall => (inv.sound i hour phase hcall).imp_left
          Phase.reads_append, inv.wrote, inv.table,
        fun hour seen rows now hcall => htimes now (inv.timed hour seen rows now hcall),
        Gauges.later e inv.gauges ⟨rfl, rfl⟩ fun _ _ => Iff.rfl⟩
  | start hour =>
      have hmem : ∀ call : Call, call.phase.result = some .success →
          (call ∈ s.calls ++ [⟨hour, .aggregating⟩] ↔ call ∈ s.calls) := by
        intro call hresult
        rw [List.mem_append]
        refine or_iff_left fun hlast => ?_
        rw [List.mem_singleton.mp hlast] at hresult
        cases hresult
      refine ⟨fun result => ?_, fun i hour' phase hcall => ?_, fun i => ?_, inv.table,
        fun hour' seen rows now hcall => htimes now
          (inv.timed hour' seen rows now ((hmem _ rfl).mp hcall)),
        Gauges.later e inv.gauges ⟨rfl, rfl⟩ hmem⟩
      · rw [List.countP_append, ← inv.runs]
        rfl
      · rcases getElem?_concat_eq_some.mp hcall with hcall | ⟨-, heq⟩
        · exact inv.sound i hour' phase hcall
        · obtain ⟨-, rfl⟩ := Call.mk.inj heq
          exact ⟨trivial, trivial⟩
      · rw [inv.wrote]
        rcases Nat.lt_trichotomy i s.calls.length with hlt | rfl | hgt
        · rw [List.getElem?_append_left hlt]
        · rw [List.getElem?_concat_length, List.getElem?_eq_none (Nat.le_refl _)]
          rfl
        · rw [List.getElem?_eq_none (by omega), List.getElem?_eq_none (by simp; omega)]
  | @move i hour now old phase more hcall hopen hwrote hreads hstops hnow hat =>
      obtain ⟨hi, -⟩ := List.getElem?_eq_some_iff.mp hcall
      refine ⟨runs_move phase hcall hopen inv.runs, fun j hour' phase' hj => ?_, fun j => ?_, ?_,
        fun hour' seen rows time hmem => ?_, gauges_move inv hcall hopen hnow hat⟩
      · by_cases hij : i = j
        · subst hij
          obtain ⟨rfl, rfl⟩ := Call.mk.inj
            (Option.some.inj ((List.getElem?_set_self hi).symm.trans hj))
          exact ⟨hreads, hstops⟩
        · exact inv.sound j hour' phase' ((List.getElem?_set_ne hij).symm.trans hj)
      · show entriesOf j (s.writes ++ _)
          = ((s.calls.set i ⟨hour, phase⟩)[j]?.map Call.wrote).getD []
        rw [entriesOf_append, entriesOf_map, inv.wrote]
        by_cases hij : i = j
        · subst hij
          rw [if_pos rfl, hcall, List.getElem?_set_self hi]
          show (old.wrote.map fun row => (hour, row)) ++ _ = phase.wrote.map fun row => (hour, row)
          rw [hwrote, List.map_append]
        · rw [if_neg hij, List.append_nil, List.getElem?_set_ne hij]
      · show List.foldl store s.rollups _ = List.foldl store ∅ (List.map Prod.snd (s.writes ++ _))
        rw [List.map_append, List.foldl_append, ← inv.table, List.map_map]
        exact congrArg _ (List.map_id _).symm
      · have hne : (⟨hour', .resolved seen rows time⟩ : Call) ≠ ⟨hour, old⟩ := by
          intro heq
          obtain ⟨-, rfl⟩ := Call.mk.inj heq
          cases hopen
        rcases (mem_set_of_ne hcall hne _).mp hmem with heq | hmem
        · obtain ⟨-, rfl⟩ := Call.mk.inj heq
          obtain rfl : time = now := hat
          rw [times_concat, hnow]
          exact List.mem_append_right _ (List.mem_singleton.mpr rfl)
        · exact htimes time (inv.timed hour' seen rows time hmem)

theorem counted {es : List Event} {s : State} (h : run step initial es = some s) : Inv es s :=
  run_induction step (P := Inv) inv_initial (fun _ _ _ _ _ inv hstep =>
    inv.moves (step_moves (fun i hour phase hcall => (inv.sound i hour phase hcall).1) hstep))
    es s h

/-- A record of one agent or another. -/
def usageOf (agentId : JsString) (createdAt : ℤ) : UsageRecord :=
  ⟨js "sess-001", agentId, 5, 2, 17, 68, none, 1, createdAt⟩

/-- Two runs at once, of which the second fails at its second row, and one without any rows. -/
def twoRuns : List Event :=
  [ .insert (usageOf (js "agent-a") 3900000), .run 4200000,
    .aggregated 0 (some [aggregateOf (js "agent-a") [usageOf (js "agent-a") 3900000]]) 4200001,
    .insert (usageOf (js "agent-b") 4300000), .run 4400000,
    .aggregated 1 (some [aggregateOf (js "agent-b") [usageOf (js "agent-b") 4300000],
      aggregateOf (js "agent-a") [usageOf (js "agent-a") 3900000]]) 4400001,
    .upserted 1 false 4400002, .upserted 0 false 4400003, .upserted 1 true 4400004,
    .run 7300000, .aggregated 2 (some []) 7300001 ]

/-- **The metrics tell how the runs ended.**  However runs overlap, each result is counted once for
each run that has ended so, and no run is counted before.  The gauges are the time, in seconds, and
the number of rows of one and the same run that succeeded, the latest one if the clock never goes
back; as long as none has, they are zero. -/
theorem rollup_runs_counted {es : List Event} {s : State} (h : run step initial es = some s) :
    (∀ result, s.metrics.runs result
        = s.calls.countP fun call => decide (call.phase.result = some result))
      ∧ (((∀ call ∈ s.calls, call.phase.result ≠ some .success)
          ∧ s.metrics.lastSuccess = 0 ∧ s.metrics.lastBuckets = 0)
        ∨ ∃ hour seen rows now, ⟨hour, .resolved seen rows now⟩ ∈ s.calls
          ∧ s.metrics.lastSuccess = now / 1000 ∧ s.metrics.lastBuckets = rows.length
          ∧ ((times es).Pairwise (· ≤ ·) → ∀ hour' seen' rows' now',
            ⟨hour', .resolved seen' rows' now'⟩ ∈ s.calls → now' ≤ now)) :=
  ⟨(counted h).runs, (counted h).gauges⟩

theorem rollup_runs_counted_twoRuns : ∃ s, run step initial twoRuns = some s
    ∧ (∀ result, s.metrics.runs result
        = s.calls.countP fun call => decide (call.phase.result = some result))
    ∧ (((∀ call ∈ s.calls, call.phase.result ≠ some .success)
        ∧ s.metrics.lastSuccess = 0 ∧ s.metrics.lastBuckets = 0)
      ∨ ∃ hour seen rows now, ⟨hour, .resolved seen rows now⟩ ∈ s.calls
        ∧ s.metrics.lastSuccess = now / 1000 ∧ s.metrics.lastBuckets = rows.length
        ∧ ((times twoRuns).Pairwise (· ≤ ·) → ∀ hour' seen' rows' now',
          ⟨hour', .resolved seen' rows' now'⟩ ∈ s.calls → now' ≤ now)) := by
  obtain ⟨s, hs⟩ := Option.isSome_iff_exists.mp
    (by decide +kernel : (run step initial twoRuns).isSome = true)
  exact ⟨s, hs, rollup_runs_counted hs⟩

/-- **What an ended run has written.**  The table is what the upserts of all runs made of it.  A run
that succeeded has written a row for each agent with a record in its hour, as its query counted
them; a run that failed has written a proper part of such rows, from the first one on. -/
theorem ended_runs_wrote {es : List Event} {s : State} (h : run step initial es = some s) :
    s.rollups = (s.writes.map Prod.snd).foldl store ∅
      ∧ (∀ (i : ℕ) hour seen rows now, s.calls[i]? = some ⟨hour, .resolved seen rows now⟩ →
        entriesOf i s.writes = rows.map (fun row => (hour, row))
          ∧ seen ≤ s.usage.length ∧ rows.Perm (aggregates (s.usage.take seen) hour))
      ∧ ∀ (i : ℕ) hour seen rows written now,
        s.calls[i]? = some ⟨hour, .rejected seen rows written now⟩ →
        entriesOf i s.writes = (rows.take written).map (fun row => (hour, row))
          ∧ (rows = [] ∨ written < rows.length ∧ seen ≤ s.usage.length
            ∧ rows.Perm (aggregates (s.usage.take seen) hour)) := by
  have inv := counted h
  refine ⟨inv.table, fun i hour seen rows now hcall => ?_,
    fun i hour seen rows written now hcall => ?_⟩
  · obtain ⟨⟨hseen, hrows⟩, -⟩ := inv.sound i hour _ hcall
    refine ⟨?_, hseen, hrows⟩
    rw [inv.wrote, hcall]
    rfl
  · obtain ⟨⟨hseen, hrows⟩, hstops⟩ := inv.sound i hour _ hcall
    refine ⟨?_, ?_⟩
    · rw [inv.wrote, hcall]
      rfl
    · rcases hstops with hnil | hwritten
      · exact .inl hnil
      · exact hrows.imp_right fun hrows => ⟨hwritten, hseen, hrows⟩

theorem ended_runs_wrote_twoRuns : ∃ s, run step initial twoRuns = some s
    ∧ s.rollups = (s.writes.map Prod.snd).foldl store ∅
    ∧ (∀ (i : ℕ) hour seen rows now, s.calls[i]? = some ⟨hour, .resolved seen rows now⟩ →
      entriesOf i s.writes = rows.map (fun row => (hour, row))
        ∧ seen ≤ s.usage.length ∧ rows.Perm (aggregates (s.usage.take seen) hour))
    ∧ ∀ (i : ℕ) hour seen rows written now,
      s.calls[i]? = some ⟨hour, .rejected seen rows written now⟩ →
      entriesOf i s.writes = (rows.take written).map (fun row => (hour, row))
        ∧ (rows = [] ∨ written < rows.length ∧ seen ≤ s.usage.length
          ∧ rows.Perm (aggregates (s.usage.take seen) hour)) := by
  obtain ⟨s, hs⟩ := Option.isSome_iff_exists.mp
    (by decide +kernel : (run step initial twoRuns).isSome = true)
  exact ⟨s, hs, ended_runs_wrote hs⟩

end A2aAgentLayer.Observability.RollupMetrics
