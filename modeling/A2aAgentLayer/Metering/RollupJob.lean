import Mathlib.Algebra.BigOperators.Group.List.Basic
import Mathlib.Algebra.Ring.Int.Defs
import Mathlib.Data.List.Dedup
import A2aAgentLayer.Lib.KeyedStore
import A2aAgentLayer.Metering.MeteringService

/-!
# The hourly usage rollup

`runHourlyRollup` aggregates the usage records of the hour of its reference date, one row for each
agent, and upserts the rows one after another.  The table of rollups is keyed by agent and hour, as
its unique constraint says.

The database may refuse one statement of a run: statement `0` is the aggregate query and statement
`i + 1` the `i`-th upsert.  An upsert also fails when a value does not fit its column.
-/

namespace A2aAgentLayer.Metering.RollupJob

open A2aAgentLayer.Lib.Utf16 A2aAgentLayer.Lib.KeyedStore
open A2aAgentLayer.Metering.MeteringService

/-- The columns of a row of `usage_rollups` apart from its key. -/
structure UsageRollup where
  requestCount : ℤ
  tokensUsed : ℤ
  bytesIn : ℤ
  bytesOut : ℤ
  cpuMs : ℤ
  deriving DecidableEq

/-- `usage_rollups`, by `agentId` and `hourBucket`. -/
abbrev Rollups := Store (JsString × ℤ) UsageRollup

/-! ### Hours -/

def hourMs : ℤ := 3600000

/-- `setUTCMinutes(0, 0, 0)`. -/
def truncateToHour (date : ℤ) : ℤ := date - date % hourMs

/-- The window of the aggregate query. -/
def inHour (hourBucket : ℤ) (u : UsageRecord) : Bool :=
  decide (hourBucket ≤ u.createdAt ∧ u.createdAt < hourBucket + hourMs)

theorem lt_truncateToHour_add (date : ℤ) : date < truncateToHour date + hourMs := by
  rw [truncateToHour, hourMs]
  omega

/-- A record lies in an hour when that hour is the one its creation falls into. -/
theorem inHour_iff {hour : ℤ} (hhour : truncateToHour hour = hour) (u : UsageRecord) :
    inHour hour u = true ↔ truncateToHour u.createdAt = hour := by
  rw [inHour, decide_eq_true_eq]
  simp only [truncateToHour, hourMs] at hhour ⊢
  omega

theorem truncateToHour_idem (date : ℤ) :
    truncateToHour (truncateToHour date) = truncateToHour date := by
  simp only [truncateToHour, hourMs]
  omega

/-! ### Aggregates -/

/-- A row of the aggregate query. -/
structure AggregateRow where
  agentId : JsString
  requestCount : ℤ
  tokensUsed : ℤ
  bytesIn : ℤ
  bytesOut : ℤ
  cpuMs : ℤ
  deriving DecidableEq

/-- The group of one agent. -/
def aggregateOf (agentId : JsString) (group : List UsageRecord) : AggregateRow where
  agentId := agentId
  requestCount := group.length
  tokensUsed := (group.map (·.tokensUsed)).sum
  bytesIn := (group.map (·.bytesIn)).sum
  bytesOut := (group.map (·.bytesOut)).sum
  cpuMs := (group.map (·.cpuMs)).sum

/-- The records of one agent in one hour. -/
def agentHour (usage : List UsageRecord) (agentId : JsString) (hourBucket : ℤ) :
    List UsageRecord :=
  (usage.filter (inHour hourBucket)).filter (·.agentId = agentId)

/-- The aggregate query, grouped by agent. -/
def aggregates (usage : List UsageRecord) (hourBucket : ℤ) : List AggregateRow :=
  ((usage.filter (inHour hourBucket)).map (·.agentId)).dedup.map fun agentId =>
    aggregateOf agentId (agentHour usage agentId hourBucket)

/-- The column values of an upsert. -/
def columns (row : AggregateRow) : UsageRollup where
  requestCount := row.requestCount
  tokensUsed := row.tokensUsed
  bytesIn := row.bytesIn
  bytesOut := row.bytesOut
  cpuMs := row.cpuMs

/-- The count and the sums of a list of records. -/
def totals (records : List UsageRecord) : UsageRollup := columns (aggregateOf [] records)

/-- The columns of a rollup row that are counted or summed. -/
inductive Column where
  | requestCount
  | tokensUsed
  | bytesIn
  | bytesOut
  | cpuMs
  deriving DecidableEq

def UsageRollup.value (row : UsageRollup) : Column → ℤ
  | .requestCount => row.requestCount
  | .tokensUsed => row.tokensUsed
  | .bytesIn => row.bytesIn
  | .bytesOut => row.bytesOut
  | .cpuMs => row.cpuMs

/-- What one record adds to a column. -/
def weight (u : UsageRecord) : Column → ℤ
  | .requestCount => 1
  | .tokensUsed => u.tokensUsed
  | .bytesIn => u.bytesIn
  | .bytesOut => u.bytesOut
  | .cpuMs => u.cpuMs

theorem UsageRollup.ext_value {a b : UsageRollup} (h : ∀ c, a.value c = b.value c) : a = b := by
  cases a
  cases b
  rw [UsageRollup.mk.injEq]
  exact ⟨h .requestCount, h .tokensUsed, h .bytesIn, h .bytesOut, h .cpuMs⟩

/-- Every column of the totals is a sum over the records. -/
theorem totals_value (records : List UsageRecord) (c : Column) :
    (totals records).value c = (records.map fun u => weight u c).sum := by
  cases c with
  | requestCount =>
      show (records.length : ℤ) = (records.map fun _ => (1 : ℤ)).sum
      rw [List.map_const', List.sum_replicate, nsmul_eq_mul, mul_one]
  | tokensUsed => rfl
  | bytesIn => rfl
  | bytesOut => rfl
  | cpuMs => rfl

theorem totals_append_value (records more : List UsageRecord) (c : Column) :
    (totals (records ++ more)).value c = (totals records).value c + (totals more).value c := by
  simp only [totals_value, List.map_append, List.sum_append]

theorem mem_agentHour {usage : List UsageRecord} {agentId : JsString} {hour : ℤ}
    {u : UsageRecord} :
    u ∈ agentHour usage agentId hour ↔ u ∈ usage ∧ inHour hour u = true ∧ u.agentId = agentId := by
  rw [agentHour, List.mem_filter, List.mem_filter, decide_eq_true_eq, and_assoc]

theorem agentHour_append (usage more : List UsageRecord) (agentId : JsString) (hour : ℤ) :
    agentHour (usage ++ more) agentId hour
      = agentHour usage agentId hour ++ agentHour more agentId hour := by
  rw [agentHour, List.filter_append, List.filter_append, ← agentHour, ← agentHour]

theorem mem_agents_iff {usage : List UsageRecord} {agentId : JsString} {hour : ℤ} :
    agentId ∈ ((usage.filter (inHour hour)).map (·.agentId)).dedup
      ↔ agentHour usage agentId hour ≠ [] := by
  rw [List.mem_dedup, List.mem_map, ne_eq, List.eq_nil_iff_forall_not_mem]
  simp only [mem_agentHour, List.mem_filter]
  constructor
  · rintro ⟨u, ⟨hu, hin⟩, rfl⟩ hall
    exact hall u ⟨hu, hin, rfl⟩
  · intro h
    obtain ⟨u, hu⟩ := not_forall_not.mp h
    exact ⟨u, ⟨hu.1, hu.2.1⟩, hu.2.2⟩

/-! ### Upserts -/

def int4 (n : ℤ) : Bool := decide (-2147483648 ≤ n ∧ n ≤ 2147483647)

def int8 (n : ℤ) : Bool := decide (-9223372036854775808 ≤ n ∧ n ≤ 9223372036854775807)

/-- Every value fits its column.  `Number` is exact on what an `int` column can hold and leaves
larger counts out of range, so the check may be made on the exact values. -/
def fitsColumns (row : UsageRollup) : Bool :=
  int4 row.requestCount && int8 row.tokensUsed && int8 row.bytesIn && int8 row.bytesOut
    && int4 row.cpuMs

/-- The loop over the aggregates: the table it leaves and whether it reached its end. -/
def upsertRows (hourBucket : ℤ) : Option ℕ → List AggregateRow → Rollups → Rollups × Bool
  | _, [], rollups => (rollups, true)
  | fault, row :: rest, rollups =>
      if fault = some 0 ∨ fitsColumns (columns row) = false then (rollups, false)
      else upsertRows hourBucket (fault.map Nat.pred) rest
        (rollups.insert (row.agentId, hourBucket) (columns row))

/-- A loop that reaches its end has written every row. -/
theorem upsertRows_eq_insertAll {hourBucket : ℤ} {fault : Option ℕ} {rows : List AggregateRow}
    {rollups written : Rollups} (h : upsertRows hourBucket fault rows rollups = (written, true)) :
    written = insertAll rollups
      (rows.map fun row => ((row.agentId, hourBucket), columns row)) := by
  induction rows generalizing fault rollups with
  | nil => exact (congrArg Prod.fst h).symm
  | cons row rest ih =>
      rw [upsertRows] at h
      split_ifs at h with hbad
      · cases h
      · exact ih h

/-- How a run ends, as `recordRollupRun` counts it. -/
inductive RollupRun where
  | success (buckets : ℕ)
  | failure
  deriving DecidableEq

def runHourlyRollup (fault : Option ℕ) (usage : List UsageRecord) (rollups : Rollups)
    (referenceDate : ℤ) : Rollups × RollupRun :=
  let hourBucket := truncateToHour referenceDate
  if fault = some 0 then (rollups, .failure)
  else
    let rows := aggregates usage hourBucket
    if rows.length = 0 then (rollups, .success 0)
    else
      let (written, finished) := upsertRows hourBucket (fault.map Nat.pred) rows rollups
      if finished then (written, .success rows.length) else (written, .failure)

/-- A run over the rows the aggregate query returns. -/
def rollup (fault : Option ℕ) (rows : List AggregateRow) (rollups : Rollups) (hourBucket : ℤ) :
    Rollups × RollupRun :=
  if fault = some 0 then (rollups, .failure)
  else if rows.length = 0 then (rollups, .success 0)
  else
    let (written, finished) := upsertRows hourBucket (fault.map Nat.pred) rows rollups
    if finished then (written, .success rows.length) else (written, .failure)

theorem runHourlyRollup_eq (fault : Option ℕ) (usage : List UsageRecord) (rollups : Rollups)
    (referenceDate : ℤ) :
    runHourlyRollup fault usage rollups referenceDate
      = rollup fault (aggregates usage (truncateToHour referenceDate)) rollups
        (truncateToHour referenceDate) := rfl

theorem rollup_eq_insertAll {fault : Option ℕ} {rows : List AggregateRow}
    {rollups written : Rollups} {hour : ℤ} {buckets : ℕ}
    (h : rollup fault rows rollups hour = (written, .success buckets)) :
    written = insertAll rollups (rows.map fun row => ((row.agentId, hour), columns row)) := by
  simp only [rollup] at h
  split_ifs at h with hfault hempty hfinished
  · cases h
  · rw [List.length_eq_zero_iff.mp hempty]
    exact (congrArg Prod.fst h).symm
  · have htable := congrArg Prod.fst h
    have hloop : upsertRows hour (fault.map Nat.pred) rows rollups = (written, true) :=
      Prod.ext htable hfinished
    exact upsertRows_eq_insertAll hloop
  · cases h

/-- The rows of the aggregate query, in whatever order they come. -/
theorem mem_of_perm_aggregates {usage : List UsageRecord} {hour : ℤ} {rows : List AggregateRow}
    (hrows : rows.Perm (aggregates usage hour)) {row : AggregateRow} :
    row ∈ rows ↔ ∃ agentId, agentHour usage agentId hour ≠ []
      ∧ aggregateOf agentId (agentHour usage agentId hour) = row := by
  simp only [hrows.mem_iff, aggregates, List.mem_map, mem_agents_iff]

theorem nodup_agents_of_perm {usage : List UsageRecord} {hour : ℤ} {rows : List AggregateRow}
    (hrows : rows.Perm (aggregates usage hour)) : (rows.map (·.agentId)).Nodup := by
  rw [(hrows.map _).nodup_iff, aggregates, List.map_map]
  show (((usage.filter (inHour hour)).map (·.agentId)).dedup.map fun agentId => agentId).Nodup
  rw [List.map_id']
  exact List.nodup_dedup _

/-- **A successful run writes exactly the rows of its own hour**, one for each agent with a record
in it, and each holds the totals over all records of that agent and hour. -/
theorem lookup_rollup {fault : Option ℕ} {usage : List UsageRecord} {rows : List AggregateRow}
    {rollups written : Rollups} {hour : ℤ} {buckets : ℕ}
    (hrows : rows.Perm (aggregates usage hour))
    (h : rollup fault rows rollups hour = (written, .success buckets))
    (agentId : JsString) (hour' : ℤ) :
    written.lookup (agentId, hour') =
      if hour' = hour ∧ agentHour usage agentId hour' ≠ [] then
        some (totals (agentHour usage agentId hour'))
      else rollups.lookup (agentId, hour') := by
  have hkeys : ((rows.map fun row => ((row.agentId, hour), columns row)).map Prod.fst)
      = (rows.map (·.agentId)).map fun agentId => (agentId, hour) := by
    rw [List.map_map, List.map_map]
    rfl
  rw [rollup_eq_insertAll h]
  split_ifs with hrow
  · obtain ⟨rfl, hrow⟩ := hrow
    refine lookup_insertAll_of_mem _ _ ?_ ?_
    · rw [hkeys]
      exact (nodup_agents_of_perm hrows).map fun a b hab => congrArg Prod.fst hab
    · exact List.mem_map_of_mem ((mem_of_perm_aggregates hrows).mpr ⟨agentId, hrow, rfl⟩)
  · refine lookup_insertAll_of_notMem _ _ ?_
    rw [hkeys, List.mem_map]
    rintro ⟨a, ha, hpair⟩
    obtain ⟨rfl, rfl⟩ := Prod.mk.injEq _ _ _ _ ▸ hpair
    obtain ⟨row, hmem, rfl⟩ := List.mem_map.mp ha
    obtain ⟨b, hb, rfl⟩ := (mem_of_perm_aggregates hrows).mp hmem
    exact hrow ⟨rfl, hb⟩

theorem lookup_runHourlyRollup {fault : Option ℕ} {usage : List UsageRecord}
    {rollups written : Rollups} {referenceDate : ℤ} {buckets : ℕ}
    (h : runHourlyRollup fault usage rollups referenceDate = (written, .success buckets))
    (agentId : JsString) (hour : ℤ) :
    written.lookup (agentId, hour) =
      if hour = truncateToHour referenceDate ∧ agentHour usage agentId hour ≠ [] then
        some (totals (agentHour usage agentId hour))
      else rollups.lookup (agentId, hour) :=
  lookup_rollup (.refl _) h agentId hour

/-- Rows that hold the totals of their agents. -/
def Aggregated (usage : List UsageRecord) (hour : ℤ) (rows : List AggregateRow) : Prop :=
  ∀ row ∈ rows, ∃ agentId, agentHour usage agentId hour ≠ []
    ∧ aggregateOf agentId (agentHour usage agentId hour) = row

/-- However far the loop gets, a row is as it was or holds the totals of its agent. -/
theorem lookup_upsertRows_cases {usage : List UsageRecord} {hour : ℤ} {fault : Option ℕ}
    {rows : List AggregateRow} {rollups : Rollups} (hrows : Aggregated usage hour rows)
    (agentId : JsString) (hour' : ℤ) :
    (upsertRows hour fault rows rollups).1.lookup (agentId, hour')
        = rollups.lookup (agentId, hour')
      ∨ hour' = hour ∧ agentHour usage agentId hour ≠ []
        ∧ (upsertRows hour fault rows rollups).1.lookup (agentId, hour')
          = some (totals (agentHour usage agentId hour)) := by
  induction rows generalizing fault rollups with
  | nil => exact .inl rfl
  | cons row rest ih =>
      rw [upsertRows]
      split_ifs with hbad
      · exact .inl rfl
      · have hrest : Aggregated usage hour rest := fun r hr => hrows r (List.mem_cons_of_mem _ hr)
        rcases @ih (fault.map Nat.pred) (rollups.insert (row.agentId, hour) (columns row)) hrest
          with hkept | hwritten
        · obtain ⟨a, ha, rfl⟩ := hrows row (List.mem_cons_self ..)
          by_cases hkey : (agentId, hour') = (a, hour)
          · obtain ⟨rfl, rfl⟩ := Prod.mk.injEq _ _ _ _ ▸ hkey
            exact .inr ⟨rfl, ha, hkept.trans (lookup_insert_self ..)⟩
          · exact .inl (hkept.trans (lookup_insert_of_ne _ _ hkey))
        · exact .inr hwritten

/-- **Whatever a run does before it fails:** a row is as it was, or it is of the run's hour and
holds the totals the query gave. -/
theorem lookup_rollup_cases (fault : Option ℕ) {usage : List UsageRecord}
    {rows : List AggregateRow} (rollups : Rollups) {hour : ℤ}
    (hrows : rows.Perm (aggregates usage hour)) (agentId : JsString) (hour' : ℤ) :
    (rollup fault rows rollups hour).1.lookup (agentId, hour') = rollups.lookup (agentId, hour')
      ∨ hour' = hour ∧ agentHour usage agentId hour ≠ []
        ∧ (rollup fault rows rollups hour).1.lookup (agentId, hour')
          = some (totals (agentHour usage agentId hour)) := by
  have hmem : Aggregated usage hour rows := fun row => (mem_of_perm_aggregates hrows).mp
  simp only [rollup]
  split_ifs with hfault hempty hfinished
  · exact .inl rfl
  · exact .inl rfl
  · exact lookup_upsertRows_cases hmem agentId hour'
  · exact lookup_upsertRows_cases hmem agentId hour'

theorem upsertRows_finishes {hour : ℤ} {rows : List AggregateRow} {rollups : Rollups}
    (hfits : ∀ row ∈ rows, fitsColumns (columns row) = true) :
    (upsertRows hour none rows rollups).2 = true := by
  induction rows generalizing rollups with
  | nil => rfl
  | cons row rest ih =>
      rw [upsertRows, if_neg (by simp [hfits row (List.mem_cons_self ..)])]
      exact ih fun r hr => hfits r (List.mem_cons_of_mem _ hr)

theorem rollup_succeeds_of_rows {rows : List AggregateRow} (rollups : Rollups) {hour : ℤ}
    (hfits : ∀ row ∈ rows, fitsColumns (columns row) = true) :
    (rollup none rows rollups hour).2 = .success rows.length := by
  have hfinished : (upsertRows hour none rows rollups).2 = true := upsertRows_finishes hfits
  simp only [rollup, reduceCtorEq, if_false, Option.map_none]
  split_ifs with hempty
  · rw [hempty]
  · rfl

/-- A run whose statements the database accepts succeeds. -/
theorem rollup_succeeds {usage : List UsageRecord} {rows : List AggregateRow} (rollups : Rollups)
    {hour : ℤ} (hrows : rows.Perm (aggregates usage hour))
    (hfits : ∀ agentId, fitsColumns (totals (agentHour usage agentId hour)) = true) :
    (rollup none rows rollups hour).2 = .success rows.length := by
  refine rollup_succeeds_of_rows rollups fun row hrow => ?_
  obtain ⟨a, -, rfl⟩ := (mem_of_perm_aggregates hrows).mp hrow
  exact hfits a

end A2aAgentLayer.Metering.RollupJob
