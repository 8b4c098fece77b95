import Mathlib.Algebra.Order.BigOperators.Group.List
import A2aAgentLayer.Lib.WholeDouble
import A2aAgentLayer.Metering.RollupJob

/-!
# What fits into the columns of a rollup

The way of an hour's aggregates into `usage_rollups`, with its number formats.  The query answers
with texts; `requestCount` and `cpuMs` go through `Number()` into `int` columns, the other three go
as texts into `bigint` columns.  PostgreSQL sums `int` values to a `bigint` and `bigint` values to a
`numeric`, and refuses a value its column cannot hold.

The upsert loop is the one of `RollupJob`: checking the exact values and checking what `Number()`
makes of them comes to the same.
-/

namespace A2aAgentLayer.Metering.RollupBounds

open A2aAgentLayer.Lib.Utf16 A2aAgentLayer.Lib.KeyedStore A2aAgentLayer.Lib.WholeDouble
open A2aAgentLayer.Metering.MeteringService A2aAgentLayer.Metering.RollupJob

/-! ### The run with its number formats -/

/-- Assignment of a number to an `int` column. -/
def assignInt : Double → Option ℤ
  | .whole n => if int4 n = true then some n else none
  | .infinity _ => none

/-- Assignment of a whole number's text to a `bigint` column. -/
def assignBigint (n : ℤ) : Option ℤ := if int8 n = true then some n else none

/-- The row one upsert stores; `none` when a column refuses its value. -/
def storedRow (row : AggregateRow) : Option UsageRollup := do
  let requestCount ← assignInt (number row.requestCount)
  let tokensUsed ← assignBigint row.tokensUsed
  let bytesIn ← assignBigint row.bytesIn
  let bytesOut ← assignBigint row.bytesOut
  let cpuMs ← assignInt (number row.cpuMs)
  return ⟨requestCount, tokensUsed, bytesIn, bytesOut, cpuMs⟩

/-- The loop: the table it leaves and whether it reached its end. -/
def upserts (hourBucket : ℤ) : List AggregateRow → Rollups → Rollups × Bool
  | [], rollups => (rollups, true)
  | row :: rest, rollups =>
      match storedRow row with
      | none => (rollups, false)
      | some stored => upserts hourBucket rest (rollups.insert (row.agentId, hourBucket) stored)

/-- `SUM` over an `int` column is a `bigint`. -/
def sumsFit (row : AggregateRow) : Bool := int8 row.tokensUsed && int8 row.cpuMs

/-- What the aggregate query answers: its rows in some order, or the error of a `SUM` that leaves
`bigint`. -/
def Answers (usage : List UsageRecord) (hour : ℤ) : Option (List AggregateRow) → Prop
  | some rows => rows.Perm (aggregates usage hour) ∧ ∀ row ∈ rows, sumsFit row = true
  | none => ∃ row ∈ aggregates usage hour, sumsFit row = false

/-- A run to which the database answers as it should. -/
def hourlyRollup (answer : Option (List AggregateRow)) (rollups : Rollups) (hourBucket : ℤ) :
    Rollups × RollupRun :=
  match answer with
  | none => (rollups, .failure)
  | some rows =>
      if rows.length = 0 then (rollups, .success 0)
      else
        let (written, finished) := upserts hourBucket rows rollups
        if finished then (written, .success rows.length) else (written, .failure)

/-! ### `Number()` and the columns -/

theorem int4_iff (n : ℤ) : int4 n = true ↔ -2147483648 ≤ n ∧ n ≤ 2147483647 := by
  rw [int4, decide_eq_true_eq]

theorem int8_iff (n : ℤ) :
    int8 n = true ↔ -9223372036854775808 ≤ n ∧ n ≤ 9223372036854775807 := by
  rw [int8, decide_eq_true_eq]

/-- What an `int` column can hold goes through `Number()` unchanged. -/
theorem number_of_int4 {n : ℤ} (h : int4 n = true) : number n = .whole n := by
  rw [int4_iff] at h
  apply number_of_lt
  omega

/-- Rounding never brings a number back into the range of `int`. -/
theorem assignInt_number (n : ℤ) :
    assignInt (number n) = if int4 n = true then some n else none := by
  by_cases hsmall : n.natAbs < 9007199254740992
  · rw [number_of_lt hsmall]
    rfl
  · have hout : ¬ int4 n = true := by
      rw [int4_iff]
      omega
    rw [if_neg hout]
    cases hnumber : number n with
    | whole m =>
        have hm := le_natAbs_of_number (by omega) hnumber
        have hm' : ¬ int4 m = true := by
          rw [int4_iff]
          omega
        exact if_neg hm'
    | infinity negative => rfl

theorem storedRow_eq (row : AggregateRow) :
    storedRow row = if fitsColumns (columns row) = true then some (columns row) else none := by
  simp only [storedRow, assignInt_number, assignBigint, fitsColumns, columns, Bool.and_eq_true]
  by_cases hrequestCount : int4 row.requestCount = true
  · by_cases htokensUsed : int8 row.tokensUsed = true
    · by_cases hbytesIn : int8 row.bytesIn = true
      · by_cases hbytesOut : int8 row.bytesOut = true
        · by_cases hcpuMs : int4 row.cpuMs = true
          · simp [hrequestCount, htokensUsed, hbytesIn, hbytesOut, hcpuMs]
          · simp [hrequestCount, htokensUsed, hbytesIn, hbytesOut, hcpuMs]
        · simp [hrequestCount, htokensUsed, hbytesIn, hbytesOut]
      · simp [hrequestCount, htokensUsed, hbytesIn]
    · simp [hrequestCount, htokensUsed]
  · simp [hrequestCount]

theorem upserts_cons (hour : ℤ) (row : AggregateRow) (rest : List AggregateRow)
    (rollups : Rollups) :
    upserts hour (row :: rest) rollups =
      if fitsColumns (columns row) = true then
        upserts hour rest (rollups.insert (row.agentId, hour) (columns row))
      else (rollups, false) := by
  rw [upserts, storedRow_eq]
  split_ifs
  · rfl
  · rfl

/-- **The loop with its conversions is the loop on the exact values.** -/
theorem upserts_eq (hour : ℤ) (rows : List AggregateRow) (rollups : Rollups) :
    upserts hour rows rollups = upsertRows hour none rows rollups := by
  induction rows generalizing rollups with
  | nil => rfl
  | cons row rest ih =>
      rw [upserts_cons, upsertRows, ih, Option.map_none]
      by_cases hfits : fitsColumns (columns row) = true
      · rw [if_pos hfits, if_neg (by simp [hfits])]
      · rw [if_neg hfits, if_pos (by simp [hfits])]

theorem hourlyRollup_some (rows : List AggregateRow) (rollups : Rollups) (hour : ℤ) :
    hourlyRollup (some rows) rollups hour = rollup none rows rollups hour := by
  simp only [hourlyRollup, rollup, upserts_eq, reduceCtorEq, if_false, Option.map_none]

/-- **The loop writes the rows before the first that does not fit, and no other.** -/
theorem upserts_eq_takeWhile (hour : ℤ) (rows : List AggregateRow) (rollups : Rollups) :
    (upserts hour rows rollups).1 = insertAll rollups
      ((rows.takeWhile (fitsColumns ∘ columns)).map fun row =>
        ((row.agentId, hour), columns row)) := by
  induction rows generalizing rollups with
  | nil => rfl
  | cons row rest ih =>
      rw [upserts_cons]
      by_cases hfits : fitsColumns (columns row) = true
      · rw [if_pos hfits, ih, List.takeWhile_cons_of_pos (by exact hfits)]
        rfl
      · rw [if_neg hfits, List.takeWhile_cons_of_neg (by exact hfits)]
        rfl

/-! ### Admissible usage -/

/-- Records whose columns hold what PostgreSQL's types hold. -/
def ValidColumns (usage : List UsageRecord) : Prop :=
  ∀ u ∈ usage, int4 u.tokensUsed = true ∧ int4 u.cpuMs = true ∧ int8 u.bytesIn = true
    ∧ int8 u.bytesOut = true

instance (usage : List UsageRecord) : Decidable (ValidColumns usage) :=
  inferInstanceAs (Decidable (∀ u ∈ usage, _))

/-- Every aggregate fits its column, and `Number()` keeps the two it is applied to. -/
structure RowFits (row : AggregateRow) : Prop where
  requestCount : int4 row.requestCount = true
  requestCount_exact : number row.requestCount = .whole row.requestCount
  tokensUsed : int8 row.tokensUsed = true
  bytesIn : int8 row.bytesIn = true
  bytesOut : int8 row.bytesOut = true
  cpuMs : int4 row.cpuMs = true
  cpuMs_exact : number row.cpuMs = .whole row.cpuMs

/-- Whatever the table holds and in whichever order the rows come, the run writes the row of every
agent that has records in the hour. -/
def WritesEveryAgent (usage : List UsageRecord) (hour : ℤ) : Prop :=
  ∀ answer, Answers usage hour answer → ∀ (rollups : Rollups) (agentId : JsString),
    agentHour usage agentId hour ≠ [] →
      (hourlyRollup answer rollups hour).1.lookup (agentId, hour)
        = some (totals (agentHour usage agentId hour))

/-- No figure breaks the rollup of the hour. -/
def Unbreakable (usage : List UsageRecord) (referenceDate : ℤ) : Prop :=
  (∀ row ∈ aggregates usage (truncateToHour referenceDate), RowFits row)
    ∧ WritesEveryAgent usage (truncateToHour referenceDate)

/-- The limits on the records of one agent and hour. -/
@[mk_iff] structure WithinLimits (records : List UsageRecord) : Prop where
  count : records.length ≤ 2147483647
  cpuMs_low : -2147483648 ≤ (records.map (·.cpuMs)).sum
  cpuMs_high : (records.map (·.cpuMs)).sum ≤ 2147483647
  bytesIn_low : -9223372036854775808 ≤ (records.map (·.bytesIn)).sum
  bytesIn_high : (records.map (·.bytesIn)).sum ≤ 9223372036854775807
  bytesOut_low : -9223372036854775808 ≤ (records.map (·.bytesOut)).sum
  bytesOut_high : (records.map (·.bytesOut)).sum ≤ 9223372036854775807

instance (records : List UsageRecord) : Decidable (WithinLimits records) :=
  decidable_of_iff' _ (withinLimits_iff records)

theorem withinLimits_nil : WithinLimits [] := by decide

/-- A sum of values of the type `int`. -/
theorem sum_int4 {values : List ℤ} (h : ∀ n ∈ values, int4 n = true) :
    -2147483648 * (values.length : ℤ) ≤ values.sum
      ∧ values.sum ≤ 2147483647 * (values.length : ℤ) := by
  have hlow : ∀ n ∈ values, (-2147483648 : ℤ) ≤ n := fun n hn => ((int4_iff n).mp (h n hn)).1
  have hhigh : ∀ n ∈ values, n ≤ (2147483647 : ℤ) := fun n hn => ((int4_iff n).mp (h n hn)).2
  have hmin := List.card_nsmul_le_sum values _ hlow
  have hmax := List.sum_le_card_nsmul values _ hhigh
  rw [nsmul_eq_mul] at hmin hmax
  omega

/-- As many `int` values as a count can name never overflow a `bigint`. -/
theorem tokensUsed_fits {records : List UsageRecord} (hvalid : ValidColumns records)
    (hcount : records.length ≤ 2147483647) :
    int8 (records.map (·.tokensUsed)).sum = true := by
  have hint : ∀ n ∈ records.map (·.tokensUsed), int4 n = true := by
    intro n hn
    obtain ⟨u, hu, rfl⟩ := List.mem_map.mp hn
    exact (hvalid u hu).1
  have hsum := sum_int4 hint
  rw [List.length_map] at hsum
  rw [int8_iff]
  omega

theorem rowFits_iff {agentId : JsString} {records : List UsageRecord}
    (hvalid : ValidColumns records) :
    RowFits (aggregateOf agentId records) ↔ WithinLimits records := by
  constructor
  · intro h
    have hcount := (int4_iff _).mp h.requestCount
    have hcpuMs := (int4_iff _).mp h.cpuMs
    have hbytesIn := (int8_iff _).mp h.bytesIn
    have hbytesOut := (int8_iff _).mp h.bytesOut
    simp only [aggregateOf] at hcount hcpuMs hbytesIn hbytesOut
    exact ⟨by omega, hcpuMs.1, hcpuMs.2, hbytesIn.1, hbytesIn.2, hbytesOut.1, hbytesOut.2⟩
  · intro h
    have hcount : int4 (records.length : ℤ) = true := by
      have hlength := h.count
      rw [int4_iff]
      omega
    have hcpuMs : int4 (records.map (·.cpuMs)).sum = true :=
      (int4_iff _).mpr ⟨h.cpuMs_low, h.cpuMs_high⟩
    exact {
      requestCount := hcount
      requestCount_exact := number_of_int4 hcount
      tokensUsed := tokensUsed_fits hvalid h.count
      bytesIn := (int8_iff _).mpr ⟨h.bytesIn_low, h.bytesIn_high⟩
      bytesOut := (int8_iff _).mpr ⟨h.bytesOut_low, h.bytesOut_high⟩
      cpuMs := hcpuMs
      cpuMs_exact := number_of_int4 hcpuMs }

theorem rowFits_iff_fitsColumns (row : AggregateRow) :
    RowFits row ↔ fitsColumns (columns row) = true := by
  simp only [fitsColumns, columns, Bool.and_eq_true]
  constructor
  · intro h
    exact ⟨⟨⟨⟨h.requestCount, h.tokensUsed⟩, h.bytesIn⟩, h.bytesOut⟩, h.cpuMs⟩
  · rintro ⟨⟨⟨⟨hrequestCount, htokensUsed⟩, hbytesIn⟩, hbytesOut⟩, hcpuMs⟩
    exact {
      requestCount := hrequestCount
      requestCount_exact := number_of_int4 hrequestCount
      tokensUsed := htokensUsed
      bytesIn := hbytesIn
      bytesOut := hbytesOut
      cpuMs := hcpuMs
      cpuMs_exact := number_of_int4 hcpuMs }

theorem sumsFit_of_rowFits {row : AggregateRow} (h : RowFits row) : sumsFit row = true := by
  have hcpuMs := (int4_iff _).mp h.cpuMs
  rw [sumsFit, h.tokensUsed, Bool.true_and, int8_iff]
  omega

/-- When every row fits, every agent's row is written. -/
theorem writesEveryAgent {usage : List UsageRecord} {hour : ℤ}
    (hfits : ∀ row ∈ aggregates usage hour, RowFits row) : WritesEveryAgent usage hour := by
  intro answer hanswer rollups agentId hrecords
  cases answer with
  | none =>
      obtain ⟨row, hrow, hsum⟩ := hanswer
      rw [sumsFit_of_rowFits (hfits row hrow)] at hsum
      cases hsum
  | some rows =>
      obtain ⟨hperm, -⟩ := hanswer
      have hrows : ∀ row ∈ rows, fitsColumns (columns row) = true := fun row hrow =>
        (rowFits_iff_fitsColumns row).mp (hfits row (hperm.mem_iff.mp hrow))
      rw [hourlyRollup_some]
      have hsuccess : (rollup none rows rollups hour).2 = .success rows.length :=
        rollup_succeeds_of_rows rollups hrows
      have hlookup := lookup_rollup hperm (Prod.ext rfl hsuccess) agentId hour
      rw [hlookup, if_pos ⟨rfl, hrecords⟩]

/-- A row that does not fit is not written, so the rows fit if every one is. -/
theorem rowFits_of_writesEveryAgent {usage : List UsageRecord} {hour : ℤ}
    (hwrites : WritesEveryAgent usage hour) : ∀ row ∈ aggregates usage hour, RowFits row := by
  intro row hrow
  obtain ⟨agentId, hrecords, rfl⟩ := (mem_of_perm_aggregates (.refl _)).mp hrow
  by_cases hsums : ∀ row ∈ aggregates usage hour, sumsFit row = true
  · have hwritten := hwrites (some (aggregates usage hour)) ⟨.refl _, hsums⟩ ∅ agentId hrecords
    have hne : (aggregates usage hour).length ≠ 0 :=
      List.length_pos_iff_ne_nil.mpr (List.ne_nil_of_mem hrow) |>.ne'
    have htable : (hourlyRollup (some (aggregates usage hour)) ∅ hour).1
        = (upserts hour (aggregates usage hour) ∅).1 := by
      simp only [hourlyRollup]
      rw [if_neg hne]
      split_ifs
      · rfl
      · rfl
    rw [htable, upserts_eq_takeWhile] at hwritten
    -- the agent's row is among those before the first that does not fit
    have hkey : (agentId, hour) ∈ (((aggregates usage hour).takeWhile (fitsColumns ∘ columns)).map
        fun row => ((row.agentId, hour), columns row)).map Prod.fst := by
      rcases (isSome_lookup_insertAll _ _).mp (Option.isSome_of_eq_some hwritten) with hold | hnew
      · rw [AList.lookup_empty] at hold
        cases hold
      · exact hnew
    rw [List.map_map, List.mem_map] at hkey
    obtain ⟨written, hafter, hagent⟩ := hkey
    have hmem := (List.takeWhile_sublist _).subset hafter
    obtain ⟨a, -, rfl⟩ := (mem_of_perm_aggregates (.refl _)).mp hmem
    have ha : a = agentId := congrArg Prod.fst hagent
    rw [ha] at hafter
    have hfits : (fitsColumns ∘ columns) _ = true := List.mem_takeWhile_imp hafter
    exact (rowFits_iff_fitsColumns _).mpr hfits
  · simp only [not_forall] at hsums
    obtain ⟨bad, hbad, hsum⟩ := hsums
    have hwritten := hwrites none ⟨bad, hbad, by simpa using hsum⟩ ∅ agentId hrecords
    exact absurd hwritten (by simp [hourlyRollup])

/-- **Every agent's row is written exactly when every row fits.** -/
theorem writesEveryAgent_iff (usage : List UsageRecord) (hour : ℤ) :
    WritesEveryAgent usage hour ↔ ∀ row ∈ aggregates usage hour, RowFits row :=
  ⟨rowFits_of_writesEveryAgent, writesEveryAgent⟩

/-- **No figure breaks an hour's rollup exactly when every agent's records of the hour stay within
the limits** on their number, their processor time and their bytes. -/
theorem unbreakable_iff (usage : List UsageRecord) (hvalid : ValidColumns usage)
    (referenceDate : ℤ) :
    Unbreakable usage referenceDate
      ↔ ∀ agentId, WithinLimits (agentHour usage agentId (truncateToHour referenceDate)) := by
  have hagent : ∀ agentId,
      ValidColumns (agentHour usage agentId (truncateToHour referenceDate)) := fun agentId u hu =>
    hvalid u (mem_agentHour.mp hu).1
  constructor
  · rintro ⟨hfits, -⟩ agentId
    by_cases hrecords : agentHour usage agentId (truncateToHour referenceDate) = []
    · rw [hrecords]
      exact withinLimits_nil
    · exact (rowFits_iff (hagent agentId)).mp
        (hfits _ ((mem_of_perm_aggregates (.refl _)).mpr ⟨agentId, hrecords, rfl⟩))
  · intro hlimits
    have hfits : ∀ row ∈ aggregates usage (truncateToHour referenceDate), RowFits row := by
      intro row hrow
      obtain ⟨agentId, -, rfl⟩ := (mem_of_perm_aggregates (.refl _)).mp hrow
      exact (rowFits_iff (hagent agentId)).mpr (hlimits agentId)
    exact ⟨hfits, writesEveryAgent hfits⟩

/-- Two records of each of two agents in one hour, and one of the next hour. -/
def busyHour : List UsageRecord :=
  [⟨js "s", js "a", 1200, 2147483646, 4800, 174, none, 1, 0⟩,
    ⟨js "t", js "b", 5, 7, 100, 200, none, 0, 1⟩,
    ⟨js "s", js "a", 800, 1, 5200, 326, none, 2, 2⟩,
    ⟨js "t", js "b", 15, 2000, 9223372036854775707, 0, none, 0, 3⟩,
    ⟨js "s", js "a", 0, 2147483647, 0, 0, none, 0, 3600000⟩]

/-- The sums of both agents reach the limits and keep to them. -/
theorem unbreakable_iff_busyHour : Unbreakable busyHour 0 := by
  refine (unbreakable_iff _ (by decide) 0).mpr fun agentId => ?_
  by_cases ha : agentId = js "a"
  · subst ha
    decide
  by_cases hb : agentId = js "b"
  · subst hb
    decide
  have hnone : agentHour busyHour agentId (truncateToHour 0) = [] := by
    refine List.eq_nil_iff_forall_not_mem.mpr fun u hu => ?_
    obtain ⟨hmem, -, hagent⟩ := mem_agentHour.mp hu
    have hagents : ∀ v ∈ busyHour, v.agentId = js "a" ∨ v.agentId = js "b" := by decide
    rcases hagents u hmem with h | h
    · exact ha (hagent.symm.trans h)
    · exact hb (hagent.symm.trans h)
  rw [hnone]
  exact withinLimits_nil

/-- Two records of one agent, each with the longest processor time its column holds, and one of
another agent in the same hour. -/
def longRunning : List UsageRecord :=
  [⟨js "s", js "a", 0, 2147483647, 0, 0, none, 0, 0⟩,
    ⟨js "s", js "a", 0, 2147483647, 0, 0, none, 0, 1⟩,
    ⟨js "t", js "b", 5, 7, 100, 200, none, 0, 2⟩]

/-- The processor times add up to more than an `int` holds, and the other agent's row, which comes
later, is not written either. -/
theorem longRunning_breaks :
    ValidColumns longRunning ∧ ¬ Unbreakable longRunning 0
      ∧ Answers longRunning (truncateToHour 0) (some (aggregates longRunning (truncateToHour 0)))
      ∧ (hourlyRollup (some (aggregates longRunning (truncateToHour 0))) ∅
          (truncateToHour 0)).1.lookup (js "b", truncateToHour 0) = none := by
  have hrows : aggregates longRunning (truncateToHour 0)
      = [⟨js "a", 2, 0, 0, 0, 4294967294⟩, ⟨js "b", 1, 5, 100, 200, 7⟩] := by decide
  have hbad : ¬ RowFits ⟨js "a", 2, 0, 0, 0, 4294967294⟩ := fun h => by
    have hcpuMs := h.cpuMs
    revert hcpuMs
    decide
  rw [hrows]
  refine ⟨by decide, fun h => ?_, ⟨?_, by decide⟩, ?_⟩
  · refine hbad (h.1 _ ?_)
    rw [hrows]
    exact List.mem_cons_self ..
  · rw [hrows]
  · simp only [hourlyRollup]
    rw [upserts_cons, if_neg (by decide), if_neg (by decide), if_neg (by decide)]
    exact AList.lookup_empty _

end A2aAgentLayer.Metering.RollupBounds
