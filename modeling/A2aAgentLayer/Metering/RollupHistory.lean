import Mathlib.Data.Finset.Insert
import A2aAgentLayer.Lib.Run
import A2aAgentLayer.Metering.RollupJob

/-!
# Rollup runs after one another

Histories of inserted records and of rollup runs with any reference dates, in which a run may fail
at any of its statements and the aggregate query may return its rows in any order.  Only an agent
with a record in an hour ever has a row for it, so a run that completes leaves exactly the rows its
query gave, whatever earlier runs had written.
-/

namespace A2aAgentLayer.Metering.RollupHistory

open A2aAgentLayer.Lib.Utf16 A2aAgentLayer.Lib.KeyedStore A2aAgentLayer.Lib.Run
open A2aAgentLayer.Metering.MeteringService A2aAgentLayer.Metering.RollupJob

structure State where
  usage : List UsageRecord
  rollups : Rollups

def initial : State := ⟨[], ∅⟩

inductive Event where
  | insert (u : UsageRecord)
  | runHourlyRollup (fault : Option ℕ) (rows : List AggregateRow) (referenceDate : ℤ)

/-- What a run in a state does: the table it leaves and how it ends. -/
def State.rollup (s : State) (fault : Option ℕ) (rows : List AggregateRow) (referenceDate : ℤ) :
    Rollups × RollupRun :=
  RollupJob.rollup fault rows s.rollups (truncateToHour referenceDate)

/-- No record is inserted while a run goes on. -/
def step (s : State) : Event → Option State
  | .insert u => some { s with usage := s.usage ++ [u] }
  | .runHourlyRollup fault rows referenceDate =>
      if rows.Perm (aggregates s.usage (truncateToHour referenceDate)) then
        some { s with rollups := (s.rollup fault rows referenceDate).1 }
      else none

theorem step_run {s t : State} {fault : Option ℕ} {rows : List AggregateRow} {date : ℤ} :
    step s (.runHourlyRollup fault rows date) = some t ↔
      rows.Perm (aggregates s.usage (truncateToHour date))
        ∧ { s with rollups := (s.rollup fault rows date).1 } = t := by
  rw [step, Option.ite_none_right_eq_some, Option.some.injEq]

/-! ### Rows and records -/

/-- The row of an agent and an hour as the records have it. -/
def exactRow (usage : List UsageRecord) (agentId : JsString) (hour : ℤ) : Option UsageRollup :=
  if agentHour usage agentId hour ≠ [] then some (totals (agentHour usage agentId hour)) else none

/-- The rows of an hour are the per-agent totals of its records. -/
def Exact (s : State) (hour : ℤ) : Prop :=
  ∀ agentId, s.rollups.lookup (agentId, hour) = exactRow s.usage agentId hour

/-- There is a record behind every row. -/
def Grounded (s : State) : Prop :=
  ∀ agentId hour row, s.rollups.lookup (agentId, hour) = some row →
    agentHour s.usage agentId hour ≠ []

theorem grounded_step (s : State) (e : Event) (t : State) (hs : Grounded s)
    (hstep : step s e = some t) : Grounded t := by
  cases e with
  | insert u =>
      obtain rfl := Option.some.inj hstep
      intro agentId hour row hrow hnil
      rw [agentHour_append] at hnil
      exact hs agentId hour row hrow (List.append_eq_nil_iff.mp hnil).1
  | runHourlyRollup fault rows date =>
      obtain ⟨hrows, rfl⟩ := step_run.mp hstep
      intro agentId hour row hrow
      rcases lookup_rollup_cases fault s.rollups hrows agentId hour with hkept | ⟨rfl, hne, -⟩
      · exact hs agentId hour row (hkept.symm.trans hrow)
      · exact hne

theorem grounded {es : List Event} {s : State} (hrun : run step initial es = some s) :
    Grounded s := by
  refine run_invariant step grounded_step ?_ hrun
  intro agentId hour row hrow
  cases hrow

/-- **A run that completes makes its hour exact.** -/
theorem exact_of_success {s : State} (hs : Grounded s) {fault : Option ℕ}
    {rows : List AggregateRow} {date : ℤ} {written : Rollups} {buckets : ℕ}
    (hrows : rows.Perm (aggregates s.usage (truncateToHour date)))
    (h : s.rollup fault rows date = (written, .success buckets)) :
    Exact { s with rollups := written } (truncateToHour date) := by
  intro agentId
  show written.lookup (agentId, truncateToHour date)
    = exactRow s.usage agentId (truncateToHour date)
  rw [lookup_rollup hrows h, exactRow]
  by_cases hne : agentHour s.usage agentId (truncateToHour date) = []
  · rw [if_neg fun hand => hand.2 hne, if_neg fun hnot => hnot hne]
    by_contra hsome
    obtain ⟨row, hrow⟩ := Option.ne_none_iff_exists'.mp hsome
    exact hs agentId _ row hrow hne
  · rw [if_pos ⟨rfl, hne⟩, if_pos hne]

/-- A run of any hour, even one that fails, leaves an exact hour exact. -/
theorem exact_step {s t : State} {fault : Option ℕ} {rows : List AggregateRow} {date hour : ℤ}
    (hs : Exact s hour) (hstep : step s (.runHourlyRollup fault rows date) = some t) :
    Exact t hour := by
  obtain ⟨hrows, rfl⟩ := step_run.mp hstep
  intro agentId
  rcases lookup_rollup_cases fault s.rollups hrows agentId hour with hkept | ⟨rfl, hne, hwritten⟩
  · exact hkept.trans (hs agentId)
  · show (s.rollup fault rows date).1.lookup _ = exactRow s.usage agentId _
    rw [exactRow, if_pos hne]
    exact hwritten

/-! ### Totals over several hours -/

/-- The rows of a set of hours. -/
def rowsOf (rollups : Rollups) (hours : Finset ℤ) : List UsageRollup :=
  (rollups.entries.filter fun e => decide (e.1.2 ∈ hours)).map fun e => e.2

/-- The records created in a set of hours. -/
def recordsOf (usage : List UsageRecord) (hours : Finset ℤ) : List UsageRecord :=
  usage.filter fun u => decide (truncateToHour u.createdAt ∈ hours)

/-- Rows added up column by column. -/
def sumRows (rows : List UsageRollup) : UsageRollup where
  requestCount := (rows.map (·.requestCount)).sum
  tokensUsed := (rows.map (·.tokensUsed)).sum
  bytesIn := (rows.map (·.bytesIn)).sum
  bytesOut := (rows.map (·.bytesOut)).sum
  cpuMs := (rows.map (·.cpuMs)).sum

theorem sumRows_value (rows : List UsageRollup) (c : Column) :
    (sumRows rows).value c = (rows.map fun row => row.value c).sum := by
  cases c <;> rfl

/-- The records of one agent and hour are those with that key. -/
theorem agentHour_eq_filter {hour : ℤ} (hhour : truncateToHour hour = hour)
    (usage : List UsageRecord) (agentId : JsString) :
    agentHour usage agentId hour
      = usage.filter fun u => (u.agentId, truncateToHour u.createdAt) = (agentId, hour) := by
  rw [agentHour, List.filter_filter]
  refine List.filter_congr fun u _ => ?_
  rw [Bool.eq_iff_iff, Bool.and_eq_true, inHour_iff hhour, decide_eq_true_eq, decide_eq_true_eq,
    Prod.mk.injEq]

/-- **Conservation.**  Exact rows of any hours add up to the totals of all records of these hours.
-/
theorem sumRows_rowsOf {s : State} {hours : Finset ℤ}
    (hhours : ∀ hour ∈ hours, truncateToHour hour = hour) (hexact : ∀ hour ∈ hours, Exact s hour) :
    sumRows (rowsOf s.rollups hours) = totals (recordsOf s.usage hours) := by
  refine UsageRollup.ext_value fun c => ?_
  rw [sumRows_value, totals_value, rowsOf, List.map_map]
  refine sum_selected (fun u => (u.agentId, truncateToHour u.createdAt)) (fun u => weight u c)
    s.rollups (fun row => row.value c) (fun k => decide (k.2 ∈ hours)) s.usage ?_ ?_
  · rintro ⟨agentId, hour⟩ row hmem hrow
    rw [decide_eq_true_eq] at hmem
    rw [hexact hour hmem, exactRow, Option.ite_none_right_eq_some, Option.some.injEq] at hrow
    rw [← hrow.2, totals_value, agentHour_eq_filter (hhours hour hmem)]
  · intro u hu hmem
    rw [decide_eq_true_eq] at hmem
    have hne : agentHour s.usage u.agentId (truncateToHour u.createdAt) ≠ [] := by
      refine List.ne_nil_of_mem (a := u) ?_
      rw [mem_agentHour, inHour_iff (truncateToHour_idem _)]
      exact ⟨hu, rfl, rfl⟩
    refine ⟨totals (agentHour s.usage u.agentId (truncateToHour u.createdAt)), ?_⟩
    rw [hexact _ hmem, exactRow, if_pos hne]

/-! ### Re-runs -/

/-- The run of this event completes. -/
def Completes (s : State) (fault : Option ℕ) (rows : List AggregateRow) (date : ℤ) : Prop :=
  ∃ buckets, (s.rollup fault rows date).2 = .success buckets

theorem exact_of_completes {s t : State} (hs : Grounded s) {fault : Option ℕ}
    {rows : List AggregateRow} {date : ℤ}
    (hstep : step s (.runHourlyRollup fault rows date) = some t)
    (h : Completes s fault rows date) : Exact t (truncateToHour date) := by
  obtain ⟨hrows, rfl⟩ := step_run.mp hstep
  obtain ⟨buckets, hbuckets⟩ := h
  exact exact_of_success hs hrows (Prod.ext rfl hbuckets)

theorem completes_of_fits {s : State} {rows : List AggregateRow} {date : ℤ}
    (hrows : rows.Perm (aggregates s.usage (truncateToHour date)))
    (hfits : ∀ agentId,
      fitsColumns (totals (agentHour s.usage agentId (truncateToHour date))) = true) :
    Completes s none rows date :=
  ⟨rows.length, rollup_succeeds s.rollups hrows hfits⟩

/-- Rollup runs alone leave the records and every exact hour as they are. -/
theorem exact_run {es : List Event} (hruns : ∀ e ∈ es, ∀ u, e ≠ .insert u) {s t : State}
    (hrun : run step s es = some t) :
    t.usage = s.usage ∧ ∀ hour, Exact s hour → Exact t hour := by
  induction es generalizing s with
  | nil =>
      obtain rfl := Option.some.inj hrun
      exact ⟨rfl, fun _ h => h⟩
  | cons e es ih =>
      obtain ⟨m, hm, hrest⟩ := Option.bind_eq_some_iff.mp hrun
      have htail := ih (fun f hf => hruns f (List.mem_cons_of_mem _ hf)) hrest
      cases e with
      | insert u => exact absurd rfl (hruns _ (List.mem_cons_self ..) u)
      | runHourlyRollup fault rows date =>
          refine ⟨htail.1.trans ?_, fun hour h => htail.2 hour (exact_step h hm)⟩
          obtain ⟨-, rfl⟩ := step_run.mp hm
          rfl

/-- An hour one of whose runs completes is exact from then on. -/
theorem exact_after {es : List Event} (hruns : ∀ e ∈ es, ∀ u, e ≠ .insert u) {s t : State}
    (hs : Grounded s) (hrun : run step s es = some t) {ps qs : List Event} {m : State}
    {fault : Option ℕ} {rows : List AggregateRow} {date : ℤ}
    (hes : es = ps ++ .runHourlyRollup fault rows date :: qs) (hm : run step s ps = some m)
    (h : Completes m fault rows date) : Exact t (truncateToHour date) := by
  subst hes
  obtain ⟨m', m'', hm', hstep, hrest⟩ := run_split step hrun
  obtain rfl := Option.some.inj (hm.symm.trans hm')
  have hgrounded := run_invariant step grounded_step hs hm
  refine (exact_run (fun e he => hruns e ?_) hrest).2 _ (exact_of_completes hgrounded hstep h)
  exact List.mem_append_right _ (List.mem_cons_of_mem _ he)

/-- What re-running promises, after any history. -/
structure SafeReruns (s : State) : Prop where
  /-- The rows of the hour of a run that completes are the per-agent totals of its records. -/
  exact : ∀ fault rows date t, step s (.runHourlyRollup fault rows date) = some t →
    Completes s fault rows date → Exact t (truncateToHour date)
  /-- A run changes no row of another hour. -/
  otherHours : ∀ fault rows date t, step s (.runHourlyRollup fault rows date) = some t →
    ∀ agentId hour, hour ≠ truncateToHour date →
      t.rollups.lookup (agentId, hour) = s.rollups.lookup (agentId, hour)
  /-- When some run completes for every hour of a set, the rows of these hours add up to the totals
  of all their records. -/
  conserved : ∀ es t hours, (∀ e ∈ es, ∀ u, e ≠ .insert u) → run step s es = some t →
    (∀ hour ∈ hours, ∃ ps fault rows date qs m,
      es = ps ++ .runHourlyRollup fault rows date :: qs ∧ run step s ps = some m
        ∧ truncateToHour date = hour ∧ Completes m fault rows date) →
    sumRows (rowsOf t.rollups hours) = totals (recordsOf s.usage hours)

/-- **Re-runs are safe and conserve usage.** -/
theorem safeReruns {es : List Event} {s : State} (hrun : run step initial es = some s) :
    SafeReruns s where
  exact _ _ _ _ := exact_of_completes (grounded hrun)
  otherHours fault rows date t hstep agentId hour hne := by
    obtain ⟨hrows, rfl⟩ := step_run.mp hstep
    rcases lookup_rollup_cases fault s.rollups hrows agentId hour with hkept | ⟨hhour, -⟩
    · exact hkept
    · exact absurd hhour hne
  conserved es t hours hruns ht hcompleted := by
    rw [← (exact_run hruns ht).1]
    refine sumRows_rowsOf (fun hour hmem => ?_) fun hour hmem => ?_
    · obtain ⟨-, -, -, date, -, -, -, -, rfl, -⟩ := hcompleted hour hmem
      exact truncateToHour_idem date
    · obtain ⟨ps, fault, rows, date, qs, m, hes, hm, rfl, hdone⟩ := hcompleted hour hmem
      exact exact_after hruns (grounded hrun) ht hes hm hdone

/-- Two agents, a run that fails at its second upsert, and one more record. -/
def crashedRun : List Event :=
  [ .insert ⟨js "s1", js "agent-a", 5, 2, 17, 68, none, 1, 3900000⟩,
    .insert ⟨js "s2", js "agent-b", 7, 3, 19, 70, none, 0, 4000000⟩,
    .runHourlyRollup (some 2)
      [⟨js "agent-b", 1, 7, 19, 70, 3⟩, ⟨js "agent-a", 1, 5, 17, 68, 2⟩] 4200000,
    .insert ⟨js "s1", js "agent-b", 1, 1, 1, 1, none, 0, 4300000⟩ ]

theorem safeReruns_crashedRun : ∃ s, run step initial crashedRun = some s
    ∧ s.rollups.lookup (js "agent-b", 3600000) = some ⟨1, 7, 19, 70, 3⟩
    ∧ s.rollups.lookup (js "agent-a", 3600000) = none
    ∧ SafeReruns s := by
  have hrows : (run step initial crashedRun).map (fun s =>
      (s.rollups.lookup (js "agent-b", 3600000), s.rollups.lookup (js "agent-a", 3600000)))
      = some (some ⟨1, 7, 19, 70, 3⟩, none) := by decide +kernel
  obtain ⟨s, hs, hlookups⟩ := Option.map_eq_some_iff.mp hrows
  obtain ⟨hb, ha⟩ := Prod.mk.inj hlookups
  exact ⟨s, hs, hb, ha, safeReruns hs⟩

end A2aAgentLayer.Metering.RollupHistory
