import Mathlib.Algebra.Order.Field.Basic
import Mathlib.Algebra.Order.Ring.Cast
import Mathlib.Algebra.Order.Ring.Rat
import Mathlib.Tactic.NormNum
import A2aAgentLayer.Metering.OverlappingRollups

/-!
# The usage gauges

On a scrape `load` counts the usage records of the recent window by whether the rollup table has a
row for their agent and hour, and reports the age of the oldest record without one.  It reads one
snapshot of the two tables, while rollup runs and insertions go on around it.

A row says that some run has been there, not when it read: a record inserted after that read is
counted as rolled up all the same.
-/

namespace A2aAgentLayer.Observability.DomainGauges

open A2aAgentLayer.Lib.Utf16 A2aAgentLayer.Lib.KeyedStore A2aAgentLayer.Lib.Run
open A2aAgentLayer.Metering.MeteringService A2aAgentLayer.Metering.RollupJob
open A2aAgentLayer.Metering
open A2aAgentLayer.Metering.OverlappingRollups (visible)

/-! ### Loading the gauges -/

/-- The row of the usage query. -/
structure UsageRow where
  pending : Option ℕ
  rolledUp : ℕ
  lagSeconds : Option ℚ

/-- The agent and the hour a record is joined by; `date_trunc` in a UTC session. -/
def rollupKey (u : UsageRecord) : JsString × ℤ := (u.agentId, truncateToHour u.createdAt)

/-- The left join finds a rollup row for the record. -/
def covered (rollups : Rollups) (u : UsageRecord) : Bool := (rollups.lookup (rollupKey u)).isSome

def inWindow (usageWindowHours : ℕ) (now : ℤ) (u : UsageRecord) : Bool :=
  decide (now - usageWindowHours * hourMs ≤ u.createdAt)

/-- `now() - MIN(createdAt)` in seconds. -/
def lagOf (now oldest : ℤ) : ℚ := ((now - oldest : ℤ) : ℚ) / 1000

def usageQuery (usageWindowHours : ℕ) (usage : List UsageRecord) (rollups : Rollups) (now : ℤ) :
    UsageRow :=
  let recent := usage.filter (inWindow usageWindowHours now)
  let missing := recent.filter fun u => !covered rollups u
  { pending := if recent.isEmpty then none else some missing.length
    rolledUp := (recent.filter (covered rollups)).length
    lagSeconds := (missing.map (·.createdAt)).min?.map (lagOf now) }

structure Gauges where
  pending : ℕ
  rolledUp : ℕ
  meteringLagSeconds : ℚ
  deriving DecidableEq

def load (usageWindowHours : ℕ) (usage : List UsageRecord) (rollups : Rollups) (now : ℤ) : Gauges :=
  let row := usageQuery usageWindowHours usage rollups now
  { pending := row.pending.getD 0
    rolledUp := row.rolledUp
    meteringLagSeconds := max 0 (row.lagSeconds.getD 0) }

theorem lagOf_nonpos_iff {now oldest : ℤ} : lagOf now oldest ≤ 0 ↔ now ≤ oldest := by
  rw [lagOf, div_le_iff₀ (by norm_num), zero_mul, Int.cast_nonpos, sub_nonpos]

/-- The lag is zero when no record without a row is older than the scrape. -/
theorem meteringLag_eq_zero_iff {usageWindowHours : ℕ} {usage : List UsageRecord}
    {rollups : Rollups} {now : ℤ} :
    (load usageWindowHours usage rollups now).meteringLagSeconds = 0 ↔
      ∀ u ∈ usage, inWindow usageWindowHours now u = true → covered rollups u = false →
        now ≤ u.createdAt := by
  have hmem : ∀ c, c ∈ ((usage.filter (inWindow usageWindowHours now)).filter
      fun u => !covered rollups u).map (·.createdAt) ↔
        ∃ u ∈ usage, inWindow usageWindowHours now u = true ∧ covered rollups u = false
          ∧ u.createdAt = c := by
    intro c
    simp only [List.mem_map, List.mem_filter, Bool.not_eq_true', and_assoc]
  rw [load, max_eq_left_iff, usageQuery]
  simp only
  cases hmin : (((usage.filter (inWindow usageWindowHours now)).filter
      fun u => !covered rollups u).map (·.createdAt)).min? with
  | none =>
      rw [List.min?_eq_none_iff] at hmin
      refine iff_of_true le_rfl fun u hu hin hcov => ?_
      have habs := (hmem u.createdAt).mpr ⟨u, hu, hin, hcov, rfl⟩
      rw [hmin] at habs
      cases habs
  | some oldest =>
      rw [List.min?_eq_some_iff] at hmin
      show lagOf now oldest ≤ 0 ↔ _
      rw [lagOf_nonpos_iff]
      constructor
      · intro hle u hu hin hcov
        exact hle.trans (hmin.2 _ ((hmem _).mpr ⟨u, hu, hin, hcov, rfl⟩))
      · intro h
        obtain ⟨u, hu, hin, hcov, rfl⟩ := (hmem oldest).mp hmin.1
        exact h u hu hin hcov

/-! ### Scrapes between insertions and rollups -/

structure State where
  tables : OverlappingRollups.State
  gauges : Option Gauges

inductive Event where
  | table (e : OverlappingRollups.Event)
  | load (now : ℤ)
  deriving DecidableEq

def initial : State := ⟨OverlappingRollups.initial, none⟩

def step (usageWindowHours : ℕ) (s : State) : Event → Option State
  | .table e => (OverlappingRollups.step s.tables e).map fun tables => { s with tables := tables }
  | .load now => some { s with
      gauges := some (load usageWindowHours s.tables.usage s.tables.rollups now) }

/-- The events without the scrapes. -/
def tableEvents (es : List Event) : List OverlappingRollups.Event :=
  es.filterMap fun
    | .table e => some e
    | .load _ => none

/-- A scrape changes no table. -/
theorem run_tables {usageWindowHours : ℕ} :
    ∀ es s, run (step usageWindowHours) initial es = some s →
      run OverlappingRollups.step OverlappingRollups.initial (tableEvents es) = some s.tables := by
  refine run_induction (step usageWindowHours) rfl ?_
  intro es s e t _ ih hstep
  rw [tableEvents, List.filterMap_append, ← tableEvents]
  cases e with
  | table e =>
      obtain ⟨tables, htables, rfl⟩ := Option.map_eq_some_iff.mp hstep
      exact (run_snoc OverlappingRollups.step).mpr ⟨s.tables, ih, htables⟩
  | load now =>
      obtain rfl := Option.some.inj hstep
      rw [List.filterMap_cons_none rfl, List.filterMap_nil, List.append_nil]
      exact ih

/-! ### The order of insertions, reads and upserts -/

def inserted (es : List OverlappingRollups.Event) : List UsageRecord :=
  es.filterMap fun
    | .insert u => some u
    | _ => none

/-- The number of rollup runs that have read. -/
def reads (es : List OverlappingRollups.Event) : ℕ :=
  es.countP fun
    | .aggregate _ => true
    | _ => false

/-- The run of the last upsert of a row. -/
def lastWriter (es : List OverlappingRollups.Event) (key : JsString × ℤ) : Option ℕ :=
  es.foldl (fun writer e => match e with
    | .upsert call agentId hour => if (agentId, hour) = key then some call else writer
    | _ => writer) none

theorem inserted_append (es fs : List OverlappingRollups.Event) :
    inserted (es ++ fs) = inserted es ++ inserted fs :=
  List.filterMap_append

theorem reads_append (es fs : List OverlappingRollups.Event) :
    reads (es ++ fs) = reads es + reads fs :=
  List.countP_append

theorem lastWriter_snoc (es : List OverlappingRollups.Event) (e : OverlappingRollups.Event)
    (key : JsString × ℤ) :
    lastWriter (es ++ [e]) key = match e with
      | .upsert call agentId hour => if (agentId, hour) = key then some call else lastWriter es key
      | _ => lastWriter es key := by
  rw [lastWriter, List.foldl_append]
  rfl

theorem lastWriter_upsert (es : List OverlappingRollups.Event) (call : ℕ) (agentId : JsString)
    (hour : ℤ) (key : JsString × ℤ) :
    lastWriter (es ++ [.upsert call agentId hour]) key
      = if (agentId, hour) = key then some call else lastWriter es key :=
  lastWriter_snoc ..

/-- Where a record stands in the table and where its insertion stands in the run. -/
theorem exists_insertion {es : List OverlappingRollups.Event} {j : ℕ} {u : UsageRecord}
    (h : (inserted es)[j]? = some u) :
    ∃ ps qs, es = ps ++ .insert u :: qs ∧ (inserted ps).length = j := by
  induction es generalizing j with
  | nil => cases h
  | cons e es ih =>
      have hskip : (inserted es)[j]? = some u → inserted [e] = [] →
          ∃ ps qs, e :: es = ps ++ .insert u :: qs ∧ (inserted ps).length = j := by
        intro htail he
        obtain ⟨ps, qs, rfl, hlen⟩ := ih htail
        refine ⟨e :: ps, qs, rfl, ?_⟩
        rw [← hlen, ← List.singleton_append, inserted_append, he, List.nil_append]
      cases e with
      | insert v =>
          cases j with
          | zero =>
              obtain rfl := Option.some.inj h
              exact ⟨[], es, rfl, rfl⟩
          | succ j =>
              obtain ⟨ps, qs, rfl, hlen⟩ := ih h
              exact ⟨.insert v :: ps, qs, rfl, congrArg Nat.succ hlen⟩
      | aggregate date => exact hskip h rfl
      | upsert call agentId hour => exact hskip h rfl

/-- The tables as the order of the events determines them. -/
structure Ordered (es : List OverlappingRollups.Event) (s : OverlappingRollups.State) : Prop where
  usage : s.usage = inserted es
  calls : s.calls.length = reads es
  seen : ∀ ps u qs, es = ps ++ .insert u :: qs → ∀ i r, s.calls[i]? = some r →
    ((inserted ps).length < r.seen ↔ reads ps ≤ i)
  writers : ∀ key i, lastWriter es key = some i → i < s.calls.length
  sources : ∀ key,
    s.sources.lookup key = (lastWriter es key).bind fun i => s.calls[i]?.map (·.seen)

section Ordered

variable {es : List OverlappingRollups.Event} {s t : OverlappingRollups.State}

theorem Ordered.insert (inv : Ordered es s) (hsound : OverlappingRollups.Sound s) {v : UsageRecord}
    (hstep : OverlappingRollups.step s (.insert v) = some t) : Ordered (es ++ [.insert v]) t := by
  obtain rfl := Option.some.inj hstep
  refine ⟨?_, ?_, fun ps u qs hes i r hr => ?_, fun key i hi => ?_, fun key => ?_⟩
  · rw [inserted_append, ← inv.usage]
    rfl
  · rw [reads_append]
    exact inv.calls
  · rcases concat_eq_append_cons.mp hes with ⟨-, rfl, -⟩ | ⟨qs, -, rfl⟩
    · -- the new record is behind every read
      have hseen := (hsound.calls r (List.mem_of_getElem? hr)).seen
      have hlt : i < s.calls.length := (List.getElem?_eq_some_iff.mp hr).1
      have hcalls := inv.calls
      rw [inv.usage] at hseen
      omega
    · exact inv.seen ps u qs rfl i r hr
  · rw [lastWriter_snoc] at hi
    exact inv.writers key i hi
  · rw [lastWriter_snoc]
    exact inv.sources key

theorem Ordered.aggregate (inv : Ordered es s) {date : ℤ}
    (hstep : OverlappingRollups.step s (.aggregate date) = some t) :
    Ordered (es ++ [.aggregate date]) t := by
  obtain rfl := Option.some.inj hstep
  refine ⟨?_, ?_, fun ps u qs hes i r hr => ?_, fun key i hi => ?_, fun key => ?_⟩
  · rw [inserted_append, ← inv.usage]
    exact (List.append_nil _).symm
  · rw [reads_append, ← inv.calls]
    exact List.length_append
  · rcases concat_eq_append_cons.mp hes with ⟨-, -, habs⟩ | ⟨qs, -, rfl⟩
    · cases habs
    · replace hr : (s.calls ++ [⟨truncateToHour date, s.usage.length,
          aggregates s.usage (truncateToHour date)⟩])[i]? = some r := hr
      rcases getElem?_concat_eq_some.mp hr with hr | ⟨rfl, rfl⟩
      · exact inv.seen ps u qs rfl i r hr
      · -- the new run reads behind every insertion
        have hreads := reads_append ps (.insert u :: qs)
        have husage := congrArg List.length inv.usage
        rw [inserted_append, List.length_append] at husage
        replace husage : s.usage.length = (inserted ps).length + ((inserted qs).length + 1) :=
          husage
        have hcalls := inv.calls
        show (inserted ps).length < s.usage.length ↔ reads ps ≤ s.calls.length
        omega
  · rw [lastWriter_snoc] at hi
    show i < (s.calls ++ [_]).length
    rw [List.length_append]
    exact (inv.writers key i hi).trans_le (Nat.le_add_right _ _)
  · rw [lastWriter_snoc]
    show s.sources.lookup key = _
    rw [inv.sources key]
    cases hwriter : lastWriter es key with
    | none => rfl
    | some i =>
        show _ = (s.calls ++ [_])[i]?.map _
        rw [List.getElem?_append_left (inv.writers key i hwriter)]
        rfl

theorem Ordered.upsert (inv : Ordered es s) {call : ℕ} {agentId : JsString} {hour : ℤ}
    (hstep : OverlappingRollups.step s (.upsert call agentId hour) = some t) :
    Ordered (es ++ [.upsert call agentId hour]) t := by
  obtain ⟨r, row, hcall, -, rfl, -, rfl⟩ := OverlappingRollups.step_upsert.mp hstep
  have hlt := (List.getElem?_eq_some_iff.mp hcall).1
  have hseen : ∀ i : ℕ,
      (s.calls.set call (r.written agentId))[i]?.map OverlappingRollups.RollupCall.seen
      = s.calls[i]?.map OverlappingRollups.RollupCall.seen := by
    intro i
    by_cases hi : call = i
    · subst hi
      rw [hcall, List.getElem?_set_self hlt]
      rfl
    · rw [List.getElem?_set_ne hi]
  refine ⟨?_, ?_, fun ps u qs hes i r' hr => ?_, fun key i hi => ?_, fun key => ?_⟩
  · rw [inserted_append, ← inv.usage]
    exact (List.append_nil _).symm
  · rw [reads_append, ← inv.calls]
    exact List.length_set ..
  · rcases concat_eq_append_cons.mp hes with ⟨-, -, habs⟩ | ⟨qs, -, rfl⟩
    · cases habs
    · have hmap := hseen i
      rw [show (s.calls.set call (r.written agentId))[i]? = some r' from hr] at hmap
      obtain ⟨old, hold, heq⟩ := Option.map_eq_some_iff.mp hmap.symm
      rw [← heq]
      exact inv.seen ps u qs rfl i old hold
  · show i < (s.calls.set call _).length
    rw [List.length_set]
    rw [lastWriter_upsert] at hi
    split_ifs at hi with hkey
    · obtain rfl := Option.some.inj hi
      exact hlt
    · exact inv.writers key i hi
  · show (s.sources.insert (agentId, r.hourBucket) r.seen).lookup key
      = Option.bind _ fun i : ℕ => (s.calls.set call (r.written agentId))[i]?.map _
    rw [funext hseen, lastWriter_upsert]
    by_cases hkey : (agentId, r.hourBucket) = key
    · subst hkey
      rw [lookup_insert_self, if_pos rfl, Option.bind_some, hcall]
      rfl
    · rw [lookup_insert_of_ne _ _ (Ne.symm hkey), if_neg hkey]
      exact inv.sources key

end Ordered

theorem ordered :
    ∀ es s, run OverlappingRollups.step OverlappingRollups.initial es = some s → Ordered es s := by
  refine run_induction OverlappingRollups.step ⟨rfl, rfl, ?_, nofun, fun _ => rfl⟩ ?_
  · intro ps u qs hnil
    simp at hnil
  intro es s e t hrun inv hstep
  cases e with
  | insert v => exact inv.insert (OverlappingRollups.sound hrun) hstep
  | aggregate date => exact inv.aggregate hstep
  | upsert call agentId hour => exact inv.upsert hstep

/-! ### What the gauges promise -/

/-- The rollup row of the record is the totals of records it is one of. -/
def Included (s : OverlappingRollups.State) (j : ℕ) (u : UsageRecord) : Prop :=
  ∃ n, j < n ∧ s.rollups.lookup (rollupKey u)
    = some (totals (visible s.usage n u.agentId (truncateToHour u.createdAt)))

/-- A load that tells the truth: what counts as rolled up is in the rollup totals, and so is the
whole window when the lag is zero. -/
structure Truthful (usageWindowHours : ℕ) (now : ℤ) (s : OverlappingRollups.State) : Prop where
  rolledUp : ∀ j u, s.usage[j]? = some u → inWindow usageWindowHours now u = true →
    covered s.rollups u = true → Included s j u
  zeroLag : (load usageWindowHours s.usage s.rollups now).meteringLagSeconds = 0 →
    ∀ j u, s.usage[j]? = some u → inWindow usageWindowHours now u = true → Included s j u

/-- The order of events before a load that makes it truthful: the run that last wrote the row of a
record in the window had read after the insertion, and when rows are missing one of their records
was created before the load. -/
structure LoadOk (usageWindowHours : ℕ) (now : ℤ) (es : List OverlappingRollups.Event) : Prop where
  readAfter : ∀ ps u qs, es = ps ++ .insert u :: qs → inWindow usageWindowHours now u = true →
    ∀ i, lastWriter es (rollupKey u) = some i → reads ps ≤ i
  pastMissing : ∀ u ∈ inserted es, inWindow usageWindowHours now u = true →
    lastWriter es (rollupKey u) = none →
    ∃ v ∈ inserted es, inWindow usageWindowHours now v = true
      ∧ lastWriter es (rollupKey v) = none ∧ v.createdAt < now

/-- A record adds to the totals of its agent and hour. -/
theorem length_visible_lt {usage : List UsageRecord} {j k n : ℕ} {u : UsageRecord}
    (hu : usage[j]? = some u) (hk : k ≤ j) (hn : j < n) :
    (visible usage k u.agentId (truncateToHour u.createdAt)).length
      < (visible usage n u.agentId (truncateToHour u.createdAt)).length := by
  have hmem : u ∈ OverlappingRollups.between usage k n u.agentId (truncateToHour u.createdAt) := by
    rw [OverlappingRollups.between, mem_agentHour, inHour_iff (truncateToHour_idem _)]
    refine ⟨List.mem_iff_getElem?.mpr ⟨j - k, ?_⟩, rfl, rfl⟩
    rw [List.getElem?_drop, List.getElem?_take, if_pos (by omega), Nat.add_sub_cancel' hk]
    exact hu
  rw [OverlappingRollups.visible_append_between (hk.trans hn.le), List.length_append]
  exact Nat.lt_add_of_pos_right (List.length_pos_of_mem hmem)

section Load

variable {es : List OverlappingRollups.Event} {s : OverlappingRollups.State}
  {usageWindowHours : ℕ} {now : ℤ}

/-- The run that wrote the row of a record, and what it had seen. -/
theorem row_of_writer (hsound : OverlappingRollups.Sound s) (hordered : Ordered es s)
    {u : UsageRecord} {i : ℕ} (hi : lastWriter es (rollupKey u) = some i) :
    ∃ r, s.calls[i]? = some r ∧ s.rollups.lookup (rollupKey u)
      = some (totals (visible s.usage r.seen u.agentId (truncateToHour u.createdAt))) := by
  have hlt := hordered.writers _ i hi
  have hsource := hordered.sources (rollupKey u)
  rw [hi, Option.bind_some, List.getElem?_eq_getElem hlt, Option.map_some] at hsource
  exact ⟨s.calls[i], List.getElem?_eq_getElem hlt,
    ((hsound.rows u.agentId (truncateToHour u.createdAt)).row _ hsource).2.2⟩

theorem covered_eq (hsound : OverlappingRollups.Sound s) (hordered : Ordered es s)
    (u : UsageRecord) : covered s.rollups u = (lastWriter es (rollupKey u)).isSome := by
  cases hi : lastWriter es (rollupKey u) with
  | some i =>
      obtain ⟨r, -, hrow⟩ := row_of_writer hsound hordered hi
      rw [covered, hrow]
      rfl
  | none =>
      rw [covered]
      cases hrow : s.rollups.lookup (rollupKey u) with
      | none => rfl
      | some row =>
          obtain ⟨n, hn⟩ := (hsound.rows u.agentId (truncateToHour u.createdAt)).source row hrow
          have hsource := hordered.sources (rollupKey u)
          rw [hi] at hsource
          cases hsource.symm.trans hn

/-- **A record is in the totals of its row exactly if the run that wrote the row read after the
insertion.** -/
theorem included_iff (hsound : OverlappingRollups.Sound s) (hordered : Ordered es s)
    {ps qs : List OverlappingRollups.Event} {u : UsageRecord} (hes : es = ps ++ .insert u :: qs)
    {i : ℕ} (hi : lastWriter es (rollupKey u) = some i) :
    Included s (inserted ps).length u ↔ reads ps ≤ i := by
  obtain ⟨r, hr, hrow⟩ := row_of_writer hsound hordered hi
  rw [← hordered.seen ps u qs hes i r hr]
  constructor
  · rintro ⟨n, hn, hlookup⟩
    by_contra hlate
    have hu : s.usage[(inserted ps).length]? = some u := by
      rw [hordered.usage, hes, inserted_append, List.getElem?_append_right le_rfl, Nat.sub_self]
      rfl
    have hlt := length_visible_lt hu (not_lt.mp hlate) hn
    have hcount := congrArg UsageRollup.requestCount (Option.some.inj (hlookup.symm.trans hrow))
    simp only [totals, columns, aggregateOf] at hcount
    omega
  · exact fun hlt => ⟨r.seen, hlt, hrow⟩

/-- **When a load tells the truth.** -/
theorem truthful_iff (hsound : OverlappingRollups.Sound s) (hordered : Ordered es s) :
    Truthful usageWindowHours now s ↔ LoadOk usageWindowHours now es := by
  constructor
  · intro h
    constructor
    · intro ps u qs hes hin i hi
      refine (included_iff hsound hordered hes hi).mp (h.rolledUp _ u ?_ hin ?_)
      · rw [hordered.usage, hes, inserted_append, List.getElem?_append_right le_rfl, Nat.sub_self]
        rfl
      · rw [covered_eq hsound hordered, hi]
        rfl
    · intro u hu hin hnone
      by_contra hall
      have hlag : (load usageWindowHours s.usage s.rollups now).meteringLagSeconds = 0 := by
        refine meteringLag_eq_zero_iff.mpr fun v hv hvin hvcov => ?_
        rw [hordered.usage] at hv
        rw [covered_eq hsound hordered, Option.isSome_eq_false_iff,
          Option.isNone_iff_eq_none] at hvcov
        exact not_lt.mp fun hlt => hall ⟨v, hv, hvin, hvcov, hlt⟩
      rw [← hordered.usage] at hu
      obtain ⟨j, hj⟩ := List.mem_iff_getElem?.mp hu
      obtain ⟨n, -, hrow⟩ := h.zeroLag hlag j u hj hin
      have hcov := covered_eq hsound hordered u
      rw [hnone, covered, hrow] at hcov
      cases hcov
  · intro h
    have hrolled : ∀ j u, s.usage[j]? = some u → inWindow usageWindowHours now u = true →
        covered s.rollups u = true → Included s j u := by
      intro j u hj hin hcov
      rw [covered_eq hsound hordered] at hcov
      obtain ⟨i, hi⟩ := Option.isSome_iff_exists.mp hcov
      rw [hordered.usage] at hj
      obtain ⟨ps, qs, hes, rfl⟩ := exists_insertion hj
      exact (included_iff hsound hordered hes hi).mpr (h.readAfter ps u qs hes hin i hi)
    refine ⟨hrolled, fun hlag j u hj hin => ?_⟩
    cases hcov : covered s.rollups u with
    | true => exact hrolled j u hj hin hcov
    | false =>
        rw [covered_eq hsound hordered, Option.isSome_eq_false_iff,
          Option.isNone_iff_eq_none] at hcov
        have hu : u ∈ inserted es := hordered.usage ▸ List.mem_of_getElem? hj
        obtain ⟨v, hv, hvin, hvnone, hlt⟩ := h.pastMissing u hu hin hcov
        have hvcov : covered s.rollups v = false := by
          rw [covered_eq hsound hordered, hvnone]
          rfl
        rw [← hordered.usage] at hv
        have hle := meteringLag_eq_zero_iff.mp hlag v hv hvin hvcov
        omega

end Load

/-- **When the gauges tell the truth:** at every load exactly if, at each of them, the row of no
record of the window was last written by a run that had read before the record was inserted, and
missing rows show as lag. -/
theorem gauges_truthful_iff {usageWindowHours : ℕ} {es : List Event} {s : State}
    (hrun : run (step usageWindowHours) initial es = some s) :
    (∀ ps now qs m, es = ps ++ .load now :: qs → run (step usageWindowHours) initial ps = some m →
        Truthful usageWindowHours now m.tables)
      ↔ ∀ ps now qs, es = ps ++ .load now :: qs →
          LoadOk usageWindowHours now (tableEvents ps) := by
  have hload : ∀ {ps now m}, run (step usageWindowHours) initial ps = some m →
      (Truthful usageWindowHours now m.tables ↔ LoadOk usageWindowHours now (tableEvents ps)) := by
    intro ps now m hm
    have htables := run_tables ps m hm
    exact truthful_iff (OverlappingRollups.sound htables) (ordered _ _ htables)
  constructor
  · rintro h ps now qs rfl
    obtain ⟨m, -, hm, -, -⟩ := run_split (step usageWindowHours) hrun
    exact (hload hm).mp (h ps now qs m rfl hm)
  · intro h ps now qs m hes hm
    exact (hload hm).mpr (h ps now qs hes)

open OverlappingRollups (sampleUsage)

/-- A rollup run and a load after the only record. -/
def quietHour : List Event :=
  [ .table (.insert (sampleUsage 3900000)), .table (.aggregate 4200000),
    .table (.upsert 0 (js "agent-a") 3600000), .load 4300000 ]

theorem loadOk_quietHour : LoadOk 24 4300000
    [.insert (sampleUsage 3900000), .aggregate 4200000, .upsert 0 (js "agent-a") 3600000] := by
  constructor
  · intro ps u qs hes _ i _
    cases ps with
    | nil => exact Nat.zero_le i
    | cons e ps =>
        -- only the first event is an insertion
        have hinsert : OverlappingRollups.Event.insert u
            ∈ [.aggregate 4200000, .upsert 0 (js "agent-a") 3600000] := by
          rw [(List.cons.inj hes).2]
          exact List.mem_append_right _ (List.mem_cons_self ..)
        simp at hinsert
  · intro u hu _ hnone
    obtain rfl := List.mem_singleton.mp hu
    exact absurd hnone (by decide)

/-- The only load is told the truth: one record, rolled up, and no lag. -/
theorem gauges_truthful_quietHour : ∃ s, run (step 24) initial quietHour = some s
    ∧ s.gauges = some ⟨0, 1, 0⟩
    ∧ ∀ ps now qs m, quietHour = ps ++ .load now :: qs → run (step 24) initial ps = some m →
      Truthful 24 now m.tables := by
  have hgauges : (run (step 24) initial quietHour).map (·.gauges) = some (some ⟨0, 1, 0⟩) := by
    decide +kernel
  obtain ⟨s, hs, hg⟩ := Option.map_eq_some_iff.mp hgauges
  refine ⟨s, hs, hg, (gauges_truthful_iff hs).mpr fun ps now qs hes => ?_⟩
  change quietHour.take 3 ++ [.load 4300000] = _ at hes
  rcases concat_eq_append_cons.mp hes with ⟨-, rfl, hlast⟩ | ⟨zs, -, hbefore⟩
  · obtain rfl := Event.load.inj hlast
    exact loadOk_quietHour
  · have hload : Event.load now ∈ quietHour.take 3 := by
      rw [show quietHour.take 3 = _ from hbefore]
      exact List.mem_append_right _ (List.mem_cons_self ..)
    simp [quietHour] at hload

/-- One more record after the run. -/
def busyHour : List Event :=
  [ .table (.insert (sampleUsage 3900000)), .table (.aggregate 4200000),
    .table (.upsert 0 (js "agent-a") 3600000), .table (.insert (sampleUsage 4250000)) ]

/-- Two records count as rolled up and the lag is zero, with one request in the row. -/
theorem lateRecord_rolledUp : ∃ s t, run (step 24) initial busyHour = some s
    ∧ step 24 s (.load 4300000) = some t
    ∧ t.gauges = some ⟨0, 2, 0⟩
    ∧ s.tables.rollups.lookup (js "agent-a", 3600000) = some ⟨1, 5, 17, 68, 2⟩
    ∧ ¬ Truthful 24 4300000 s.tables := by
  have hstate : (run (step 24) initial busyHour).map (fun s =>
      (s.tables.usage, s.tables.rollups.lookup (js "agent-a", 3600000),
        load 24 s.tables.usage s.tables.rollups 4300000))
      = some ([sampleUsage 3900000, sampleUsage 4250000], some ⟨1, 5, 17, 68, 2⟩, ⟨0, 2, 0⟩) := by
    decide +kernel
  obtain ⟨s, hs, hfacts⟩ := Option.map_eq_some_iff.mp hstate
  obtain ⟨husage, hfacts⟩ := Prod.mk.inj hfacts
  obtain ⟨hrow, hgauges⟩ := Prod.mk.inj hfacts
  refine ⟨s, _, hs, rfl, congrArg some hgauges, hrow, fun h => ?_⟩
  have hlate : s.tables.usage[1]? = some (sampleUsage 4250000) := by
    rw [husage]
    rfl
  obtain ⟨n, hn, hlookup⟩ := h.zeroLag (by rw [hgauges]) 1 _ hlate (by decide)
  rw [husage, visible, List.take_of_length_le hn] at hlookup
  exact absurd (hrow.symm.trans hlookup) (by decide)

end A2aAgentLayer.Observability.DomainGauges
