import A2aAgentLayer.Lib.Run
import A2aAgentLayer.Metering.RollupJob

/-!
# Rollup runs that overlap

A run reads its aggregates in one statement and writes them in later ones, one for each agent, and
nothing keeps another run from reading and writing in between.  The state holds, beside the two
tables, the rows each run has yet to upsert.  `sources` is bookkeeping: for each stored row the
number of usage records that the run which wrote it had been able to see.
-/

namespace A2aAgentLayer.Metering.OverlappingRollups

open A2aAgentLayer.Lib.Utf16 A2aAgentLayer.Lib.KeyedStore A2aAgentLayer.Lib.Run
open A2aAgentLayer.Metering.MeteringService A2aAgentLayer.Metering.RollupJob

/-- A run that has read its aggregates. -/
structure RollupCall where
  hourBucket : ℤ
  seen : ℕ
  pending : List AggregateRow
  deriving DecidableEq

structure State where
  usage : List UsageRecord
  rollups : Rollups
  calls : List RollupCall
  sources : Store (JsString × ℤ) ℕ

def initial : State := ⟨[], ∅, [], ∅⟩

/-- A call is known by its number in the order of the aggregate queries. -/
inductive Event where
  | insert (u : UsageRecord)
  | aggregate (referenceDate : ℤ)
  | upsert (call : ℕ) (agentId : JsString) (hourBucket : ℤ)
  deriving DecidableEq

/-- The call without the row of an agent. -/
def RollupCall.written (r : RollupCall) (agentId : JsString) : RollupCall :=
  { r with pending := r.pending.filter fun row => decide (row.agentId ≠ agentId) }

def step (s : State) : Event → Option State
  | .insert u => some { s with usage := s.usage ++ [u] }
  | .aggregate referenceDate =>
      let hourBucket := truncateToHour referenceDate
      some { s with calls := s.calls ++ [⟨hourBucket, s.usage.length,
        aggregates s.usage hourBucket⟩] }
  | .upsert call agentId hourBucket =>
      match s.calls[call]? with
      | none => none
      | some r =>
          match r.pending.find? fun row => decide (row.agentId = agentId) with
          | none => none
          | some row =>
              if r.hourBucket = hourBucket ∧ fitsColumns (columns row) = true then
                some { s with
                  rollups := s.rollups.insert (agentId, hourBucket) (columns row)
                  calls := s.calls.set call (r.written agentId)
                  sources := s.sources.insert (agentId, hourBucket) r.seen }
              else none

/-- What an upsert does. -/
theorem step_upsert {s t : State} {call : ℕ} {agentId : JsString} {hour : ℤ} :
    step s (.upsert call agentId hour) = some t ↔
      ∃ r row, s.calls[call]? = some r
        ∧ r.pending.find? (fun row => decide (row.agentId = agentId)) = some row
        ∧ r.hourBucket = hour ∧ fitsColumns (columns row) = true
        ∧ { s with
            rollups := s.rollups.insert (agentId, hour) (columns row)
            calls := s.calls.set call (r.written agentId)
            sources := s.sources.insert (agentId, hour) r.seen } = t := by
  rw [step]
  cases hcall : s.calls[call]? with
  | none => simp
  | some r =>
      cases hrow : r.pending.find? fun row => decide (row.agentId = agentId) with
      | none => simp [hrow]
      | some row => simp [hrow, and_assoc]

/-! ### The records behind a row -/

/-- The records of an agent and hour among the first `n`. -/
def visible (usage : List UsageRecord) (n : ℕ) (agentId : JsString) (hour : ℤ) :
    List UsageRecord :=
  agentHour (usage.take n) agentId hour

/-- The records of an agent and hour that are among the first `n` but not among the first `k`. -/
def between (usage : List UsageRecord) (k n : ℕ) (agentId : JsString) (hour : ℤ) :
    List UsageRecord :=
  agentHour ((usage.take n).drop k) agentId hour

theorem visible_append {usage more : List UsageRecord} {n : ℕ} (hn : n ≤ usage.length)
    (agentId : JsString) (hour : ℤ) :
    visible (usage ++ more) n agentId hour = visible usage n agentId hour := by
  rw [visible, List.take_append_of_le_length hn, ← visible]

theorem visible_all (usage : List UsageRecord) (agentId : JsString) (hour : ℤ) :
    visible usage usage.length agentId hour = agentHour usage agentId hour := by
  rw [visible, List.take_length]

theorem visible_append_between {usage : List UsageRecord} {k n : ℕ} (h : k ≤ n)
    (agentId : JsString) (hour : ℤ) :
    visible usage n agentId hour
      = visible usage k agentId hour ++ between usage k n agentId hour := by
  rw [visible, visible, between, ← agentHour_append]
  have hsplit : usage.take n = usage.take k ++ (usage.take n).drop k := by
    conv_lhs => rw [← List.take_append_drop k (usage.take n), List.take_take, Nat.min_eq_left h]
  rw [← hsplit]

theorem between_eq_nil {usage : List UsageRecord} {k n : ℕ} (h : n ≤ k) (agentId : JsString)
    (hour : ℤ) : between usage k n agentId hour = [] := by
  rw [between, List.drop_eq_nil_of_le ((List.length_take_le n usage).trans h)]
  rfl

/-- Replacing a row lowers no column exactly if the new one misses no record of the old one and what
it adds is not negative. -/
theorem totals_visible_le_iff {usage : List UsageRecord} {k n : ℕ} {agentId : JsString} {hour : ℤ} :
    (∀ c, (totals (visible usage k agentId hour)).value c
        ≤ (totals (visible usage n agentId hour)).value c)
      ↔ between usage n k agentId hour = []
        ∧ ∀ c, 0 ≤ (totals (between usage k n agentId hour)).value c := by
  rcases Nat.le_total k n with hle | hle
  · rw [visible_append_between hle, between_eq_nil hle]
    simp only [totals_append_value, true_and]
    exact forall_congr' fun c => by omega
  · rw [visible_append_between hle, between_eq_nil hle agentId hour]
    simp only [totals_append_value]
    constructor
    · intro h
      have hcount := h .requestCount
      simp only [totals, columns, aggregateOf, UsageRollup.value] at hcount
      refine ⟨List.length_eq_zero_iff.mp (by omega), fun c => ?_⟩
      rw [totals_value, List.map_nil, List.sum_nil]
    · rintro ⟨hnil, -⟩ c
      rw [hnil, totals_value [], List.map_nil, List.sum_nil, Int.add_zero]

/-! ### The state along a run -/

/-- The stored row of an agent and hour is the totals of the records its run saw. -/
structure RowSound (s : State) (agentId : JsString) (hour : ℤ) : Prop where
  source : ∀ row, s.rollups.lookup (agentId, hour) = some row →
    ∃ n, s.sources.lookup (agentId, hour) = some n
  row : ∀ n, s.sources.lookup (agentId, hour) = some n →
    n ≤ s.usage.length ∧ visible s.usage n agentId hour ≠ []
      ∧ s.rollups.lookup (agentId, hour) = some (totals (visible s.usage n agentId hour))

/-- What a call has yet to write are totals of the records it saw. -/
structure CallSound (s : State) (r : RollupCall) : Prop where
  seen : r.seen ≤ s.usage.length
  rows : Aggregated (s.usage.take r.seen) r.hourBucket r.pending

structure Sound (s : State) : Prop where
  rows : ∀ agentId hour, RowSound s agentId hour
  calls : ∀ r ∈ s.calls, CallSound s r

theorem sound_initial : Sound initial where
  rows agentId hour := by
    constructor
    · intro row hrow
      cases hrow
    · intro n hn
      cases hn
  calls := by
    intro r hr
    cases hr

/-- The row a call upserts. -/
theorem pending_row {s : State} {r : RollupCall} (hr : CallSound s r) {agentId : JsString}
    {row : AggregateRow}
    (hrow : r.pending.find? (fun row => decide (row.agentId = agentId)) = some row) :
    visible s.usage r.seen agentId r.hourBucket ≠ []
      ∧ columns row = totals (visible s.usage r.seen agentId r.hourBucket) := by
  obtain ⟨a, hne, heq⟩ := hr.rows row (List.mem_of_find?_eq_some hrow)
  have hagent : row.agentId = agentId := of_decide_eq_true (List.find?_some hrow :)
  rw [← heq] at hagent
  obtain rfl : a = agentId := hagent
  refine ⟨hne, ?_⟩
  rw [← heq]
  rfl

theorem CallSound.insert {s : State} {r : RollupCall} (h : CallSound s r) (u : UsageRecord) :
    CallSound { s with usage := s.usage ++ [u] } r where
  seen := by
    show r.seen ≤ (s.usage ++ [u]).length
    rw [List.length_append]
    exact h.seen.trans (Nat.le_add_right _ _)
  rows := by
    show Aggregated ((s.usage ++ [u]).take r.seen) r.hourBucket r.pending
    rw [List.take_append_of_le_length h.seen]
    exact h.rows

theorem RowSound.insert {s : State} {agentId : JsString} {hour : ℤ} (h : RowSound s agentId hour)
    (u : UsageRecord) : RowSound { s with usage := s.usage ++ [u] } agentId hour where
  source := h.source
  row := by
    intro n hn
    obtain ⟨hle, hrow⟩ := h.row n hn
    refine ⟨?_, ?_⟩
    · show n ≤ (s.usage ++ [u]).length
      rw [List.length_append]
      exact hle.trans (Nat.le_add_right _ _)
    · show visible (s.usage ++ [u]) n agentId hour ≠ []
        ∧ s.rollups.lookup (agentId, hour) = some (totals (visible (s.usage ++ [u]) n agentId hour))
      rw [visible_append hle]
      exact hrow

theorem sound_step (s : State) (e : Event) (t : State) (hs : Sound s) (hstep : step s e = some t) :
    Sound t := by
  cases e with
  | insert u =>
      obtain rfl := Option.some.inj hstep
      exact ⟨fun agentId hour => (hs.rows agentId hour).insert u,
        fun r hr => (hs.calls r hr).insert u⟩
  | aggregate date =>
      obtain rfl := Option.some.inj hstep
      refine ⟨fun agentId hour => ⟨(hs.rows agentId hour).source, (hs.rows agentId hour).row⟩, ?_⟩
      intro r hr
      rcases List.mem_append.mp hr with hr | hr
      · exact ⟨(hs.calls r hr).seen, (hs.calls r hr).rows⟩
      · rw [List.mem_singleton.mp hr]
        refine ⟨le_rfl, ?_⟩
        show Aggregated (s.usage.take s.usage.length) _ _
        rw [List.take_length]
        exact fun row => (mem_of_perm_aggregates (.refl _)).mp
  | upsert call agentId hour =>
      obtain ⟨r, row, hcall, hrow, rfl, -, rfl⟩ := step_upsert.mp hstep
      have hr := hs.calls r (List.mem_of_getElem? hcall)
      obtain ⟨hne, htotals⟩ := pending_row hr hrow
      refine ⟨fun a hour => ?_, ?_⟩
      · by_cases hkey : (a, hour) = (agentId, r.hourBucket)
        · obtain ⟨rfl, rfl⟩ := Prod.mk.injEq _ _ _ _ ▸ hkey
          refine ⟨fun _ _ => ⟨r.seen, lookup_insert_self ..⟩, fun n hn => ?_⟩
          obtain rfl := Option.some.inj ((lookup_insert_self ..).symm.trans hn)
          refine ⟨hr.seen, hne, ?_⟩
          rw [← htotals]
          exact lookup_insert_self ..
        · have hold := hs.rows a hour
          constructor
          · intro row' hrow'
            obtain ⟨n, hn⟩ := hold.source row' ((lookup_insert_of_ne _ _ hkey).symm.trans hrow')
            exact ⟨n, (lookup_insert_of_ne _ _ hkey).trans hn⟩
          · intro n hn
            obtain ⟨hle, hsome, hlookup⟩ :=
              hold.row n ((lookup_insert_of_ne _ _ hkey).symm.trans hn)
            exact ⟨hle, hsome, (lookup_insert_of_ne _ _ hkey).trans hlookup⟩
      · intro r' hr'
        rcases List.mem_or_eq_of_mem_set hr' with hr' | rfl
        · exact ⟨(hs.calls r' hr').seen, (hs.calls r' hr').rows⟩
        · exact ⟨hr.seen, fun row' hrow' => hr.rows row' (List.mem_of_mem_filter hrow')⟩

theorem sound {es : List Event} {s : State} (hrun : run step initial es = some s) : Sound s :=
  run_invariant step sound_step sound_initial hrun

/-! ### A run on its own -/

theorem written_pending {r : RollupCall} {row : AggregateRow} {rest : List AggregateRow}
    (hr : r.pending = row :: rest) (hnodup : (r.pending.map (·.agentId)).Nodup) :
    (r.written row.agentId).pending = rest := by
  rw [hr, List.map_cons, List.nodup_cons] at hnodup
  show r.pending.filter _ = rest
  rw [hr, List.filter_cons_of_neg (by simp), List.filter_eq_self]
  intro row' hrow'
  refine decide_eq_true fun heq => hnodup.1 ?_
  rw [← heq]
  exact List.mem_map_of_mem hrow'

theorem run_upserts {call : ℕ} {rows : List AggregateRow} {s : State} {r : RollupCall}
    (hcall : s.calls[call]? = some r) (hr : r.pending = rows)
    (hnodup : (rows.map (·.agentId)).Nodup)
    (hfits : ∀ row ∈ rows, fitsColumns (columns row) = true) :
    ∃ t, run step s (rows.map fun row => .upsert call row.agentId r.hourBucket) = some t
      ∧ t.rollups
        = insertAll s.rollups (rows.map fun row => ((row.agentId, r.hourBucket), columns row)) := by
  induction rows generalizing s r with
  | nil => exact ⟨s, rfl, rfl⟩
  | cons row rest ih =>
      have hlt : call < s.calls.length := (List.getElem?_eq_some_iff.mp hcall).1
      have hstep : step s (.upsert call row.agentId r.hourBucket) = some { s with
          rollups := s.rollups.insert (row.agentId, r.hourBucket) (columns row)
          calls := s.calls.set call (r.written row.agentId)
          sources := s.sources.insert (row.agentId, r.hourBucket) r.seen } := by
        refine step_upsert.mpr ⟨r, row, hcall, ?_, rfl, hfits row (List.mem_cons_self ..), rfl⟩
        rw [hr]
        exact List.find?_cons_of_pos (decide_eq_true rfl)
      have hrest := written_pending hr (hr ▸ hnodup)
      rw [List.map_cons, List.map_cons, run_cons, hstep]
      exact @ih _ (r.written row.agentId) (List.getElem?_set_self hlt) hrest
        (List.nodup_cons.mp hnodup).2 fun row' hrow' => hfits row' (List.mem_cons_of_mem _ hrow')

/-- **A run that nothing interrupts is `runHourlyRollup`.** -/
theorem run_alone (s : State) (date : ℤ)
    (hfits : ∀ agentId,
      fitsColumns (totals (agentHour s.usage agentId (truncateToHour date))) = true) :
    ∃ t, run step s (.aggregate date :: (aggregates s.usage (truncateToHour date)).map
        fun row => .upsert s.calls.length row.agentId (truncateToHour date)) = some t
      ∧ t.rollups = (runHourlyRollup none s.usage s.rollups date).1 := by
  have hrows := List.Perm.refl (aggregates s.usage (truncateToHour date))
  have hcall : (s.calls ++ [⟨truncateToHour date, s.usage.length,
      aggregates s.usage (truncateToHour date)⟩])[s.calls.length]?
      = some ⟨truncateToHour date, s.usage.length, aggregates s.usage (truncateToHour date)⟩ :=
    List.getElem?_concat_length ..
  obtain ⟨t, hrun, ht⟩ := @run_upserts s.calls.length _ { s with calls := _ } _ hcall rfl
    (nodup_agents_of_perm hrows) fun row hrow => by
      obtain ⟨a, -, rfl⟩ := (mem_of_perm_aggregates hrows).mp hrow
      exact hfits a
  refine ⟨t, hrun, ht.trans ?_⟩
  rw [runHourlyRollup_eq]
  exact (rollup_eq_insertAll (Prod.ext rfl (rollup_succeeds s.rollups hrows hfits))).symm

/-! ### Rows that never decrease -/

/-- No row is lost and no column of a row gets smaller. -/
def NeverDecreases (s t : State) : Prop :=
  ∀ agentId hour row, s.rollups.lookup (agentId, hour) = some row →
    ∃ row', t.rollups.lookup (agentId, hour) = some row' ∧ ∀ c, row.value c ≤ row'.value c

/-- The upserts that lower nothing: when the row exists, the call had seen every record of that
agent and hour that the stored row counts, and what it had seen beyond is not negative in sum. -/
def StepOk (s : State) : Event → Prop
  | .upsert call agentId hour => ∀ r n, s.calls[call]? = some r →
      s.sources.lookup (agentId, hour) = some n →
      between s.usage r.seen n agentId hour = []
        ∧ ∀ c, 0 ≤ (totals (between s.usage n r.seen agentId hour)).value c
  | _ => True

theorem neverDecreases_of_eq {s t : State} (h : t.rollups = s.rollups) : NeverDecreases s t :=
  fun agentId hour row hrow => ⟨row, by rw [h, hrow], fun _ => le_rfl⟩

theorem neverDecreases_iff (s : State) (e : Event) (t : State) (hs : Sound s)
    (hstep : step s e = some t) : NeverDecreases s t ↔ StepOk s e := by
  cases e with
  | insert u =>
      obtain rfl := Option.some.inj hstep
      exact iff_of_true (neverDecreases_of_eq rfl) trivial
  | aggregate date =>
      obtain rfl := Option.some.inj hstep
      exact iff_of_true (neverDecreases_of_eq rfl) trivial
  | upsert call agentId hour =>
      obtain ⟨r, row, hcall, hrow, rfl, -, rfl⟩ := step_upsert.mp hstep
      obtain ⟨-, htotals⟩ := pending_row (hs.calls r (List.mem_of_getElem? hcall)) hrow
      have hrows := hs.rows agentId r.hourBucket
      constructor
      · intro h r' n hcall' hn
        obtain rfl := Option.some.inj (hcall.symm.trans hcall')
        obtain ⟨-, -, hstored⟩ := hrows.row n hn
        obtain ⟨row', hrow', hle⟩ := h agentId r.hourBucket _ hstored
        obtain rfl := Option.some.inj ((lookup_insert_self ..).symm.trans hrow')
        rw [htotals] at hle
        exact totals_visible_le_iff.mp hle
      · intro hok a hour stored hstored
        by_cases hkey : (a, hour) = (agentId, r.hourBucket)
        · obtain ⟨rfl, rfl⟩ := Prod.mk.injEq _ _ _ _ ▸ hkey
          obtain ⟨n, hn⟩ := hrows.source stored hstored
          obtain ⟨-, -, htable⟩ := hrows.row n hn
          obtain rfl := Option.some.inj (hstored.symm.trans htable)
          refine ⟨columns row, lookup_insert_self .., ?_⟩
          rw [htotals]
          exact totals_visible_le_iff.mpr (hok r n hcall hn)
        · exact ⟨stored, (lookup_insert_of_ne _ _ hkey).trans hstored, fun _ => le_rfl⟩

/-! ### Rows that catch up -/

/-- The row of an agent counts all records of its hour that a call saw, and is in no column below
their totals. -/
def Reflects (s : State) (r : RollupCall) (agentId : JsString) : Prop :=
  ∃ n row, s.sources.lookup (agentId, r.hourBucket) = some n
    ∧ s.rollups.lookup (agentId, r.hourBucket) = some row
    ∧ visible s.usage r.seen agentId r.hourBucket <+: visible s.usage n agentId r.hourBucket
    ∧ ∀ c, (totals (visible s.usage r.seen agentId r.hourBucket)).value c ≤ row.value c

/-- Once all calls have finished, the rows of an hour reflect the records visible to the call for
that hour that read last. -/
def CaughtUp (s : State) : Prop :=
  (∀ r ∈ s.calls, r.pending = []) → ∀ (i : ℕ) (r : RollupCall), s.calls[i]? = some r →
    (∀ (j : ℕ) (r' : RollupCall), s.calls[j]? = some r' → r'.hourBucket = r.hourBucket → j ≤ i) →
    ∀ agentId, visible s.usage r.seen agentId r.hourBucket ≠ [] → Reflects s r agentId

/-- Every call has yet to write the row of an agent or the row reflects what it saw. -/
def Progress (s : State) : Prop :=
  ∀ r ∈ s.calls, ∀ agentId, visible s.usage r.seen agentId r.hourBucket ≠ [] →
    (∃ row ∈ r.pending, row.agentId = agentId) ∨ Reflects s r agentId

theorem Progress.caughtUp {s : State} (h : Progress s) : CaughtUp s := by
  intro hdone i r hr _ agentId hne
  rcases h r (List.mem_of_getElem? hr) agentId hne with ⟨row, hrow, -⟩ | hreflects
  · rw [hdone r (List.mem_of_getElem? hr)] at hrow
    cases hrow
  · exact hreflects

theorem Reflects.insert {s : State} (hs : Sound s) {r : RollupCall} (hr : r ∈ s.calls)
    {agentId : JsString} (h : Reflects s r agentId) (u : UsageRecord) :
    Reflects { s with usage := s.usage ++ [u] } r agentId := by
  obtain ⟨n, row, hn, hrow, hcounted, hle⟩ := h
  refine ⟨n, row, hn, hrow, ?_⟩
  show visible (s.usage ++ [u]) _ _ _ <+: visible (s.usage ++ [u]) _ _ _
    ∧ ∀ c, (totals (visible (s.usage ++ [u]) _ _ _)).value c ≤ _
  rw [visible_append (hs.calls r hr).seen,
    visible_append ((hs.rows agentId r.hourBucket).row n hn).1]
  exact ⟨hcounted, hle⟩

/-- A prefix that misses nothing. -/
theorem visible_isPrefix {usage : List UsageRecord} {k n : ℕ} {agentId : JsString} {hour : ℤ}
    (h : between usage n k agentId hour = []) :
    visible usage k agentId hour <+: visible usage n agentId hour := by
  rcases Nat.le_total k n with hle | hle
  · rw [visible_append_between hle]
    exact List.prefix_append _ _
  · rw [visible_append_between hle, h, List.append_nil]

theorem progress_upsert {s t : State} {call : ℕ} {agentId : JsString} {hour : ℤ} (hs : Sound s)
    (hprogress : Progress s) (hok : StepOk s (.upsert call agentId hour))
    (hstep : step s (.upsert call agentId hour) = some t) : Progress t := by
  obtain ⟨r, row, hcall, hrow, rfl, -, rfl⟩ := step_upsert.mp hstep
  obtain ⟨-, htotals⟩ := pending_row (hs.calls r (List.mem_of_getElem? hcall)) hrow
  -- what was reflected still is: the row is another one, or the call had seen all it counts
  have hkeep : ∀ r' a, Reflects s r' a →
      Reflects { s with
        rollups := s.rollups.insert (agentId, r.hourBucket) (columns row)
        calls := s.calls.set call (r.written agentId)
        sources := s.sources.insert (agentId, r.hourBucket) r.seen } r' a := by
    rintro r' a ⟨n, stored, hn, hstored, hcounted, hle⟩
    by_cases hkey : (a, r'.hourBucket) = (agentId, r.hourBucket)
    · obtain ⟨rfl, hhour⟩ := Prod.mk.injEq _ _ _ _ ▸ hkey
      rw [hhour] at hn hstored hcounted hle
      have hfresh := hok r n hcall hn
      obtain ⟨-, -, htable⟩ := (hs.rows a r.hourBucket).row n hn
      obtain rfl := Option.some.inj (hstored.symm.trans htable)
      refine ⟨r.seen, columns row, ?_, ?_, ?_, fun c => ?_⟩
      · rw [hhour]
        exact lookup_insert_self ..
      · rw [hhour]
        exact lookup_insert_self ..
      · rw [hhour]
        exact hcounted.trans (visible_isPrefix hfresh.1)
      · rw [hhour, htotals]
        exact (hle c).trans (totals_visible_le_iff.mpr hfresh c)
    · exact ⟨n, stored, (lookup_insert_of_ne _ _ hkey).trans hn,
        (lookup_insert_of_ne _ _ hkey).trans hstored, hcounted, hle⟩
  intro r' hr' a hne
  rcases List.mem_or_eq_of_mem_set hr' with hr' | rfl
  · exact (hprogress r' hr' a hne).imp_right (hkeep r' a)
  · by_cases hagent : a = agentId
    · subst hagent
      refine .inr
        ⟨r.seen, columns row, lookup_insert_self .., lookup_insert_self .., ?_, fun c => ?_⟩
      · exact List.prefix_rfl
      · rw [htotals]
        exact le_rfl
    · rcases hprogress r (List.mem_of_getElem? hcall) a hne with ⟨row', hrow', rfl⟩ | hreflects
      · exact .inl ⟨row', List.mem_filter.mpr ⟨hrow', decide_eq_true hagent⟩, rfl⟩
      · exact .inr (hkeep r a hreflects)

theorem progress_step {s : State} {e : Event} {t : State} (hs : Sound s) (hprogress : Progress s)
    (hok : StepOk s e) (hstep : step s e = some t) : Progress t := by
  cases e with
  | insert u =>
      obtain rfl := Option.some.inj hstep
      intro r hr agentId hne
      replace hne : visible (s.usage ++ [u]) r.seen agentId r.hourBucket ≠ [] := hne
      rw [visible_append (hs.calls r hr).seen] at hne
      exact (hprogress r hr agentId hne).imp_right fun h => h.insert hs hr u
  | aggregate date =>
      obtain rfl := Option.some.inj hstep
      intro r hr agentId hne
      rcases List.mem_append.mp hr with hr | hr
      · exact hprogress r hr agentId hne
      · -- a new call has all its rows before it
        rw [List.mem_singleton.mp hr] at hne ⊢
        replace hne : visible s.usage s.usage.length agentId (truncateToHour date) ≠ [] := hne
        rw [visible_all] at hne
        exact .inl ⟨_, (mem_of_perm_aggregates (.refl _)).mpr ⟨agentId, hne, rfl⟩, rfl⟩
  | upsert call agentId hour => exact progress_upsert hs hprogress hok hstep

theorem progress {es : List Event} {s : State} (hrun : run step initial es = some s)
    (hok : AllSteps step StepOk initial es) : Progress s := by
  refine run_induction_of_steps step (P := fun _ s => Progress s) ?_ ?_ es s hrun hok
  · intro r hr
    cases hr
  · intro es s e t hrun _ hprogress hC hstep
    exact progress_step (sound hrun) hprogress hC hstep

/-! ### Overlapping runs -/

/-- No newer total is lost in a run. -/
structure KeepsNewerTotals (es : List Event) : Prop where
  neverDecreases : ∀ ps e qs s t, es = ps ++ e :: qs → run step initial ps = some s →
    step s e = some t → NeverDecreases s t
  caughtUp : ∀ ps s, ps <+: es → run step initial ps = some s → CaughtUp s

/-- **When overlapping rollups keep newer totals:** exactly in the runs that never upsert over a row
that counts a record they had not seen, or with fewer units than it. -/
theorem keepsNewerTotals_iff {es : List Event} {s : State} (hrun : run step initial es = some s) :
    KeepsNewerTotals es ↔ AllSteps step StepOk initial es := by
  have hsteps := steps_iff step sound_initial sound_step neverDecreases_iff hrun
  constructor
  · exact fun h => hsteps.mp h.neverDecreases
  · exact fun h => ⟨hsteps.mpr h, fun ps m hps hm => (progress hm (h.of_prefix hps)).caughtUp⟩

def sampleUsage (createdAt : ℤ) : UsageRecord :=
  ⟨js "sess-001", js "agent-a", 5, 2, 17, 68, none, 1, createdAt⟩

/-- The call that read first writes first. -/
def inOrder : List Event :=
  [ .insert (sampleUsage 3900000), .aggregate 4200000, .insert (sampleUsage 4300000),
    .aggregate 4400000, .upsert 0 (js "agent-a") 3600000, .upsert 1 (js "agent-a") 3600000 ]

theorem forall_column_iff {P : Column → Prop} : (∀ c, P c) ↔
    P .requestCount ∧ P .tokensUsed ∧ P .bytesIn ∧ P .bytesOut ∧ P .cpuMs := by
  constructor
  · exact fun h => ⟨h _, h _, h _, h _, h _⟩
  · rintro ⟨hcount, htokens, hin, hout, hcpu⟩ c
    cases c <;> assumption

instance (s : State) : (e : Event) → Decidable (StepOk s e)
  | .upsert call agentId hour =>
      decidable_of_iff (∀ r ∈ s.calls[call]?, ∀ n ∈ s.sources.lookup (agentId, hour),
          (between s.usage r.seen n agentId hour).isEmpty = true
            ∧ 0 ≤ (totals (between s.usage n r.seen agentId hour)).requestCount
            ∧ 0 ≤ (totals (between s.usage n r.seen agentId hour)).tokensUsed
            ∧ 0 ≤ (totals (between s.usage n r.seen agentId hour)).bytesIn
            ∧ 0 ≤ (totals (between s.usage n r.seen agentId hour)).bytesOut
            ∧ 0 ≤ (totals (between s.usage n r.seen agentId hour)).cpuMs) <| by
        rw [StepOk]
        simp only [List.isEmpty_iff, forall_column_iff, UsageRollup.value]
        exact ⟨fun h r n hr hn => h r hr n hn, fun h r hr n hn => h r n hr hn⟩
  | .insert _ => .isTrue trivial
  | .aggregate _ => .isTrue trivial

/-- The condition holds of the run, so the row never goes back and ends with both records. -/
theorem keepsNewerTotals_inOrder : KeepsNewerTotals inOrder
    ∧ ∃ s, run step initial inOrder = some s
      ∧ s.rollups.lookup (js "agent-a", 3600000) = some ⟨2, 10, 34, 136, 4⟩ := by
  have hrow : (run step initial inOrder).map
      (fun s => s.rollups.lookup (js "agent-a", 3600000)) = some (some ⟨2, 10, 34, 136, 4⟩) := by
    decide
  obtain ⟨s, hs, hlookup⟩ := Option.map_eq_some_iff.mp hrow
  exact ⟨(keepsNewerTotals_iff hs).mpr (by decide +kernel), s, hs, hlookup⟩

/-- The call that read first writes last. -/
def overtaken : List Event :=
  [ .insert (sampleUsage 3900000), .aggregate 4200000, .insert (sampleUsage 4300000),
    .aggregate 4400000, .upsert 1 (js "agent-a") 3600000 ]

/-- The row goes back from two requests to one, and stays there. -/
theorem newerTotal_lost : ∃ s t, run step initial overtaken = some s
    ∧ step s (.upsert 0 (js "agent-a") 3600000) = some t
    ∧ s.rollups.lookup (js "agent-a", 3600000) = some ⟨2, 10, 34, 136, 4⟩
    ∧ t.rollups.lookup (js "agent-a", 3600000) = some ⟨1, 5, 17, 68, 2⟩
    ∧ t.calls.map (·.pending) = [[], []]
    ∧ ¬ KeepsNewerTotals (overtaken ++ [.upsert 0 (js "agent-a") 3600000]) := by
  have hbefore : (run step initial overtaken).map
      (fun s => s.rollups.lookup (js "agent-a", 3600000)) = some (some ⟨2, 10, 34, 136, 4⟩) := by
    decide
  obtain ⟨s, hs, hrow⟩ := Option.map_eq_some_iff.mp hbefore
  have hafter : (step s (.upsert 0 (js "agent-a") 3600000)).map
      (fun t => (t.rollups.lookup (js "agent-a", 3600000), t.calls.map (·.pending)))
      = some (some ⟨1, 5, 17, 68, 2⟩, [[], []]) := by
    have hboth : ((run step initial overtaken).bind fun s =>
        step s (.upsert 0 (js "agent-a") 3600000)).map
        (fun t => (t.rollups.lookup (js "agent-a", 3600000), t.calls.map (·.pending)))
        = some (some ⟨1, 5, 17, 68, 2⟩, [[], []]) := by decide
    rw [hs] at hboth
    exact hboth
  obtain ⟨t, ht, hrows⟩ := Option.map_eq_some_iff.mp hafter
  obtain ⟨hrow', hpending⟩ := Prod.mk.inj hrows
  refine ⟨s, t, hs, ht, hrow, hrow', hpending, fun h => ?_⟩
  obtain ⟨row, hlookup, hle⟩ := h.neverDecreases overtaken _ [] s t rfl hs ht _ _ _ hrow
  obtain rfl := Option.some.inj (hrow'.symm.trans hlookup)
  exact absurd (hle .requestCount) (by decide)

end A2aAgentLayer.Metering.OverlappingRollups
