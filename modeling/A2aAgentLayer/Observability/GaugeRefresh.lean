import A2aAgentLayer.Identity.AgentRows
import A2aAgentLayer.Observability.DomainGauges

/-!
# Refreshing the domain gauges

`refresh` returns at once within the TTL of the latest load, joins a load that is in flight, and
starts one otherwise.  A load waits for three queries, sets the gauges when all have answered, and
then runs through the handlers of `then`, `catch` and `finally`.  Each handler has a turn of its
own, and calls arrive between any two turns.

An event about a query that has answered, a handler that is not next, or a call that does not wait
changes nothing.
-/

namespace A2aAgentLayer.Observability.GaugeRefresh

open A2aAgentLayer.Lib.KeyedStore
open A2aAgentLayer.Identity.AgentRows (AgentStatus)
open A2aAgentLayer.Metering.MeteringService A2aAgentLayer.Metering.RollupJob
open A2aAgentLayer.Observability.DomainGauges (UsageRow usageQuery)

/-! ### The gauges -/

structure StatusCount where
  status : AgentStatus
  count : ℕ
  deriving DecidableEq

/-- What one round of queries gives. -/
structure Rows where
  agents : List StatusCount
  services : List StatusCount
  usage : Option UsageRow

/-- The gauges; `none` is a series that has not been set.  A gauge without labels starts at 0. -/
structure Gauges where
  agents : AgentStatus → Option ℕ
  services : AgentStatus → Option ℕ
  pending : Option ℕ
  rolledUp : Option ℕ
  meteringLagSeconds : ℚ

def Gauges.initial : Gauges := ⟨fun _ => none, fun _ => none, none, none, 0⟩

/-- `Object.values(AgentStatus)`. -/
def statuses : List AgentStatus := [.active, .inactive]

/-- The loop over the map sets every series that has an entry. -/
def setByStatus (gauge : AgentStatus → Option ℕ) (known : List AgentStatus)
    (rows : List StatusCount) : AgentStatus → Option ℕ :=
  let zeros : Store AgentStatus ℕ := insertAll ∅ (known.map fun status => (status, 0))
  let counts := insertAll zeros (rows.map fun row => (row.status, row.count))
  fun status => (counts.lookup status).or (gauge status)

/-- The part of `load` after the queries. -/
def Gauges.set (gauges : Gauges) (rows : Rows) : Gauges where
  agents := setByStatus gauges.agents statuses rows.agents
  services := setByStatus gauges.services statuses rows.services
  pending := some ((rows.usage.bind (·.pending)).getD 0)
  rolledUp := some ((rows.usage.map (·.rolledUp)).getD 0)
  meteringLagSeconds := max 0 ((rows.usage.bind (·.lagSeconds)).getD 0)

/-- The count of the last row with a status. -/
def countOf (rows : List StatusCount) (status : AgentStatus) : ℕ :=
  ((rows.filter (·.status = status)).getLast?.map (·.count)).getD 0

/-- The gauges that a round of queries stands for. -/
def gaugesOf (rows : Rows) : Gauges where
  agents := fun status => some (countOf rows.agents status)
  services := fun status => some (countOf rows.services status)
  pending := some ((rows.usage.bind (·.pending)).getD 0)
  rolledUp := some ((rows.usage.map (·.rolledUp)).getD 0)
  meteringLagSeconds := max 0 ((rows.usage.bind (·.lagSeconds)).getD 0)

theorem countOf_concat (rows : List StatusCount) (row : StatusCount) (status : AgentStatus) :
    countOf (rows ++ [row]) status
      = if row.status = status then row.count else countOf rows status := by
  rw [countOf, List.filter_append]
  by_cases hrow : row.status = status
  · rw [List.filter_cons_of_pos (by simpa using hrow), List.filter_nil, List.getLast?_concat,
      if_pos hrow]
    rfl
  · rw [List.filter_cons_of_neg (by simpa using hrow), List.filter_nil, List.append_nil,
      if_neg hrow]
    rfl

/-- A status without rows counts 0. -/
theorem countOf_of_no_rows {rows : List StatusCount} {status : AgentStatus}
    (h : ∀ row ∈ rows, row.status ≠ status) : countOf rows status = 0 := by
  rw [countOf, List.filter_eq_nil_iff.mpr fun row hrow => by simpa using h row hrow]
  rfl

theorem lookup_counts {zeros : Store AgentStatus ℕ} {status : AgentStatus}
    (hzero : zeros.lookup status = some 0) (rows : List StatusCount) :
    (insertAll zeros (rows.map fun row => (row.status, row.count))).lookup status
      = some (countOf rows status) := by
  induction rows using List.reverseRecOn with
  | nil => exact hzero
  | append_singleton rows row ih =>
      rw [insertAll, List.map_append, List.foldl_append, ← insertAll, countOf_concat]
      show ((insertAll zeros _).insert row.status row.count).lookup status = _
      by_cases hrow : row.status = status
      · rw [hrow, lookup_insert_self, if_pos rfl]
      · rw [lookup_insert_of_ne _ _ (Ne.symm hrow), ih, if_neg hrow]

/-- Every known status is set, whatever the gauge was. -/
theorem setByStatus_statuses (gauge : AgentStatus → Option ℕ) (rows : List StatusCount) :
    setByStatus gauge statuses rows = fun status => some (countOf rows status) := by
  funext status
  have hzero : (insertAll (∅ : Store AgentStatus ℕ)
      (statuses.map fun status => (status, 0))).lookup status = some 0 := by
    cases status <;> rfl
  show ((insertAll _ _).lookup status).or (gauge status) = _
  rw [lookup_counts hzero, Option.some_or]

/-- **One round of queries sets all gauges.** -/
theorem set_eq_gaugesOf (gauges : Gauges) (rows : Rows) : gauges.set rows = gaugesOf rows := by
  rw [Gauges.set, setByStatus_statuses, setByStatus_statuses, gaugesOf]

/-- The usage gauges are those of a load that reads the tables. -/
theorem gaugesOf_usageQuery (agents services : List StatusCount) (usageWindowHours : ℕ)
    (usage : List UsageRecord) (rollups : Rollups) (now : ℤ) :
    let gauges := gaugesOf ⟨agents, services, some (usageQuery usageWindowHours usage rollups now)⟩
    let loaded := DomainGauges.load usageWindowHours usage rollups now
    gauges.pending = some loaded.pending ∧ gauges.rolledUp = some loaded.rolledUp
      ∧ gauges.meteringLagSeconds = loaded.meteringLagSeconds :=
  ⟨rfl, rfl, rfl⟩

/-! ### Loads -/

inductive Query (α : Type) where
  | running
  | answered (value : α)
  | failed

def Query.value {α : Type} : Query α → Option α
  | .answered value => some value
  | _ => none

def Query.isRunning {α : Type} : Query α → Bool
  | .running => true
  | _ => false

def Query.hasFailed {α : Type} : Query α → Bool
  | .failed => true
  | _ => false

/-- A query answers once; `none` is a rejection. -/
def Query.settle {α : Type} : Query α → Option α → Query α
  | .running, some value => .answered value
  | .running, none => .failed
  | query, _ => query

/-- Which of its handlers a load has been through: the rest of `load` itself, and those of `then`,
`catch` and `finally`. -/
inductive Stage where
  | pending
  | settled
  | thenned
  | caught
  | cleared
  deriving DecidableEq

def Stage.next : Stage → Stage
  | .pending => .settled
  | .settled => .thenned
  | .thenned => .caught
  | _ => .cleared

/-- A load, with the time of the call that started it. -/
structure Load where
  now : ℤ
  agents : Query (List StatusCount)
  services : Query (List StatusCount)
  usage : Query (Option UsageRow)
  stage : Stage

def Load.start (now : ℤ) : Load := ⟨now, .running, .running, .running, .pending⟩

/-- What `Promise.all` gives when it is fulfilled. -/
def Load.rows (l : Load) : Option Rows := do
  return ⟨← l.agents.value, ← l.services.value, ← l.usage.value⟩

/-- `Promise.all` is rejected by the first query that is. -/
def Load.hasFailed (l : Load) : Bool :=
  l.agents.hasFailed || l.services.hasFailed || l.usage.hasFailed

def Load.joined (l : Load) : Bool := l.rows.isSome || l.hasFailed

inductive Answer where
  | agents (rows : Option (List StatusCount))
  | services (rows : Option (List StatusCount))
  | usage (row : Option (Option UsageRow))

/-- What comes after the first rejection is ignored. -/
def Load.answer (l : Load) (answer : Answer) : Load :=
  if l.joined then l
  else
    match answer with
    | .agents rows => { l with agents := l.agents.settle rows }
    | .services rows => { l with services := l.services.settle rows }
    | .usage row => { l with usage := l.usage.settle row }

def Load.advance (l : Load) : Load := { l with stage := l.stage.next }

/-- The next handler can run. -/
def Load.ready (l : Load) : Bool :=
  match l.stage with
  | .pending => l.joined
  | .cleared => false
  | _ => true

/-! ### The service -/

inductive Call where
  | awaiting (load : ℕ)
  | resolved
  deriving DecidableEq

/-- `inFlight` is the load whose promise the field holds; `loads` are all that were started. -/
structure State where
  lastRefreshAt : ℤ
  inFlight : Option ℕ
  loads : List Load
  calls : List Call
  gauges : Gauges
  refreshErrors : ℕ

def initial : State := ⟨0, none, [], [], Gauges.initial, 0⟩

def refresh (ttlMs : ℤ) (s : State) (now : ℤ) : State :=
  if s.lastRefreshAt ≠ 0 ∧ now - s.lastRefreshAt < ttlMs then
    { s with calls := s.calls ++ [.resolved] }
  else
    match s.inFlight with
    | some i => { s with calls := s.calls ++ [.awaiting i] }
    | none =>
        { s with
          loads := s.loads ++ [Load.start now]
          inFlight := some s.loads.length
          calls := s.calls ++ [.awaiting s.loads.length] }

/-- What the next handler of a load does. -/
def handle (s : State) (l : Load) : State :=
  match l.stage with
  | .pending =>
      match l.rows with
      | some rows => { s with gauges := s.gauges.set rows }
      | none => s
  | .settled => if l.rows.isSome then { s with lastRefreshAt := l.now } else s
  | .thenned => if l.rows.isSome then s else { s with refreshErrors := s.refreshErrors + 1 }
  | .caught => { s with inFlight := none }
  | .cleared => s

inductive Event where
  | refresh (now : ℤ)
  | answer (load : ℕ) (answer : Answer)
  | turn (load : ℕ)
  | resume (call : ℕ)

/-- A call resumes when the promise it awaits has settled. -/
def resume (s : State) (call : ℕ) : State :=
  match s.calls[call]? with
  | some (.awaiting i) =>
      if s.loads[i]?.map (·.stage) = some .cleared then
        { s with calls := s.calls.set call .resolved }
      else s
  | _ => s

def step (ttlMs : ℤ) (s : State) : Event → State
  | .refresh now => refresh ttlMs s now
  | .answer i answer =>
      match s.loads[i]? with
      | some l => { s with loads := s.loads.set i (l.answer answer) }
      | none => s
  | .turn i =>
      match s.loads[i]? with
      | some l =>
          if l.ready then
            { handle s l with loads := s.loads.set i l.advance }
          else s
      | none => s
  | .resume call => resume s call

/-- All that an event can do. -/
inductive Does (ttlMs : ℤ) (s : State) : Event → State → Prop
  | answered {now : ℤ} {call : Call} (hcall : ∀ i, call = .awaiting i → s.inFlight = some i) :
      Does ttlMs s (.refresh now) { s with calls := s.calls ++ [call] }
  | started {now : ℤ} (hcached : ¬ (s.lastRefreshAt ≠ 0 ∧ now - s.lastRefreshAt < ttlMs))
      (hnone : s.inFlight = none) :
      Does ttlMs s (.refresh now) { s with
        loads := s.loads ++ [Load.start now]
        inFlight := some s.loads.length
        calls := s.calls ++ [.awaiting s.loads.length] }
  | told {i : ℕ} {l : Load} (hl : s.loads[i]? = some l) (answer : Answer) :
      Does ttlMs s (.answer i answer) { s with loads := s.loads.set i (l.answer answer) }
  | turned {i : ℕ} {l : Load} (hl : s.loads[i]? = some l) (hready : l.ready = true) :
      Does ttlMs s (.turn i) { handle s l with loads := s.loads.set i l.advance }
  | resumed {call i : ℕ} (hwaits : s.calls[call]? = some (.awaiting i))
      (hcleared : s.loads[i]?.map (·.stage) = some .cleared) :
      Does ttlMs s (.resume call) { s with calls := s.calls.set call .resolved }
  | idle {e : Event} (he : ∀ now, e ≠ .refresh now) : Does ttlMs s e s

theorem does_step (ttlMs : ℤ) (s : State) (e : Event) : Does ttlMs s e (step ttlMs s e) := by
  cases e with
  | refresh now =>
      rw [step, refresh]
      split
      next => exact .answered nofun
      next hcached =>
        split
        next i hinFlight => exact .answered fun j hj => Call.awaiting.inj hj ▸ hinFlight
        next hnone => exact .started hcached hnone
  | answer i answer =>
      rw [step]
      split
      next l hl => exact .told hl answer
      next => exact .idle nofun
  | turn i =>
      rw [step]
      split
      next l hl =>
        split
        next hready => exact .turned hl hready
        next => exact .idle nofun
      next => exact .idle nofun
  | resume call =>
      rw [step, resume]
      split
      next i hwaits =>
        split
        next hcleared => exact .resumed hwaits hcleared
        next => exact .idle nofun
      next => exact .idle nofun

end A2aAgentLayer.Observability.GaugeRefresh
