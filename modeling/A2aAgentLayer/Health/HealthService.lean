import Mathlib.Data.Rat.Defs
import Mathlib.Logic.Function.Basic
import A2aAgentLayer.Lib.Instances
import A2aAgentLayer.Lib.JsText
import A2aAgentLayer.Lib.WholeDouble

/-!
# Health probes

`detail` probes the database and the blockchain node side by side.  A probe races the promise of its
check against a timer, and clears the timer when one of the two has settled.  Calls of `detail`
overlap, and the checks and timers of all of them settle in any order; a check may also settle long
after its probe gave up on it, or never.
-/

namespace A2aAgentLayer.Health.HealthService

open A2aAgentLayer.Lib.Utf16 A2aAgentLayer.Lib.JsText A2aAgentLayer.Lib.WholeDouble
open A2aAgentLayer.Lib.Run A2aAgentLayer.Lib.Instances

/-! ### Errors and the timeout -/

/-- What is read of a thrown value; a property that is no string is `none`. -/
structure Thrown where
  message : Option JsString
  code : Option JsString
  name : Option JsString

def describeError (error : Thrown) : JsString :=
  (([error.message, error.code, error.name].filterMap id).find? fun value =>
    !(trim value).isEmpty).getD (js "Unknown error")

def defaultCheckTimeoutMs : ℕ := 2000

/-- `HEALTH_CHECK_TIMEOUT_MS`, if it reads as a positive finite number. -/
def checkTimeoutMs (env : Option JsString) : ℕ :=
  match (parseInt (env.getD [])).map number with
  | some (.whole parsed) => if 0 < parsed then parsed.toNat else defaultCheckTimeoutMs
  | _ => defaultCheckTimeoutMs

/-- How long `setTimeout` waits: a delay that does not fit 32 bits becomes a millisecond. -/
def timerDelayMs (timeoutMs : ℕ) : ℕ :=
  if 1 ≤ timeoutMs ∧ timeoutMs ≤ 2147483647 then timeoutMs else 1

def timedOut (timeoutMs : ℕ) : Thrown where
  message := some (js "timed out after " ++ wholeText timeoutMs ++ js "ms")
  code := none
  name := some (js "Error")

/-! ### One probe -/

inductive Dependency where
  | database
  | blockchain
  deriving DecidableEq

def Dependency.name : Dependency → JsString
  | .database => js "database"
  | .blockchain => js "blockchain"

/-- Whether the service can answer requests without the dependency. -/
def Dependency.critical : Dependency → Bool
  | .database => true
  | .blockchain => false

inductive DependencyState where
  | up
  | down
  deriving DecidableEq

structure Details where
  blockNumber : ℕ
  deriving DecidableEq

structure DependencyHealth where
  name : JsString
  status : DependencyState
  latencyMs : ℚ
  critical : Bool
  details : Option Details
  error : Option JsString
  deriving DecidableEq

inductive Timer where
  | armed (due : ℕ)
  | fired
  | cleared
  deriving DecidableEq

/-- Times of `hrtime` are in nanoseconds.  `checkSettled` says that the promise of the check has
settled, before or after the probe answered. -/
structure Probe where
  dependency : Dependency
  timeoutMs : ℕ
  startedAt : ℕ
  timer : Timer
  checkSettled : Bool
  answer : Option DependencyHealth

def Probe.start (dependency : Dependency) (timeoutMs startedAt : ℕ) : Probe where
  dependency := dependency
  timeoutMs := timeoutMs
  startedAt := startedAt
  timer := .armed (startedAt + timerDelayMs timeoutMs * 1000000)
  checkSettled := false
  answer := none

/-- `Math.round(ns / 1e4) / 100`. -/
def elapsedMs (startedAt now : ℕ) : ℚ := ((now - startedAt + 5000) / 10000 : ℕ) / 100

/-- What a probe answers when the race ends with a value. -/
def Probe.up (p : Probe) (now : ℕ) (details : Option Details) : DependencyHealth where
  name := p.dependency.name
  status := .up
  latencyMs := elapsedMs p.startedAt now
  critical := p.dependency.critical
  details := details
  error := none

/-- What a probe answers when the race ends with an error. -/
def Probe.down (p : Probe) (now : ℕ) (error : Thrown) : DependencyHealth where
  name := p.dependency.name
  status := .down
  latencyMs := elapsedMs p.startedAt now
  critical := p.dependency.critical
  details := none
  error := some (describeError error)

/-- `clearTimeout` of a timer that fired does nothing. -/
def Timer.clear : Timer → Timer
  | .fired => .fired
  | _ => .cleared

/-- The race settles once; `finally` clears the timer. -/
def Probe.conclude (p : Probe) (answer : DependencyHealth) : Probe :=
  match p.answer with
  | some _ => p
  | none => { p with answer := some answer, timer := p.timer.clear }

inductive ProbeEvent where
  | fulfilled (details : Option Details)
  | rejected (error : Thrown)
  | timeout

/-- The promise of a check settles once.  A timer fires once, when it is due and not cleared. -/
def Probe.step (p : Probe) (now : ℕ) : ProbeEvent → Option Probe
  | .fulfilled details =>
      if p.startedAt ≤ now ∧ p.checkSettled = false then
        some ({ p with checkSettled := true }.conclude (p.up now details))
      else none
  | .rejected error =>
      if p.startedAt ≤ now ∧ p.checkSettled = false then
        some ({ p with checkSettled := true }.conclude (p.down now error))
      else none
  | .timeout =>
      match p.timer with
      | .armed due =>
          if due ≤ now then
            some ({ p with timer := .fired }.conclude (p.down now (timedOut p.timeoutMs)))
          else none
      | _ => none

/-- What an event answers for a probe that waits for it. -/
def Probe.answerTo (p : Probe) (now : ℕ) : ProbeEvent → DependencyHealth
  | .fulfilled details => p.up now details
  | .rejected error => p.down now error
  | .timeout => p.down now (timedOut p.timeoutMs)

/-! ### A call of `detail` -/

inductive Status where
  | ok
  | degraded
  | down
  deriving DecidableEq

structure HealthDetail where
  status : Status
  service : JsString
  version : JsString
  timestamp : ℤ
  uptime : ℤ
  dependencies : List DependencyHealth

def overallStatus (dependencies : List DependencyHealth) : Status :=
  let failed := dependencies.filter fun dep => decide (dep.status = .down)
  if failed.any (·.critical) then .down
  else if failed.length > 0 then .degraded
  else .ok

/-- What the process was started with; `startTime` is `Date.now()` at its start. -/
structure Process where
  timeoutEnv : Option JsString
  packageVersion : Option JsString
  startTime : ℤ

/-- The monotonic clock in nanoseconds, and `Date.now()`. -/
structure Clock where
  hrtime : ℕ
  dateNow : ℤ

structure Detail where
  probes : Dependency → Probe
  answer : Option HealthDetail

def Detail.start (process : Process) (clock : Clock) : Detail where
  probes := fun dependency =>
    Probe.start dependency (checkTimeoutMs process.timeoutEnv) clock.hrtime
  answer := none

/-- The part of `detail` after its `Promise.all`. -/
def healthDetail (process : Process) (clock : Clock) (dependencies : List DependencyHealth) :
    HealthDetail where
  status := overallStatus dependencies
  service := js "a2a-agent-layer"
  version := process.packageVersion.getD (js "0.1.0")
  timestamp := clock.dateNow
  uptime := (clock.dateNow - process.startTime) / 1000
  dependencies := dependencies

/-- The results of `Promise.all` stand in the order of its promises. -/
def Detail.results (d : Detail) : Option (List DependencyHealth) := do
  return [← (d.probes .database).answer, ← (d.probes .blockchain).answer]

def Detail.conclude (process : Process) (clock : Clock) (d : Detail) : Detail :=
  match d.answer, d.results with
  | none, some dependencies =>
      { d with answer := some (healthDetail process clock dependencies) }
  | _, _ => d

structure DetailEvent where
  dependency : Dependency
  clock : Clock
  event : ProbeEvent

def Detail.step (process : Process) (d : Detail) (e : DetailEvent) : Option Detail :=
  ((d.probes e.dependency).step e.clock.hrtime e.event).map fun p =>
    Detail.conclude process e.clock { d with probes := Function.update d.probes e.dependency p }

/-- Any number of calls of `detail`, each with its own probes. -/
abbrev serve (process : Process) : List Detail → Event Clock DetailEvent → Option (List Detail) :=
  Lib.Instances.step (Detail.start process) (Detail.step process)

/-! ### One step of a probe -/

def Timer.isArmed : Timer → Bool
  | .armed _ => true
  | _ => false

theorem isArmed_clear (timer : Timer) : timer.clear.isArmed = false := by
  cases timer <;> rfl

theorem conclude_answer (p : Probe) (answer : DependencyHealth) :
    (p.conclude answer).answer = some (p.answer.getD answer) := by
  rw [Probe.conclude]
  split
  · next a ha => rw [ha, Option.getD_some]
  · next ha => rw [ha, Option.getD_none]

/-- A probe that has answered is left alone; one that has not ends with its timer cleared. -/
theorem conclude_timer (p : Probe) (answer : DependencyHealth) :
    (p.conclude answer).timer.isArmed = (p.timer.isArmed && p.answer.isSome) := by
  rw [Probe.conclude]
  split
  · next a ha => rw [ha, Option.isSome_some, Bool.and_true]
  · next ha => rw [ha, Option.isSome_none, Bool.and_false, isArmed_clear]

theorem conclude_start (p : Probe) (answer : DependencyHealth) :
    (p.conclude answer).dependency = p.dependency ∧ (p.conclude answer).timeoutMs = p.timeoutMs
      ∧ (p.conclude answer).startedAt = p.startedAt := by
  rw [Probe.conclude]
  split <;> exact ⟨rfl, rfl, rfl⟩

/-- An event that a probe can see: the check settles after the start, the timer when it is due. -/
def Probe.sees (p : Probe) (now : ℕ) : ProbeEvent → Prop
  | .fulfilled _ => p.startedAt ≤ now ∧ p.checkSettled = false
  | .rejected _ => p.startedAt ≤ now ∧ p.checkSettled = false
  | .timeout => ∃ due, p.timer = .armed due ∧ due ≤ now

/-- All that a step of a probe does. -/
theorem step_probe {p p' : Probe} {now : ℕ} {e : ProbeEvent} (h : p.step now e = some p') :
    p.sees now e ∧ p'.answer = some (p.answer.getD (p.answerTo now e))
      ∧ (p'.timer.isArmed = true → p.timer.isArmed = true ∧ p.answer.isSome = true)
      ∧ p'.dependency = p.dependency ∧ p'.timeoutMs = p.timeoutMs
      ∧ p'.startedAt = p.startedAt := by
  cases e with
  | fulfilled details =>
      rw [Probe.step, Option.ite_none_right_eq_some, Option.some.injEq] at h
      obtain ⟨hsees, rfl⟩ := h
      refine ⟨hsees, conclude_answer _ _, fun harmed => ?_, conclude_start _ _⟩
      rw [conclude_timer] at harmed
      exact (Bool.and_eq_true _ _).mp harmed
  | rejected error =>
      rw [Probe.step, Option.ite_none_right_eq_some, Option.some.injEq] at h
      obtain ⟨hsees, rfl⟩ := h
      refine ⟨hsees, conclude_answer _ _, fun harmed => ?_, conclude_start _ _⟩
      rw [conclude_timer] at harmed
      exact (Bool.and_eq_true _ _).mp harmed
  | timeout =>
      rw [Probe.step] at h
      split at h
      · next due hdue =>
          rw [Option.ite_none_right_eq_some, Option.some.injEq] at h
          obtain ⟨hnow, rfl⟩ := h
          refine ⟨⟨due, hdue, hnow⟩, conclude_answer _ _, fun harmed => ?_, conclude_start _ _⟩
          rw [conclude_timer] at harmed
          cases harmed
      · cases h

/-! ### What the first event of each dependency decides -/

/-- The place of the first event of a dependency; the length of the list if it has none. -/
def firstOf (dependency : Dependency) (es : List DetailEvent) : ℕ :=
  es.findIdx fun e => decide (e.dependency = dependency)

/-- What a probe answers, going by the events of its call. -/
def answerOf (process : Process) (clock : Clock) (es : List DetailEvent)
    (dependency : Dependency) : Option DependencyHealth :=
  es[firstOf dependency es]?.map fun e =>
    (Probe.start dependency (checkTimeoutMs process.timeoutEnv) clock.hrtime).answerTo
      e.clock.hrtime e.event

/-- What `detail` answers, going by the events of its call: it is complete with the later one of
the two first events. -/
def detailOf (process : Process) (clock : Clock) (es : List DetailEvent) :
    Option HealthDetail := do
  let database ← answerOf process clock es .database
  let blockchain ← answerOf process clock es .blockchain
  let last ← es[max (firstOf .database es) (firstOf .blockchain es)]?
  return healthDetail process last.clock [database, blockchain]

theorem firstOf_concat (dependency : Dependency) (es : List DetailEvent) (e : DetailEvent) :
    firstOf dependency (es ++ [e])
      = if firstOf dependency es < es.length then firstOf dependency es
        else if e.dependency = dependency then es.length else es.length + 1 := by
  have hle : firstOf dependency es ≤ es.length := List.findIdx_le_length
  rw [firstOf, List.findIdx_append, ← firstOf]
  split_ifs with hlt hdep
  · rfl
  · simp [hdep]
  · simp [hdep, Nat.add_comm]

theorem answerOf_concat (process : Process) (clock : Clock) (es : List DetailEvent)
    (e : DetailEvent) (dependency : Dependency) :
    answerOf process clock (es ++ [e]) dependency
      = if e.dependency = dependency then
          some ((answerOf process clock es dependency).getD
            ((Probe.start dependency (checkTimeoutMs process.timeoutEnv) clock.hrtime).answerTo
              e.clock.hrtime e.event))
        else answerOf process clock es dependency := by
  have hle : firstOf dependency es ≤ es.length := List.findIdx_le_length
  rw [answerOf, firstOf_concat]
  by_cases hlt : firstOf dependency es < es.length
  · rw [if_pos hlt, List.getElem?_append_left hlt, ← answerOf]
    obtain ⟨a, ha⟩ : ∃ a, answerOf process clock es dependency = some a := by
      rw [answerOf, List.getElem?_eq_getElem hlt]
      exact ⟨_, rfl⟩
    rw [ha, Option.getD_some, ite_self]
  · have hnone : answerOf process clock es dependency = none := by
      rw [answerOf, List.getElem?_eq_none (by omega), Option.map_none]
    rw [if_neg hlt, hnone, Option.getD_none]
    by_cases hdep : e.dependency = dependency
    · rw [if_pos hdep, if_pos hdep, List.getElem?_concat_length, Option.map_some]
    · rw [if_neg hdep, if_neg hdep, List.getElem?_eq_none (by simp), Option.map_none]

theorem lt_length_of_answerOf {process : Process} {clock : Clock} {es : List DetailEvent}
    {dependency : Dependency} {a : DependencyHealth}
    (h : answerOf process clock es dependency = some a) : firstOf dependency es < es.length := by
  obtain ⟨e, he, -⟩ := Option.map_eq_some_iff.mp h
  exact (List.getElem?_eq_some_iff.mp he).1

theorem length_le_of_answerOf {process : Process} {clock : Clock} {es : List DetailEvent}
    {dependency : Dependency} (h : answerOf process clock es dependency = none) :
    es.length ≤ firstOf dependency es :=
  List.getElem?_eq_none_iff.mp (Option.map_eq_none_iff.mp h)

/-- The answer to a call stays, and is given by the event that makes it complete. -/
theorem detailOf_concat (process : Process) (clock : Clock) (es : List DetailEvent)
    (e : DetailEvent) :
    detailOf process clock (es ++ [e])
      = (detailOf process clock es).or do
          let database ← answerOf process clock (es ++ [e]) .database
          let blockchain ← answerOf process clock (es ++ [e]) .blockchain
          return healthDetail process e.clock [database, blockchain] := by
  have hle : ∀ dependency, firstOf dependency es ≤ es.length := fun _ => List.findIdx_le_length
  cases hdb : answerOf process clock es .database with
  | some database =>
      have hdblt := lt_length_of_answerOf hdb
      have hdb' : answerOf process clock (es ++ [e]) .database = some database := by
        rw [answerOf_concat, hdb, Option.getD_some, ite_self]
      cases hbc : answerOf process clock es .blockchain with
      | some blockchain =>
          have hbclt := lt_length_of_answerOf hbc
          have hbc' : answerOf process clock (es ++ [e]) .blockchain = some blockchain := by
            rw [answerOf_concat, hbc, Option.getD_some, ite_self]
          have hmax : max (firstOf .database es) (firstOf .blockchain es) < es.length := by omega
          have hlast : ∃ last, es[max (firstOf .database es) (firstOf .blockchain es)]?
              = some last := ⟨_, List.getElem?_eq_getElem hmax⟩
          obtain ⟨last, hlast⟩ := hlast
          simp only [detailOf, hdb, hbc, hdb', hbc', firstOf_concat, if_pos hdblt, if_pos hbclt,
            List.getElem?_append_left hmax, hlast, Option.bind_eq_bind, Option.bind_some,
            Option.pure_def, Option.some_or]
      | none =>
          have hbcle := length_le_of_answerOf hbc
          by_cases hdep : e.dependency = .blockchain
          · have hmax : max (firstOf .database (es ++ [e])) (firstOf .blockchain (es ++ [e]))
                = es.length := by
              rw [firstOf_concat, firstOf_concat, if_pos hdblt, if_neg (by omega), if_pos hdep]
              omega
            simp only [detailOf, hdb, hbc, hdb', hmax, List.getElem?_concat_length,
              Option.bind_eq_bind, Option.bind_some, Option.bind_none, Option.none_or]
          · have hbc' : answerOf process clock (es ++ [e]) .blockchain = none := by
              rw [answerOf_concat, if_neg hdep, hbc]
            simp only [detailOf, hdb, hbc, hdb', hbc', Option.bind_eq_bind, Option.bind_some,
              Option.bind_none, Option.none_or]
  | none =>
      have hdble := length_le_of_answerOf hdb
      by_cases hdep : e.dependency = .database
      · have hmax : firstOf .blockchain (es ++ [e]) ≤ es.length →
            max (firstOf .database (es ++ [e])) (firstOf .blockchain (es ++ [e]))
              = es.length := by
          intro hbc
          rw [firstOf_concat, if_neg (by omega), if_pos hdep]
          omega
        cases hbc' : answerOf process clock (es ++ [e]) .blockchain with
        | some blockchain =>
            have hbclt := lt_length_of_answerOf hbc'
            rw [List.length_append, List.length_singleton] at hbclt
            simp only [detailOf, hdb, hbc', hmax (by omega), List.getElem?_concat_length,
              Option.bind_eq_bind, Option.bind_some, Option.bind_none, Option.none_or]
        | none =>
            simp only [detailOf, hdb, hbc', Option.bind_eq_bind,
              Option.bind_none, Option.none_or]
      · have hdb' : answerOf process clock (es ++ [e]) .database = none := by
          rw [answerOf_concat, if_neg hdep, hdb]
        simp only [detailOf, hdb, hdb', Option.bind_eq_bind, Option.bind_none, Option.none_or]

/-! ### Calls along a run -/

/-- What the events of a call make of one of its probes. -/
structure Racing (process : Process) (clock : Clock) (es : List DetailEvent)
    (dep : Dependency) (p : Probe) : Prop where
  dependency : p.dependency = dep
  timeoutMs : p.timeoutMs = checkTimeoutMs process.timeoutEnv
  startedAt : p.startedAt = clock.hrtime
  answer : p.answer = answerOf process clock es dep
  waiting : p.answer = none → p.timer
    = .armed (clock.hrtime + timerDelayMs (checkTimeoutMs process.timeoutEnv) * 1000000)
  done : p.answer.isSome = true → p.timer.isArmed = false

structure Raced (process : Process) (clock : Clock) (es : List DetailEvent) (d : Detail) :
    Prop where
  probes : ∀ dependency, Racing process clock es dependency (d.probes dependency)
  answer : d.answer = detailOf process clock es

theorem raced_start (process : Process) (clock : Clock) :
    Raced process clock [] (Detail.start process clock) where
  probes := fun _ => ⟨rfl, rfl, rfl, rfl, fun _ => rfl, nofun⟩
  answer := rfl

/-- A step of a probe adds its event. -/
theorem racing_self {process : Process} {clock : Clock} {es : List DetailEvent} {p p' : Probe}
    {e : DetailEvent} (inv : Racing process clock es e.dependency p)
    (h : p.step e.clock.hrtime e.event = some p') :
    Racing process clock (es ++ [e]) e.dependency p' := by
  obtain ⟨-, hanswer, harmed, hdep, htimeout, hstart⟩ := step_probe h
  have hsame : p.answerTo e.clock.hrtime e.event
      = (Probe.start e.dependency (checkTimeoutMs process.timeoutEnv) clock.hrtime).answerTo
        e.clock.hrtime e.event := by
    cases e.event <;>
      simp only [Probe.answerTo, Probe.up, Probe.down, Probe.start, inv.dependency, inv.timeoutMs,
        inv.startedAt]
  refine ⟨hdep.trans inv.dependency, htimeout.trans inv.timeoutMs, hstart.trans inv.startedAt,
    ?_, fun hnone => ?_, fun _ => ?_⟩
  · rw [answerOf_concat, if_pos rfl, hanswer, inv.answer, hsame]
  · rw [hanswer] at hnone
    cases hnone
  · refine Bool.eq_false_iff.mpr fun hp => ?_
    obtain ⟨hp, hsome⟩ := harmed hp
    rw [inv.done hsome] at hp
    cases hp

/-- The events of the other dependency do not concern a probe. -/
theorem racing_other {process : Process} {clock : Clock} {es : List DetailEvent} {p : Probe}
    {e : DetailEvent} {dependency : Dependency} (inv : Racing process clock es dependency p)
    (hne : e.dependency ≠ dependency) : Racing process clock (es ++ [e]) dependency p :=
  { inv with
    answer := by
      rw [answerOf_concat, if_neg hne]
      exact inv.answer }

theorem conclude_detail (process : Process) (clock : Clock) (d : Detail) :
    (d.conclude process clock).probes = d.probes
      ∧ (d.conclude process clock).answer
        = d.answer.or (d.results.map (healthDetail process clock)) := by
  rw [Detail.conclude]
  split
  · next dependencies hnone hresults =>
      rw [hnone, hresults]
      exact ⟨rfl, rfl⟩
  · next hother =>
      refine ⟨rfl, ?_⟩
      cases hanswer : d.answer with
      | some a => rfl
      | none =>
          cases hresults : d.results with
          | none => rfl
          | some dependencies => exact absurd hresults (hother dependencies hanswer)

theorem raced_step {process : Process} {clock : Clock} {es : List DetailEvent} {d d' : Detail}
    {e : DetailEvent} (inv : Raced process clock es d) (h : d.step process e = some d') :
    Raced process clock (es ++ [e]) d' := by
  rw [Detail.step, Option.map_eq_some_iff] at h
  obtain ⟨p, hp, rfl⟩ := h
  have hprobes : ∀ dependency, Racing process clock (es ++ [e]) dependency
      (Function.update d.probes e.dependency p dependency) := by
    intro dependency
    by_cases heq : dependency = e.dependency
    · subst heq
      rw [Function.update_self]
      exact racing_self (inv.probes _) hp
    · rw [Function.update_of_ne heq]
      exact racing_other (inv.probes _) (Ne.symm heq)
  obtain ⟨hkept, hconclude⟩ := conclude_detail process e.clock
    { d with probes := Function.update d.probes e.dependency p }
  refine ⟨fun dependency => hkept ▸ hprobes dependency, ?_⟩
  rw [hconclude, detailOf_concat, inv.answer, Detail.results, (hprobes .database).answer,
    (hprobes .blockchain).answer]
  congr 1
  cases answerOf process clock (es ++ [e]) .database with
  | none => rfl
  | some database =>
      cases answerOf process clock (es ++ [e]) .blockchain <;> rfl

theorem raced {process : Process} {es : List (Event Clock DetailEvent)} {calls : List Detail}
    (h : run (serve process) [] es = some calls) {i : ℕ} {d : Detail} (hd : calls[i]? = some d) :
    ∃ clock, (starts es)[i]? = some clock ∧ Raced process clock (eventsOf i es) d :=
  instance_invariant _ _ (fun clock => raced_start process clock)
    (fun _ _ _ _ _ _ inv hstep => raced_step inv hstep) h hd

/-! ### What a call answers -/

def ProbeEvent.isFulfilled : ProbeEvent → Bool
  | .fulfilled _ => true
  | _ => false

theorem answerTo_status (p : Probe) (now : ℕ) (e : ProbeEvent) :
    (p.answerTo now e).status = if e.isFulfilled then .up else .down := by
  cases e <;> rfl

theorem answerTo_critical (p : Probe) (now : ℕ) (e : ProbeEvent) :
    (p.answerTo now e).critical = p.dependency.critical := by
  cases e <;> rfl

/-- The overall status of a critical dependency and one that is not. -/
theorem overallStatus_pair {database blockchain : DependencyHealth}
    (hcritical : database.critical = true) (hnot : blockchain.critical = false) :
    overallStatus [database, blockchain]
      = if database.status = .down then .down
        else if blockchain.status = .down then .degraded else .ok := by
  cases hdb : database.status <;> cases hbc : blockchain.status <;>
    simp [overallStatus, hdb, hbc, hcritical, hnot]

/-- The first event of a dependency is the fulfilment of its check. -/
def upFirst (dependency : Dependency) (es : List DetailEvent) : Prop :=
  ∃ e, es[firstOf dependency es]? = some e ∧ e.event.isFulfilled = true

theorem answerOf_eq_some {process : Process} {clock : Clock} {es : List DetailEvent}
    {dependency : Dependency} {a : DependencyHealth}
    (h : answerOf process clock es dependency = some a) :
    a.critical = dependency.critical ∧ (a.status = .up ↔ upFirst dependency es) := by
  obtain ⟨e, he, rfl⟩ := Option.map_eq_some_iff.mp h
  refine ⟨answerTo_critical _ _ _, ?_⟩
  rw [answerTo_status, upFirst, he]
  simp

/-- A text that is reported has something in it. -/
theorem trim_describeError (error : Thrown) : trim (describeError error) ≠ [] := by
  rw [describeError]
  cases hfind : ([error.message, error.code, error.name].filterMap id).find?
      fun value => !(trim value).isEmpty with
  | none => decide
  | some value =>
      have hvalue := List.find?_some hfind
      simpa using hvalue

theorem answerTo_error (p : Probe) (now : ℕ) (e : ProbeEvent) :
    ((p.answerTo now e).error.isSome = true ↔ (p.answerTo now e).status = .down)
      ∧ ∀ text, (p.answerTo now e).error = some text → trim text ≠ [] := by
  cases e with
  | fulfilled details => exact ⟨⟨nofun, nofun⟩, nofun⟩
  | rejected error =>
      refine ⟨⟨fun _ => rfl, fun _ => rfl⟩, fun text htext => ?_⟩
      rw [← Option.some.inj htext]
      exact trim_describeError _
  | timeout =>
      refine ⟨⟨fun _ => rfl, fun _ => rfl⟩, fun text htext => ?_⟩
      rw [← Option.some.inj htext]
      exact trim_describeError _

/-- **The first event of each dependency decides what a call of `detail` answers.**  It answers with
the later one of the two; whatever settles after that, and all that other calls do, leaves it as it
is. -/
theorem detail_answer_eq {process : Process} {es : List (Event Clock DetailEvent)}
    {calls : List Detail} (h : run (serve process) [] es = some calls) {i : ℕ} {d : Detail}
    (hd : calls[i]? = some d) :
    ∃ clock, (starts es)[i]? = some clock ∧ d.answer = detailOf process clock (eventsOf i es)
      ∧ ∀ a, d.answer = some a →
        (a.status = .down ↔ ¬ upFirst .database (eventsOf i es))
        ∧ (a.status = .degraded ↔
          upFirst .database (eventsOf i es) ∧ ¬ upFirst .blockchain (eventsOf i es))
        ∧ a.dependencies.map (·.name) = [js "database", js "blockchain"] := by
  obtain ⟨clock, hclock, inv⟩ := raced h hd
  refine ⟨clock, hclock, inv.answer, fun a ha => ?_⟩
  rw [inv.answer, detailOf] at ha
  obtain ⟨database, hdb, ha⟩ := Option.bind_eq_some_iff.mp ha
  obtain ⟨blockchain, hbc, ha⟩ := Option.bind_eq_some_iff.mp ha
  obtain ⟨last, -, ha⟩ := Option.bind_eq_some_iff.mp ha
  obtain rfl := Option.some.inj ha
  obtain ⟨hdbcrit, hdbup⟩ := answerOf_eq_some hdb
  obtain ⟨hbccrit, hbcup⟩ := answerOf_eq_some hbc
  have hname : ∀ (p : Probe) now e, (p.answerTo now e).name = p.dependency.name := by
    intro p now e
    cases e <;> rfl
  have hstatus : (healthDetail process last.clock [database, blockchain]).status
      = if database.status = .down then .down
        else if blockchain.status = .down then .degraded else .ok :=
    overallStatus_pair hdbcrit hbccrit
  have hdown : ∀ state : DependencyState, state = .down ↔ ¬ state = .up := by
    intro state
    cases state <;> simp
  rw [hstatus, ← hdbup, ← hbcup, ← hdown, ← hdown]
  refine ⟨?_, ?_, ?_⟩
  · cases database.status <;> cases blockchain.status <;> decide
  · cases database.status <;> cases blockchain.status <;> decide
  · obtain ⟨e, -, rfl⟩ := Option.map_eq_some_iff.mp hdb
    obtain ⟨f, -, rfl⟩ := Option.map_eq_some_iff.mp hbc
    simp only [healthDetail, List.map_cons, List.map_nil, hname]
    rfl

/-- Two calls of `detail` at once; the node hangs for the first, and answers after its timeout. -/
def hungNode : List (Event Clock DetailEvent) :=
  [ .start ⟨0, 1000⟩, .act 0 ⟨.database, ⟨4000000, 1004⟩, .fulfilled none⟩,
    .start ⟨5000000, 1005⟩, .act 1 ⟨.blockchain, ⟨9000000, 1009⟩, .fulfilled (some ⟨1207⟩)⟩,
    .act 0 ⟨.blockchain, ⟨2001000000, 3001⟩, .timeout⟩,
    .act 0 ⟨.blockchain, ⟨2500000000, 3500⟩, .fulfilled (some ⟨1208⟩)⟩ ]

def freshProcess : Process := ⟨none, none, 0⟩

theorem detail_answer_eq_hungNode :
    ∃ calls d clock, run (serve freshProcess) [] hungNode = some calls ∧ calls[0]? = some d
      ∧ (starts hungNode)[0]? = some clock
      ∧ d.answer = detailOf freshProcess clock (eventsOf 0 hungNode)
      ∧ ∀ a, d.answer = some a →
        (a.status = .down ↔ ¬ upFirst .database (eventsOf 0 hungNode))
        ∧ (a.status = .degraded ↔
          upFirst .database (eventsOf 0 hungNode) ∧ ¬ upFirst .blockchain (eventsOf 0 hungNode))
        ∧ a.dependencies.map (·.name) = [js "database", js "blockchain"] := by
  have hrun : run (serve freshProcess) [] hungNode = some _ := rfl
  obtain ⟨clock, h⟩ := detail_answer_eq hrun (i := 0) rfl
  exact ⟨_, _, clock, rfl, rfl, h⟩

/-- **A call of `detail` answers by the timeout, and then it has no timer left.**  It does so
whether or not its checks ever settle: it waits only while one of its timers is overdue or still to
come. -/
theorem detail_answers_by_timeout {process : Process} {es : List (Event Clock DetailEvent)}
    {calls : List Detail} (h : run (serve process) [] es = some calls) {i : ℕ} {d : Detail}
    (hd : calls[i]? = some d) :
    ∃ clock, (starts es)[i]? = some clock
      ∧ (∀ t, (∀ dep due, (d.probes dep).timer = .armed due → t < due) →
        clock.hrtime + timerDelayMs (checkTimeoutMs process.timeoutEnv) * 1000000 ≤ t →
          d.answer.isSome = true)
      ∧ (d.answer.isSome = true → ∀ dep, (d.probes dep).timer.isArmed = false)
      ∧ ∀ a, d.answer = some a → ∀ dep ∈ a.dependencies,
        (dep.error.isSome = true ↔ dep.status = .down)
        ∧ ∀ text, dep.error = some text → trim text ≠ [] := by
  obtain ⟨clock, hclock, inv⟩ := raced h hd
  have hsome : ∀ dep, (d.probes dep).answer.isSome = true →
      ∃ a, answerOf process clock (eventsOf i es) dep = some a := by
    intro dep hsome
    rw [(inv.probes dep).answer] at hsome
    exact Option.isSome_iff_exists.mp hsome
  refine ⟨clock, hclock, fun t hdue ht => ?_, fun hanswer dep => ?_, fun a ha => ?_⟩
  · have hanswered : ∀ dep, (d.probes dep).answer.isSome = true := by
      intro dep
      by_contra hnone
      rw [Bool.not_eq_true, Option.isSome_eq_false_iff, Option.isNone_iff_eq_none] at hnone
      have := hdue dep _ ((inv.probes dep).waiting hnone)
      omega
    obtain ⟨database, hdb⟩ := hsome .database (hanswered .database)
    obtain ⟨blockchain, hbc⟩ := hsome .blockchain (hanswered .blockchain)
    have hdblt := lt_length_of_answerOf hdb
    have hbclt := lt_length_of_answerOf hbc
    rw [inv.answer, detailOf, hdb, hbc, List.getElem?_eq_getElem (by omega)]
    rfl
  · rw [inv.answer, detailOf] at hanswer
    obtain ⟨a, ha⟩ := Option.isSome_iff_exists.mp hanswer
    obtain ⟨database, hdb, ha⟩ := Option.bind_eq_some_iff.mp ha
    obtain ⟨blockchain, hbc, -⟩ := Option.bind_eq_some_iff.mp ha
    refine (inv.probes dep).done ?_
    rw [(inv.probes dep).answer]
    cases dep with
    | database => rw [hdb, Option.isSome_some]
    | blockchain => rw [hbc, Option.isSome_some]
  · rw [inv.answer, detailOf] at ha
    obtain ⟨database, hdb, ha⟩ := Option.bind_eq_some_iff.mp ha
    obtain ⟨blockchain, hbc, ha⟩ := Option.bind_eq_some_iff.mp ha
    obtain ⟨last, -, ha⟩ := Option.bind_eq_some_iff.mp ha
    obtain rfl := Option.some.inj ha
    obtain ⟨e, -, rfl⟩ := Option.map_eq_some_iff.mp hdb
    obtain ⟨f, -, rfl⟩ := Option.map_eq_some_iff.mp hbc
    intro dep hdep
    rcases List.mem_pair.mp hdep with rfl | rfl
    · exact answerTo_error _ _ _
    · exact answerTo_error _ _ _

theorem detail_answers_by_timeout_hungNode :
    ∃ calls d clock, run (serve freshProcess) [] hungNode = some calls ∧ calls[1]? = some d
      ∧ (starts hungNode)[1]? = some clock
      ∧ (∀ t, (∀ dep due, (d.probes dep).timer = .armed due → t < due) →
        clock.hrtime + timerDelayMs (checkTimeoutMs freshProcess.timeoutEnv) * 1000000 ≤ t →
          d.answer.isSome = true)
      ∧ (d.answer.isSome = true → ∀ dep, (d.probes dep).timer.isArmed = false)
      ∧ ∀ a, d.answer = some a → ∀ dep ∈ a.dependencies,
        (dep.error.isSome = true ↔ dep.status = .down)
        ∧ ∀ text, dep.error = some text → trim text ≠ [] := by
  have hrun : run (serve freshProcess) [] hungNode = some _ := rfl
  obtain ⟨clock, h⟩ := detail_answers_by_timeout hrun (i := 1) rfl
  exact ⟨_, _, clock, rfl, rfl, h⟩

end A2aAgentLayer.Health.HealthService
