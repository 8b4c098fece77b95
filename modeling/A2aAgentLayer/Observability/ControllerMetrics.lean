import Mathlib.Data.List.Dedup
import Mathlib.Data.List.ProdSigma
import A2aAgentLayer.Common.ServedRequests
import A2aAgentLayer.Identity.DidController
import A2aAgentLayer.Lib.Histogram
import A2aAgentLayer.Observability.HttpMetrics

/-!
# Timing the controllers

`ControllerMetricsInterceptor` starts a timer when a request has passed the guards and observes it,
with the status that the handler or its exception stands for, when the handler is through.  It
stands in the pipeline beside the interceptors that write the log, and the exception filters come
after it.

The metrics endpoint is not timed.  Class names are ASCII; contexts other than HTTP are left out.
-/

namespace A2aAgentLayer.Observability.ControllerMetrics

open A2aAgentLayer.Lib.Utf16 A2aAgentLayer.Lib.Run A2aAgentLayer.Lib.Instances
open A2aAgentLayer.Lib.Histogram
open A2aAgentLayer.Common.RequestPipeline (Arrival Exchange Exception Outcome Phase Response User
  Written arrive httpStatuses Served served_step)
open A2aAgentLayer.Identity.DidController (toLowerCase)
open A2aAgentLayer.Observability.HttpMetrics (normalizeMethod knownMethods seconds)

/-- `CONTROLLER_DURATION_BUCKETS`. -/
def controllerDurationBuckets : List ℚ :=
  [5 / 1000, 10 / 1000, 25 / 1000, 50 / 1000, 100 / 1000, 250 / 1000, 500 / 1000, 1, 5 / 2, 5, 10,
    30, 60]

/-- The text without `Controller` at its end. -/
def withoutSuffix (className : JsString) : JsString :=
  if (js "Controller").isSuffixOf className then className.take (className.length - 10)
  else className

def controllerLabel (className : JsString) : JsString :=
  let base := withoutSuffix className
  toLowerCase (if base = [] then className else base)

def statusOf : Exception → ℕ
  | .http status _ _ _ => status
  | e => e.status.getD 500

/-- The handler that a request is routed to; `route` is `req.route?.path`. -/
structure Target where
  className : JsString
  handler : JsString
  route : Option JsString
  isMetricsController : Bool

structure Labels where
  controller : JsString
  handler : JsString
  method : JsString
  route : JsString
  status : JsString
  deriving DecidableEq

def unmatchedRoute : JsString := js "unmatched"

def labelsOf (target : Target) (method : JsString) (status : ℕ) : Labels where
  controller := controllerLabel target.className
  handler := target.handler
  method := normalizeMethod (some method)
  route := target.route.getD unmatchedRoute
  status := natText status

/-! ### Requests with a timer -/

/-- A request that arrives for a handler. -/
structure Routed where
  arrival : Arrival
  target : Target

/-- An event of the pipeline, with the clock of the timers in nanoseconds. -/
structure Event where
  inner : Common.RequestPipeline.Event
  hrtime : ℤ

structure Call where
  exchange : Exchange
  target : Target
  startedAt : Option ℤ

def route (r : Routed) : Call := ⟨arrive r.arrival, r.target, none⟩

inductive Effect where
  | line (written : Written)
  | observation (labels : Labels) (seconds : ℚ)

def Effect.line? : Effect → Option Written
  | .line written => some written
  | .observation _ _ => none

def Effect.observation? : Effect → Option (Labels × ℚ)
  | .line _ => none
  | .observation labels seconds => some (labels, seconds)

/-- What the end of the handler observes. -/
def observations (x : Call) (e : Event) : List Effect :=
  match x.startedAt with
  | none => []
  | some startedAt =>
      let observe status :=
        [.observation (labelsOf x.target x.exchange.request.method status)
          (seconds startedAt e.hrtime)]
      match e.inner, x.exchange.phase with
      | .return _, .handling _ statusCode _ => observe statusCode
      | .throw thrown _, .handling _ _ _ => observe (statusOf thrown)
      | _, _ => []

/-- The timer after an event. -/
def timer (x : Call) (e : Event) : Option ℤ :=
  match e.inner with
  | .enter _ _ _ => if x.target.isMetricsController then none else some e.hrtime
  | _ => x.startedAt

def step (isProd : Bool) (x : Call) (e : Event) : Option (Call × List Effect) :=
  (Common.RequestPipeline.step isProd x.exchange e.inner).map fun y =>
    (⟨y.1, x.target, timer x e⟩, observations x e ++ y.2.map .line)

/-- Any number of requests; their log lines and their observations in one list. -/
abbrev serve (isProd : Bool) :
    List Call × List (ℕ × Effect) → Lib.Instances.Event Routed Event →
      Option (List Call × List (ℕ × Effect)) :=
  stepLogged route (step isProd)

/-- The log lines of request `i`. -/
def linesOf (i : ℕ) (effects : List (ℕ × Effect)) : List Written :=
  (entriesOf i effects).filterMap Effect.line?

def allObservations (effects : List (ℕ × Effect)) : List (Labels × ℚ) :=
  effects.filterMap fun entry => entry.2.observation?

/-- `http_controller_duration_seconds`. -/
def duration (effects : List (ℕ × Effect)) : Labels → Series :=
  observed controllerDurationBuckets (allObservations effects)

/-- The labels that an answered request stands for, if it was handled and timed. -/
def Call.labels (x : Call) : Option Labels :=
  if x.target.isMetricsController then none
  else
    match x.exchange.phase with
    | .answered outcome _ =>
        outcome.reported.map fun status => labelsOf x.target x.exchange.request.method status
    | _ => none

theorem statusOf_eq (e : Exception) : statusOf e = e.status.getD 500 := by
  cases e <;> rfl

/-! ### One request -/

/-- While the handler runs the timer does, too, unless it is that of the metrics. -/
def Timed (x : Call) : Prop :=
  match x.exchange.phase with
  | .handling _ _ _ => x.startedAt.isNone = x.target.isMetricsController
  | _ => True

theorem labels_of_waiting {x : Call}
    (h : ∀ outcome response, x.exchange.phase ≠ .answered outcome response) : x.labels = none := by
  rw [Call.labels]
  split_ifs
  · rfl
  · cases hphase : x.exchange.phase with
    | answered outcome response => exact absurd hphase (h outcome response)
    | _ => rfl

/-- The lines of the pipeline are no observations. -/
theorem filterMap_line (lines : List Written) {β : Type} (f : Labels × ℚ → β) :
    (lines.map Effect.line).filterMap (fun effect => effect.observation?.map f) = [] := by
  rw [List.filterMap_map]
  exact List.filterMap_eq_nil_iff.mpr fun _ _ => rfl

/-- The timer is read when the handler is through. -/
theorem observations_eq_nil (x : Call) {inner : Common.RequestPipeline.Event} (hrtime : ℤ)
    (hreturn : ∀ now, inner ≠ .return now) (hthrow : ∀ thrown now, inner ≠ .throw thrown now) :
    observations x ⟨inner, hrtime⟩ = [] := by
  rw [observations]
  cases x.startedAt with
  | none => rfl
  | some startedAt =>
      cases inner with
      | «return» now => exact absurd rfl (hreturn now)
      | throw thrown now => exact absurd rfl (hthrow thrown now)
      | _ => rfl

/-- Where a handler ends with a status, its observation is that of the answered request. -/
theorem observed_perm {x : Call} {e : Event} {status : ℕ} {outcome : Outcome}
    {response : Response} {user : Option User} {statusCode : ℕ} {now : ℤ}
    (hphase : x.exchange.phase = .handling user statusCode now) (h : Timed x)
    (hreported : outcome.reported = some status)
    (hobserved : ∀ startedAt, x.startedAt = some startedAt → observations x e
      = [.observation (labelsOf x.target x.exchange.request.method status)
          (seconds startedAt e.hrtime)]) (after : Option ℤ) :
    (x.labels.toList
        ++ (observations x e).filterMap fun effect => effect.observation?.map Prod.fst).Perm
      (Call.labels
        ⟨{ x.exchange with phase := .answered outcome response }, x.target, after⟩).toList := by
  have htimed : x.startedAt.isNone = x.target.isMetricsController := by
    rw [Timed, hphase] at h
    exact h
  have hafter : Call.labels
      ⟨{ x.exchange with phase := .answered outcome response }, x.target, after⟩
      = if x.target.isMetricsController then none
        else some (labelsOf x.target x.exchange.request.method status) := by
    simp only [Call.labels, hreported, Option.map_some]
  have hbefore : x.labels = none := labels_of_waiting fun _ _ h => nomatch hphase.symm.trans h
  rw [hbefore, hafter, Option.toList_none, List.nil_append]
  cases hstarted : x.startedAt with
  | none =>
      rw [if_pos (show x.target.isMetricsController = true by rw [← htimed, hstarted]; rfl),
        observations, hstarted]
      exact List.Perm.refl _
  | some startedAt =>
      rw [if_neg (show ¬ x.target.isMetricsController = true by rw [← htimed, hstarted]; nofun),
        hobserved startedAt hstarted]
      exact List.Perm.refl _

theorem timed_step {isProd : Bool} {x y : Call} {e : Event} {more : List Effect} (h : Timed x)
    (hstep : step isProd x e = some (y, more)) :
    Timed y
      ∧ (x.labels.toList ++ more.filterMap fun effect => effect.observation?.map Prod.fst).Perm
        y.labels.toList := by
  obtain ⟨inner, hrtime⟩ := e
  obtain ⟨⟨exchange, lines⟩, hinner, heq⟩ := Option.map_eq_some_iff.mp hstep
  obtain ⟨rfl, rfl⟩ := Prod.mk.inj heq
  rw [List.filterMap_append, filterMap_line, List.append_nil]
  cases inner with
  | write text =>
      obtain ⟨rfl, rfl⟩ := Prod.mk.inj (Option.some.inj hinner)
      have hnone : observations x ⟨.write text, hrtime⟩ = [] :=
        observations_eq_nil x hrtime (fun _ h => by cases h) fun _ _ h => by cases h
      refine ⟨h, ?_⟩
      rw [hnone]
      exact List.append_nil _ ▸ List.Perm.refl _
  | reject thrown now =>
      rw [Common.RequestPipeline.step] at hinner
      split at hinner
      · next hphase =>
          obtain ⟨rfl, rfl⟩ := Prod.mk.inj (Option.some.inj hinner)
          have hbefore : x.labels = none :=
            labels_of_waiting fun _ _ h => by cases hphase.symm.trans h
          have hnone : observations x ⟨.reject thrown now, hrtime⟩ = [] :=
            observations_eq_nil x hrtime (fun _ h => by cases h) fun _ _ h => by cases h
          refine ⟨trivial, ?_⟩
          rw [hnone, hbefore]
          simp only [Call.labels, Outcome.reported, Option.map_none, ite_self]
          exact List.Perm.refl _
      · cases hinner
  | enter user statusCode now =>
      rw [Common.RequestPipeline.step] at hinner
      split at hinner
      · next hphase =>
          obtain ⟨rfl, rfl⟩ := Prod.mk.inj (Option.some.inj hinner)
          have hbefore : x.labels = none :=
            labels_of_waiting fun _ _ h => by cases hphase.symm.trans h
          have hnone : observations x ⟨.enter user statusCode now, hrtime⟩ = [] :=
            observations_eq_nil x hrtime (fun _ h => by cases h) fun _ _ h => by cases h
          refine ⟨?_, ?_⟩
          · show (timer x ⟨.enter user statusCode now, hrtime⟩).isNone
              = x.target.isMetricsController
            rw [timer]
            cases x.target.isMetricsController <;> rfl
          · rw [hnone, hbefore, labels_of_waiting fun _ _ h => Phase.noConfusion h]
            exact List.Perm.refl _
      · cases hinner
  | «return» now =>
      rw [Common.RequestPipeline.step] at hinner
      split at hinner
      · next user statusCode startedAt hphase =>
          obtain ⟨rfl, rfl⟩ := Prod.mk.inj (Option.some.inj hinner)
          refine ⟨trivial, observed_perm hphase h rfl (fun _ hstarted => ?_) _⟩
          rw [observations, hstarted, hphase]
      · cases hinner
  | throw thrown now =>
      rw [Common.RequestPipeline.step] at hinner
      split at hinner
      · next user statusCode startedAt hphase =>
          obtain ⟨rfl, rfl⟩ := Prod.mk.inj (Option.some.inj hinner)
          refine ⟨trivial, observed_perm hphase h rfl (fun _ hstarted => ?_) _⟩
          rw [← statusOf_eq, observations, hstarted, hphase]
      · cases hinner

/-- The labels of the observations are those of the answered requests. -/
theorem answered_perm {isProd : Bool} {es : List (Lib.Instances.Event Routed Event)}
    {s : List Call × List (ℕ × Effect)} (h : run (serve isProd) ([], []) es = some s) :
    ((allObservations s.2).map Prod.fst).Perm (s.1.filterMap Call.labels) := by
  rw [allObservations, List.map_filterMap]
  exact logged_perm route (step isProd) (I := Timed)
    (r := fun effect => effect.observation?.map Prod.fst)
    (fun _ => ⟨trivial, ite_self none⟩) (fun _ _ _ _ hx hstep => timed_step hx hstep) h

/-! ### The lines of a timed request -/

theorem observations_line (x : Call) (e : Event) :
    (observations x e).filterMap Effect.line? = [] := by
  refine List.filterMap_eq_nil_iff.mpr fun effect heffect => ?_
  cases effect with
  | observation labels seconds => rfl
  | line written =>
      rw [observations] at heffect
      split at heffect
      · exact absurd heffect List.not_mem_nil
      · split at heffect
        · exact nomatch List.mem_singleton.mp heffect
        · exact nomatch List.mem_singleton.mp heffect
        · exact absurd heffect List.not_mem_nil

/-- A request with a timer is served as one without. -/
theorem served_call {isProd : Bool} {es : List (Lib.Instances.Event Routed Event)}
    {s : List Call × List (ℕ × Effect)} (h : run (serve isProd) ([], []) es = some s) {i : ℕ}
    {x : Call} (hx : s.1[i]? = some x) :
    ∃ r, (starts es)[i]? = some r ∧ Served isProd r.arrival x.exchange (linesOf i s.2) := by
  refine logged_invariant route (step isProd)
    (I := fun r _ x effects => Served isProd r.arrival x.exchange (effects.filterMap Effect.line?))
    (fun _ => ⟨rfl, rfl, fun _ h => absurd h List.not_mem_nil, ⟨rfl, rfl⟩, trivial⟩) ?_ h hx
  intro r events x effects e y more inv hstep
  obtain ⟨⟨exchange, lines⟩, hinner, heq⟩ := Option.map_eq_some_iff.mp hstep
  obtain ⟨rfl, rfl⟩ := Prod.mk.inj heq
  have hlines : (lines.map Effect.line).filterMap Effect.line? = lines := by
    rw [List.filterMap_map]
    exact List.filterMap_some
  rw [List.filterMap_append, List.filterMap_append, observations_line, List.nil_append, hlines]
  exact served_step inv hinner

/-- A registration that breaks a unique constraint, a page of the metrics, and a request that a
guard does not let through, at once. -/
def mixed (detail : JsString) : List (Lib.Instances.Event Routed Event) :=
  [ .start ⟨⟨⟨js "POST", js "/agents", none, none, none⟩, js "5d20", by decide⟩,
      ⟨js "AgentController", js "register", some (js "/agents"), false⟩⟩,
    .start ⟨⟨⟨js "GET", js "/metrics", none, none, none⟩, js "e8b1", by decide⟩,
      ⟨js "MetricsController", js "scrape", some (js "/metrics"), true⟩⟩,
    .start ⟨⟨⟨js "GET", js "/policies", none, none, none⟩, js "c0de", by decide⟩,
      ⟨js "PolicyController", js "findAll", some (js "/policies"), false⟩⟩,
    .act 0 ⟨.enter none 201 1000, 5000⟩, .act 1 ⟨.enter none 200 1001, 6000⟩,
    .act 2 ⟨.reject (.http 401 (.object none (some (js "Unauthorized"))) (js "Missing key")
      (js "UnauthorizedException")) 1002, 7000⟩,
    .act 0 ⟨.throw (.queryFailed (some (js "23505")) (some (js "agents_did_key")) detail) 1012,
      17005000⟩,
    .act 1 ⟨.return 1013, 18000000⟩ ]

/-- **A timed request is observed once.**  However requests overlap, a series of the histogram has
one observation for each request of its labels that the guards let through to a handler other than
that of the metrics, and that has its answer.  The status label is that of the request's HTTP line,
unless it is 0; it is the status that was sent exactly for the outcomes with a status of their
own. -/
theorem calls_observed_once {isProd : Bool} {es : List (Lib.Instances.Event Routed Event)}
    {s : List Call × List (ℕ × Effect)} (h : run (serve isProd) ([], []) es = some s) :
    (∀ labels, (duration s.2 labels).count
        = s.1.countP fun x => decide (x.labels = some labels))
      ∧ ∀ i x labels, s.1[i]? = some x → x.labels = some labels →
        ∃ outcome response status logged, x.exchange.phase = .answered outcome response
          ∧ labels.status = natText status
          ∧ httpStatuses (linesOf i s.2) = [logged] ∧ (status ≠ 0 → status = logged)
          ∧ (status = response.status ↔ outcome.OwnStatus) := by
  refine ⟨fun labels => ?_, fun i x labels hx hlabels => ?_⟩
  · rw [duration, count_observed, (answered_perm h).count_eq, List.count_filterMap]
    exact List.countP_congr fun x _ => by simp
  · obtain ⟨r, -, inv⟩ := served_call h hx
    have hlines := inv.lines
    have hsends := inv.sends
    rw [Call.labels] at hlabels
    split_ifs at hlabels
    cases hphase : x.exchange.phase with
    | answered outcome response =>
        rw [hphase] at hlabels hlines hsends
        obtain ⟨status, hreported, rfl⟩ := Option.map_eq_some_iff.mp hlabels
        have hlogged : ∃ logged, outcome.logged = some logged ∧ (status ≠ 0 → status = logged) := by
          cases outcome with
          | rejected e => exact nomatch hreported
          | returned statusCode => exact ⟨status, hreported, fun _ => rfl⟩
          | threw e =>
              obtain rfl := Option.some.inj hreported
              exact ⟨_, rfl, fun hne => (if_neg hne).symm⟩
        obtain ⟨logged, hlogged, hstatus⟩ := hlogged
        refine ⟨outcome, response, status, logged, rfl, rfl, ?_, hstatus,
          hsends.answer.2.2 status hreported⟩
        rw [hlines.2, hlogged, Option.toList_some]
    | arrived =>
        rw [hphase] at hlabels
        cases hlabels
    | handling user statusCode startedAt =>
        rw [hphase] at hlabels
        cases hlabels

theorem calls_observed_once_mixed :
    ∃ s, run (serve true) ([], []) (mixed []) = some s
      ∧ (∀ labels, (duration s.2 labels).count
        = s.1.countP fun x => decide (x.labels = some labels))
      ∧ ∀ i x labels, s.1[i]? = some x → x.labels = some labels →
        ∃ outcome response status logged, x.exchange.phase = .answered outcome response
          ∧ labels.status = natText status
          ∧ httpStatuses (linesOf i s.2) = [logged] ∧ (status ≠ 0 → status = logged)
          ∧ (status = response.status ↔ outcome.OwnStatus) :=
  have h : run (serve true) ([], []) (mixed []) = some _ := rfl
  ⟨_, rfl, calls_observed_once h⟩

/-! ### The number of series -/

/-- What the labels take from the handler. -/
def endpoint (target : Target) : JsString × JsString × JsString :=
  (controllerLabel target.className, target.handler, target.route.getD unmatchedRoute)

def methodLabels : List JsString := knownMethods ++ [js "OTHER"]

/-- The status that an answered request is observed with. -/
def Call.status (x : Call) : Option ℕ :=
  match x.exchange.phase with
  | .answered outcome _ => outcome.reported
  | _ => none

theorem normalizeMethod_mem (method : Option JsString) : normalizeMethod method ∈ methodLabels := by
  rw [normalizeMethod]
  split_ifs with h
  · exact List.mem_append_left _ (List.contains_iff_mem.mp h)
  · exact List.mem_append_right _ (List.mem_singleton.mpr rfl)

/-- The label sets of some endpoints and statuses. -/
def labelSets (endpoints : List (JsString × JsString × JsString)) (statuses : List ℕ) :
    List Labels :=
  (endpoints ×ˢ methodLabels ×ˢ statuses).map fun p =>
    ⟨p.1.1, p.1.2.1, p.2.1, p.1.2.2, natText p.2.2⟩

theorem length_labelSets (endpoints : List (JsString × JsString × JsString)) (statuses : List ℕ) :
    (labelSets endpoints statuses).length = endpoints.length * (8 * statuses.length) := by
  rw [labelSets, List.length_map, List.length_product, List.length_product]
  rfl

theorem labels_mem {x : Call} {labels : Labels} (h : x.labels = some labels)
    {endpoints : List (JsString × JsString × JsString)} {statuses : List ℕ}
    (hendpoint : endpoint x.target ∈ endpoints)
    (hstatus : ∀ status, x.status = some status → status ∈ statuses) :
    labels ∈ labelSets endpoints statuses := by
  rw [Call.labels] at h
  split_ifs at h
  cases hphase : x.exchange.phase with
  | answered outcome response =>
      rw [hphase] at h
      obtain ⟨status, hreported, rfl⟩ := Option.map_eq_some_iff.mp h
      have hmem : status ∈ statuses := hstatus status (by rw [Call.status, hphase]; exact hreported)
      exact List.mem_map.mpr ⟨(endpoint x.target, normalizeMethod _, status),
        List.mem_product.mpr ⟨hendpoint, List.mem_product.mpr ⟨normalizeMethod_mem _, hmem⟩⟩, rfl⟩
  | arrived =>
      rw [hphase] at h
      cases h
  | handling user statusCode startedAt =>
      rw [hphase] at h
      cases h

/-- **The number of series does not grow with the requests.**  Whatever the URLs and the methods of
the requests, the histogram has at most eight series for each endpoint and status among them. -/
theorem series_bounded {isProd : Bool} {es : List (Lib.Instances.Event Routed Event)}
    {s : List Call × List (ℕ × Effect)} (h : run (serve isProd) ([], []) es = some s) :
    ((allObservations s.2).map Prod.fst).dedup.length
      ≤ (s.1.map fun x => endpoint x.target).dedup.length
        * (8 * (s.1.filterMap Call.status).dedup.length) := by
  rw [← length_labelSets]
  refine (List.subperm_of_subset (List.nodup_dedup _) fun labels hlabels => ?_).length_le
  obtain ⟨x, hx, hxl⟩ :=
    List.mem_filterMap.mp ((answered_perm h).mem_iff.mp (List.mem_dedup.mp hlabels))
  exact labels_mem hxl (List.mem_dedup.mpr (List.mem_map_of_mem hx)) fun status hstatus =>
    List.mem_dedup.mpr (List.mem_filterMap.mpr ⟨x, hx, hstatus⟩)

theorem series_bounded_mixed :
    ∃ s, run (serve true) ([], []) (mixed []) = some s
      ∧ ((allObservations s.2).map Prod.fst).dedup.length
        ≤ (s.1.map fun x => endpoint x.target).dedup.length
          * (8 * (s.1.filterMap Call.status).dedup.length) :=
  have h : run (serve true) ([], []) (mixed []) = some _ := rfl
  ⟨_, rfl, series_bounded h⟩

end A2aAgentLayer.Observability.ControllerMetrics
