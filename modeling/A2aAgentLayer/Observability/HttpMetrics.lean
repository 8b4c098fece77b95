import A2aAgentLayer.Lib.JsText
import A2aAgentLayer.Lib.Run
import Mathlib.Algebra.BigOperators.Group.List.Basic
import Mathlib.Algebra.Order.Field.Rat
import Mathlib.Data.List.Perm.Basic

/-!
# Counting HTTP requests

`HttpMetricsMiddleware` raises a gauge when a request arrives and hangs two listeners on its
response.  The listener that runs first lowers the gauge and records the request; `settled` stops
the other one.  Requests arrive, and responses emit `finish` and `close`, in any order.

`visits` reads off the events alone which requests there have been and what the first event of each
was.  The gauge, the counter and the histogram are functions of it.
-/

namespace A2aAgentLayer.Observability.HttpMetrics

open A2aAgentLayer.Lib.Utf16 A2aAgentLayer.Lib.Run

/-! ### Metrics -/

/-- `toUpperCase` on the ASCII text of a method. -/
def toUpperCase (s : JsString) : JsString :=
  s.map fun u => if unit 'a' ≤ u ∧ u ≤ unit 'z' then u - 32 else u

def knownMethods : List JsString :=
  [js "GET", js "POST", js "PUT", js "PATCH", js "DELETE", js "HEAD", js "OPTIONS"]

def normalizeMethod (method : Option JsString) : JsString :=
  let upper := toUpperCase (method.getD [])
  if knownMethods.contains upper then upper else js "OTHER"

structure Labels where
  method : JsString
  status : JsString
  deriving DecidableEq

/-- The upper bounds of the histogram's buckets, in seconds. -/
def buckets : List ℚ :=
  [5 / 1000, 10 / 1000, 25 / 1000, 50 / 1000, 100 / 1000, 250 / 1000, 500 / 1000, 1, 5 / 2, 5, 10]

/-- A series of a histogram: for each bucket the number of observations up to its bound. -/
structure Series where
  count : ℕ
  sum : ℚ
  upTo : List ℕ
  deriving DecidableEq

def Series.empty : Series := ⟨0, 0, buckets.map fun _ => 0⟩

def Series.observe (series : Series) (value : ℚ) : Series where
  count := series.count + 1
  sum := series.sum + value
  upTo := List.zipWith (fun bound n => if value ≤ bound then n + 1 else n) buckets series.upTo

/-- `httpInFlight`, `httpRequests` and `httpDuration`. -/
structure Metrics where
  inFlight : ℤ
  requests : Labels → ℕ
  duration : Labels → Series

def Metrics.initial : Metrics := ⟨0, fun _ => 0, fun _ => Series.empty⟩

/-- `observeHttpRequest`. -/
def Metrics.observeHttpRequest (metrics : Metrics) (method : Option JsString) (statusCode : ℕ)
    (durationSeconds : ℚ) : Metrics :=
  let labels : Labels := ⟨normalizeMethod method, natText statusCode⟩
  { metrics with
    requests := Function.update metrics.requests labels (metrics.requests labels + 1)
    duration := Function.update metrics.duration labels
      ((metrics.duration labels).observe durationSeconds) }

/-! ### The middleware -/

structure Request where
  method : Option JsString
  originalUrl : Option JsString
  url : Option JsString

def Request.path (req : Request) : JsString :=
  (((req.originalUrl <|> req.url).getD []).splitOn (unit '?')).headD []

/-- The scrape itself is not counted. -/
def Request.counted (req : Request) : Bool := decide (req.path ≠ js "/metrics")

/-- A request that has passed the middleware: what its closure holds, and which of the two
listeners still wait. -/
structure Passed where
  req : Request
  startedAt : ℤ
  settled : Bool
  onFinish : Bool
  onClose : Bool

/-- What a response emits, with the fields that a listener reads. -/
inductive Signal where
  | finish (statusCode : ℕ)
  | close (statusCode : ℕ) (writableEnded : Bool)
  deriving DecidableEq

/-- Times are readings of the clock in nanoseconds. -/
inductive Event where
  | arrive (req : Request) (now : ℤ)
  | emit (i : ℕ) (signal : Signal) (now : ℤ)

structure State where
  passed : List Passed
  metrics : Metrics

def initial : State := ⟨[], Metrics.initial⟩

/-- `use`, up to the call of `next`. -/
def use (s : State) (req : Request) (now : ℤ) : State :=
  if req.counted then
    ⟨s.passed ++ [⟨req, now, false, true, true⟩],
      { s.metrics with inFlight := s.metrics.inFlight + 1 }⟩
  else ⟨s.passed ++ [⟨req, now, false, false, false⟩], s.metrics⟩

def seconds (startedAt now : ℤ) : ℚ := ((now - startedAt : ℤ) : ℚ) / 1000000000

def settle (metrics : Metrics) (p : Passed) (statusCode : ℕ) (now : ℤ) : Passed × Metrics :=
  if p.settled then (p, metrics)
  else
    ({ p with settled := true },
      { metrics with inFlight := metrics.inFlight - 1 }.observeHttpRequest p.req.method statusCode
        (seconds p.startedAt now))

/-- The listeners of a signal: `once` takes a listener off before it runs. -/
def listen (metrics : Metrics) (p : Passed) (signal : Signal) (now : ℤ) : Passed × Metrics :=
  match signal with
  | .finish statusCode =>
      if p.onFinish then settle metrics { p with onFinish := false } statusCode now
      else (p, metrics)
  | .close statusCode writableEnded =>
      if p.onClose then
        settle metrics { p with onClose := false } (if writableEnded then statusCode else 499) now
      else (p, metrics)

/-- A response can emit once its request has arrived. -/
def step (s : State) : Event → Option State
  | .arrive req now => some (use s req now)
  | .emit i signal now =>
      s.passed[i]?.map fun p =>
        let (after, metrics) := listen s.metrics p signal now
        ⟨s.passed.set i after, metrics⟩

/-! ### The requests of a run -/

/-- A request, when it arrived, and its first event. -/
structure Visit where
  req : Request
  startedAt : ℤ
  first : Option (Signal × ℤ)

def arrivals (es : List Event) : List (Request × ℤ) :=
  es.filterMap fun
    | .arrive req now => some (req, now)
    | .emit _ _ _ => none

/-- The first event of the response of request `i`. -/
def firstEvent (es : List Event) (i : ℕ) : Option (Signal × ℤ) :=
  es.findSome? fun
    | .arrive _ _ => none
    | .emit j signal now => if j = i then some (signal, now) else none

def visits (es : List Event) : List Visit :=
  (arrivals es).mapIdx fun i arrival => ⟨arrival.1, arrival.2, firstEvent es i⟩

/-- Counted, and without an event yet. -/
def Visit.inFlight (v : Visit) : Bool := v.req.counted && v.first.isNone

/-- The status that a first event stands for. -/
def Signal.recorded : Signal → ℕ
  | .finish statusCode => statusCode
  | .close statusCode true => statusCode
  | .close _ false => 499

/-- The duration that the request adds under some labels. -/
def Visit.observed (labels : Labels) (v : Visit) : Option ℚ :=
  match v.first with
  | none => none
  | some (signal, now) =>
      if v.req.counted ∧ labels = ⟨normalizeMethod v.req.method, natText signal.recorded⟩ then
        some (seconds v.startedAt now)
      else none

/-- The series of some durations. -/
def Series.of (durations : List ℚ) : Series where
  count := durations.length
  sum := durations.sum
  upTo := buckets.map fun bound => durations.countP fun d => decide (d ≤ bound)

/-- The metrics as the events determine them. -/
structure Exact (es : List Event) (s : State) : Prop where
  inFlight : s.metrics.inFlight = ((visits es).countP Visit.inFlight : ℕ)
  requests : ∀ labels, s.metrics.requests labels
    = ((visits es).filterMap (Visit.observed labels)).length
  duration : ∀ labels, s.metrics.duration labels
    = Series.of ((visits es).filterMap (Visit.observed labels))

/-! ### Histograms -/

theorem Series.of_cons (d : ℚ) (ds : List ℚ) : Series.of (d :: ds) = (Series.of ds).observe d := by
  have hbucket : ∀ bound, (d :: ds).countP (fun x => decide (x ≤ bound))
      = if d ≤ bound then ds.countP (fun x => decide (x ≤ bound)) + 1
        else ds.countP fun x => decide (x ≤ bound) := by
    intro bound
    by_cases hd : d ≤ bound
    · rw [List.countP_cons_of_pos (by exact decide_eq_true hd), if_pos hd]
    · rw [List.countP_cons_of_neg (by simpa using hd), if_neg hd]
  simp only [Series.of, Series.observe, List.length_cons, List.sum_cons, add_comm d, hbucket,
    List.zipWith_map_right, List.zipWith_self]

/-- The order of the observations does not matter. -/
theorem Series.of_perm {ds es : List ℚ} (h : ds.Perm es) : Series.of ds = Series.of es := by
  simp only [Series.of, h.length_eq, h.sum_eq, h.countP_eq]

/-! ### One entry of a list -/

theorem exists_split {α : Type*} {l : List α} {i : ℕ} {a : α} (h : l[i]? = some a) :
    ∃ xs ys, l = xs ++ a :: ys ∧ ∀ b, l.set i b = xs ++ b :: ys := by
  obtain ⟨hi, rfl⟩ := List.getElem?_eq_some_iff.mp h
  refine ⟨l.take i, l.drop (i + 1), ?_, ?_⟩
  · rw [List.getElem_cons_drop, List.take_append_drop]
  · intro b
    rw [List.set_eq_take_append_cons_drop, if_pos hi]

/-! ### Visits, event by event -/

theorem arrivals_append (es fs : List Event) : arrivals (es ++ fs) = arrivals es ++ arrivals fs :=
  List.filterMap_append

theorem firstEvent_append (es fs : List Event) (i : ℕ) :
    firstEvent (es ++ fs) i = (firstEvent es i).or (firstEvent fs i) :=
  List.findSome?_append

theorem length_visits (es : List Event) : (visits es).length = (arrivals es).length :=
  List.length_mapIdx

theorem visits_arrive {es : List Event} (h : firstEvent es (arrivals es).length = none)
    (req : Request) (now : ℤ) :
    visits (es ++ [.arrive req now]) = visits es ++ [⟨req, now, none⟩] := by
  have hfirst : ∀ i, firstEvent (es ++ [.arrive req now]) i = firstEvent es i := by
    intro i
    rw [firstEvent_append]
    exact Option.or_none
  have harrivals : arrivals (es ++ [.arrive req now]) = arrivals es ++ [(req, now)] :=
    arrivals_append es [.arrive req now]
  simp only [visits, hfirst, harrivals, List.mapIdx_concat, h]

theorem visits_emit {es : List Event} {i : ℕ} {v : Visit} (h : (visits es)[i]? = some v)
    (signal : Signal) (now : ℤ) : visits (es ++ [.emit i signal now])
      = (visits es).set i { v with first := v.first.or (some (signal, now)) } := by
  have harrivals : arrivals (es ++ [.emit i signal now]) = arrivals es := by
    rw [arrivals_append]
    exact List.append_nil _
  have hlt : i < (visits es).length := (List.getElem?_eq_some_iff.mp h).1
  rw [visits, List.getElem?_mapIdx, Option.map_eq_some_iff] at h
  obtain ⟨arrival, harrival, rfl⟩ := h
  refine List.ext_getElem? fun j => ?_
  rw [List.getElem?_set, visits, List.getElem?_mapIdx, harrivals]
  by_cases hj : i = j
  · subst hj
    rw [if_pos rfl, if_pos hlt, harrival, Option.map_some, firstEvent_append]
    simp only [firstEvent, List.findSome?_cons, if_true]
  · have hother : firstEvent [.emit i signal now] j = none := by
      simp only [firstEvent, List.findSome?_cons, if_neg hj, List.findSome?_nil]
    rw [if_neg hj, visits, List.getElem?_mapIdx, firstEvent_append, hother, Option.or_none]

/-! ### What a listener does -/

/-- The closure of a request and its listeners, after what the request has been through. -/
structure Follows (v : Visit) (p : Passed) : Prop where
  req : p.req = v.req
  startedAt : p.startedAt = v.startedAt
  settled : p.settled = (v.req.counted && v.first.isSome)
  listening : v.inFlight = true → p.onFinish = true ∧ p.onClose = true
  silent : v.req.counted = false → p.onFinish = false ∧ p.onClose = false

/-- The metrics after the first event of a request. -/
def recordFirst (metrics : Metrics) (v : Visit) (signal : Signal) (now : ℤ) : Metrics :=
  { metrics with inFlight := metrics.inFlight - 1 }.observeHttpRequest v.req.method signal.recorded
    (seconds v.startedAt now)

theorem Follows.record {v : Visit} {p : Passed} (h : Follows v p) (hv : v.inFlight = true)
    (first : Signal × ℤ) (onFinish onClose : Bool) :
    Follows { v with first := some first }
      { p with settled := true, onFinish := onFinish, onClose := onClose } := by
  have hcounted : v.req.counted = true := (Bool.and_eq_true_iff.mp hv).1
  refine ⟨h.req, h.startedAt, ?_, ?_, ?_⟩
  · rw [hcounted]
    rfl
  · intro hinFlight
    rw [Visit.inFlight, Option.isNone_some, Bool.and_false] at hinFlight
    cases hinFlight
  · intro huncounted
    rw [hcounted] at huncounted
    cases huncounted

theorem Follows.unlisten {v : Visit} {p : Passed} (h : Follows v p) (hv : v.inFlight = false)
    (hcounted : v.req.counted = true) (onFinish onClose : Bool) :
    Follows v { p with onFinish := onFinish, onClose := onClose } := by
  refine ⟨h.req, h.startedAt, h.settled, ?_, ?_⟩
  · intro hinFlight
    rw [hv] at hinFlight
    cases hinFlight
  · intro huncounted
    rw [hcounted] at huncounted
    cases huncounted

/-- The first event of a request. -/
theorem listen_of_inFlight {v : Visit} {p : Passed} (h : Follows v p) (hv : v.inFlight = true)
    (metrics : Metrics) (signal : Signal) (now : ℤ) :
    Follows { v with first := v.first.or (some (signal, now)) } (listen metrics p signal now).1
      ∧ (listen metrics p signal now).2 = recordFirst metrics v signal now := by
  obtain ⟨hfinish, hclose⟩ := h.listening hv
  have hnone : v.first = none := Option.isNone_iff_eq_none.mp (Bool.and_eq_true_iff.mp hv).2
  have hunsettled : p.settled ≠ true := by
    rw [h.settled, hnone, Option.isSome_none, Bool.and_false]
    exact Bool.false_ne_true
  have hrecord : recordFirst metrics v signal now
      = { metrics with inFlight := metrics.inFlight - 1 }.observeHttpRequest p.req.method
        signal.recorded (seconds p.startedAt now) := by
    rw [recordFirst, h.req, h.startedAt]
  rw [hnone, Option.none_or, hrecord]
  cases signal with
  | finish statusCode =>
      rw [listen, if_pos hfinish, settle, if_neg (by exact hunsettled)]
      exact ⟨h.record hv _ false p.onClose, rfl⟩
  | close statusCode writableEnded =>
      rw [listen, if_pos hclose, settle, if_neg (by exact hunsettled)]
      refine ⟨h.record hv _ p.onFinish false, ?_⟩
      cases writableEnded with
      | true => rfl
      | false => rfl

/-- A listener that finds its request settled. -/
theorem listen_settled {p : Passed} (h : p.settled = true) (metrics : Metrics) (signal : Signal)
    (now : ℤ) : ∃ onFinish onClose, listen metrics p signal now
      = ({ p with onFinish := onFinish, onClose := onClose }, metrics) := by
  cases signal with
  | finish statusCode =>
      rw [listen]
      split_ifs
      · exact ⟨false, p.onClose, if_pos h⟩
      · exact ⟨p.onFinish, p.onClose, rfl⟩
  | close statusCode writableEnded =>
      rw [listen]
      split_ifs
      · exact ⟨p.onFinish, false, if_pos h⟩
      · exact ⟨p.onFinish, false, if_pos h⟩
      · exact ⟨p.onFinish, p.onClose, rfl⟩

/-- A later event, or one of a request that is not counted. -/
theorem listen_of_not_inFlight {v : Visit} {p : Passed} (h : Follows v p)
    (hv : v.inFlight = false) (metrics : Metrics) (signal : Signal) (now : ℤ) :
    Follows { v with first := v.first.or (some (signal, now)) } (listen metrics p signal now).1
      ∧ (listen metrics p signal now).2 = metrics := by
  cases hcounted : v.req.counted with
  | false =>
      obtain ⟨hfinish, hclose⟩ := h.silent hcounted
      have hlisten : listen metrics p signal now = (p, metrics) := by
        cases signal with
        | finish statusCode => rw [listen, hfinish, if_neg Bool.false_ne_true]
        | close statusCode writableEnded => rw [listen, hclose, if_neg Bool.false_ne_true]
      rw [hlisten]
      refine ⟨⟨h.req, h.startedAt, ?_, ?_, h.silent⟩, rfl⟩
      · rw [h.settled, hcounted, Bool.false_and, Bool.false_and]
      · intro hinFlight
        rw [Visit.inFlight, hcounted] at hinFlight
        cases hinFlight
  | true =>
      obtain ⟨first, hfirst⟩ : ∃ first, v.first = some first := by
        rw [Visit.inFlight, hcounted, Bool.true_and, Option.isNone_eq_false_iff] at hv
        exact Option.isSome_iff_exists.mp hv
      have hsettled : p.settled = true := by
        rw [h.settled, hcounted, hfirst]
        rfl
      have hsame : ({ v with first := v.first.or (some (signal, now)) } : Visit) = v := by
        rw [hfirst, Option.some_or, ← hfirst]
      obtain ⟨onFinish, onClose, hlisten⟩ := listen_settled hsettled metrics signal now
      rw [hsame, hlisten]
      exact ⟨h.unlisten hv hcounted onFinish onClose, rfl⟩

/-! ### Runs -/

theorem exists_follows {visits : List Visit} {passed : List Passed}
    (h : List.Forall₂ Follows visits passed) {i : ℕ} {p : Passed} (hp : passed[i]? = some p) :
    ∃ v, visits[i]? = some v ∧ Follows v p
      ∧ ∀ v' p', Follows v' p' → List.Forall₂ Follows (visits.set i v') (passed.set i p') := by
  induction h generalizing i with
  | nil => cases hp
  | cons hfollows hrest ih =>
      cases i with
      | zero =>
          obtain rfl := Option.some.inj hp
          exact ⟨_, rfl, hfollows, fun v' p' h' => .cons h' hrest⟩
      | succ i =>
          obtain ⟨v, hv, hfollows', hset⟩ := ih hp
          exact ⟨v, hv, hfollows', fun v' p' h' => .cons hfollows (hset v' p' h')⟩

/-- The state of the middleware as the events determine it. -/
structure Tracks (es : List Event) (s : State) : Prop where
  passed : List.Forall₂ Follows (visits es) s.passed
  unseen : ∀ i, (visits es).length ≤ i → firstEvent es i = none
  metrics : Exact es s

/-- The metrics stay exact when nothing more has been observed. -/
theorem Exact.unobserved {es fs : List Event} {s t : State} (h : Exact es s)
    (hinFlight : t.metrics.inFlight = (visits fs).countP Visit.inFlight)
    (hobserved : ∀ labels, (visits fs).filterMap (Visit.observed labels)
      = (visits es).filterMap (Visit.observed labels))
    (hrequests : t.metrics.requests = s.metrics.requests)
    (hduration : t.metrics.duration = s.metrics.duration) : Exact fs t := by
  refine ⟨hinFlight, fun labels => ?_, fun labels => ?_⟩
  · rw [hobserved, hrequests]
    exact h.requests labels
  · rw [hobserved, hduration]
    exact h.duration labels

theorem use_eq (s : State) (req : Request) (now : ℤ) :
    use s req now = ⟨s.passed ++ [⟨req, now, false, req.counted, req.counted⟩],
      { s.metrics with inFlight := s.metrics.inFlight + if req.counted then 1 else 0 }⟩ := by
  rw [use]
  cases req.counted with
  | true => rfl
  | false =>
      show _ = State.mk _ { s.metrics with inFlight := s.metrics.inFlight + 0 }
      rw [add_zero]
      rfl

theorem follows_arrived (req : Request) (now : ℤ) :
    Follows ⟨req, now, none⟩ ⟨req, now, false, req.counted, req.counted⟩ := by
  refine ⟨rfl, rfl, (Bool.and_false _).symm, fun hinFlight => ?_, fun huncounted =>
    ⟨huncounted, huncounted⟩⟩
  have hcounted : req.counted = true := (Bool.and_eq_true_iff.mp hinFlight).1
  exact ⟨hcounted, hcounted⟩

theorem Tracks.arrive {es : List Event} {s : State} (h : Tracks es s) (req : Request) (now : ℤ) :
    Tracks (es ++ [.arrive req now]) (use s req now) := by
  have hvisits : visits (es ++ [.arrive req now]) = visits es ++ [⟨req, now, none⟩] :=
    visits_arrive (h.unseen _ (length_visits es).le) req now
  rw [use_eq]
  refine ⟨?_, ?_, h.metrics.unobserved ?_ ?_ rfl rfl⟩
  · rw [hvisits]
    exact List.rel_append h.passed (.cons (follows_arrived req now) .nil)
  · intro i hi
    rw [hvisits, List.length_append] at hi
    rw [firstEvent_append, h.unseen i (Nat.le_of_add_right_le hi)]
    rfl
  · rw [hvisits, List.countP_append, List.countP_singleton, Visit.inFlight, Option.isNone_none,
      Bool.and_true, Nat.cast_add, ← h.metrics.inFlight, Nat.cast_ite, Nat.cast_one, Nat.cast_zero]
  · intro labels
    rw [hvisits, List.filterMap_append]
    exact List.append_nil _

/-- The labels under which a request is recorded. -/
def Visit.labels (v : Visit) (signal : Signal) : Labels :=
  ⟨normalizeMethod v.req.method, natText signal.recorded⟩

theorem Visit.observed_of_inFlight {v : Visit} (h : v.inFlight = true) (labels : Labels) :
    v.observed labels = none := by
  have hnone : v.first = none := Option.isNone_iff_eq_none.mp (Bool.and_eq_true_iff.mp h).2
  rw [Visit.observed, hnone]

theorem Visit.observed_first {v : Visit} (h : v.inFlight = true) (signal : Signal) (now : ℤ)
    (labels : Labels) : Visit.observed labels { v with first := some (signal, now) }
      = if labels = v.labels signal then some (seconds v.startedAt now) else none := by
  have hcounted : v.req.counted = true := (Bool.and_eq_true_iff.mp h).1
  show (if v.req.counted = true ∧ labels = v.labels signal then _ else _) = _
  by_cases hlabels : labels = v.labels signal
  · rw [if_pos ⟨hcounted, hlabels⟩, if_pos hlabels]
  · rw [if_neg fun h => hlabels h.2, if_neg hlabels]

/-- An event of a request that is not in flight does not show in its visit. -/
theorem Visit.later {v : Visit} (h : v.inFlight = false) (first : Signal × ℤ) :
    Visit.inFlight { v with first := v.first.or (some first) } = false
      ∧ ∀ labels, Visit.observed labels { v with first := v.first.or (some first) }
        = v.observed labels := by
  cases hfirst : v.first with
  | some earlier =>
      refine ⟨?_, fun labels => ?_⟩
      · rw [Visit.inFlight, Option.some_or, Option.isNone_some, Bool.and_false]
      · rw [Option.some_or, ← hfirst]
  | none =>
      rw [Visit.inFlight, hfirst, Option.isNone_none, Bool.and_true] at h
      refine ⟨?_, fun labels => ?_⟩
      · rw [Visit.inFlight, h, Bool.false_and]
      · have huncounted : ¬ (v.req.counted = true
            ∧ labels = ⟨normalizeMethod v.req.method, natText first.1.recorded⟩) := by
          rw [h]
          exact fun hand => Bool.false_ne_true hand.1
        rw [Option.none_or, Visit.observed, Visit.observed, hfirst]
        exact if_neg huncounted

section FirstEvent

variable {es : List Event} {i : ℕ} {v : Visit} (hv : (visits es)[i]? = some v)
  (hinFlight : v.inFlight = true) (signal : Signal) (now : ℤ)

include hv hinFlight

theorem countP_inFlight_record : (visits (es ++ [.emit i signal now])).countP Visit.inFlight + 1
    = (visits es).countP Visit.inFlight := by
  have hnone : v.first = none := Option.isNone_iff_eq_none.mp (Bool.and_eq_true_iff.mp hinFlight).2
  have hafter : Visit.inFlight { v with first := some (signal, now) } = false := by
    rw [Visit.inFlight, Option.isNone_some, Bool.and_false]
  obtain ⟨xs, ys, hsplit, hset⟩ := exists_split hv
  rw [visits_emit hv, hset, hnone, Option.none_or, hsplit, List.countP_append, List.countP_append,
    List.countP_cons_of_pos hinFlight, List.countP_cons_of_neg (ne_true_of_eq_false hafter),
    Nat.add_assoc]

theorem observed_record (labels : Labels) :
    ((visits (es ++ [.emit i signal now])).filterMap (Visit.observed labels)).Perm
      ((if labels = v.labels signal then [seconds v.startedAt now] else [])
        ++ (visits es).filterMap (Visit.observed labels)) := by
  have hnone : v.first = none := Option.isNone_iff_eq_none.mp (Bool.and_eq_true_iff.mp hinFlight).2
  have hfirst := Visit.observed_first hinFlight signal now labels
  obtain ⟨xs, ys, hsplit, hset⟩ := exists_split hv
  rw [visits_emit hv, hset, hnone, Option.none_or, hsplit, List.filterMap_append,
    List.filterMap_append, List.filterMap_cons_none (Visit.observed_of_inFlight hinFlight labels)]
  by_cases hlabels : labels = v.labels signal
  · rw [if_pos hlabels] at hfirst ⊢
    rw [List.filterMap_cons_some hfirst]
    exact List.perm_middle
  · rw [if_neg hlabels] at hfirst ⊢
    rw [List.filterMap_cons_none hfirst]
    exact List.Perm.refl _

/-- What the first event of a counted request does to the metrics. -/
theorem Exact.record {s : State} (h : Exact es s) (passed : List Passed) :
    Exact (es ++ [.emit i signal now]) ⟨passed, recordFirst s.metrics v signal now⟩ := by
  have hcount := countP_inFlight_record hv hinFlight signal now
  have hobserved := observed_record hv hinFlight signal now
  refine ⟨?_, ?_, ?_⟩
  · show s.metrics.inFlight - 1 = _
    rw [h.inFlight, ← hcount, Nat.cast_succ, add_sub_cancel_right]
  · intro labels
    show Function.update s.metrics.requests (v.labels signal) _ labels = _
    rw [(hobserved labels).length_eq, List.length_append, ← h.requests]
    by_cases hlabels : labels = v.labels signal
    · rw [if_pos hlabels, hlabels, Function.update_self, Nat.add_comm]
      rfl
    · rw [if_neg hlabels, Function.update_of_ne hlabels]
      exact (Nat.zero_add _).symm
  · intro labels
    show Function.update s.metrics.duration (v.labels signal) _ labels = _
    rw [Series.of_perm (hobserved labels)]
    by_cases hlabels : labels = v.labels signal
    · rw [if_pos hlabels, hlabels, Function.update_self, List.singleton_append, Series.of_cons,
        ← h.duration]
      rfl
    · rw [if_neg hlabels, Function.update_of_ne hlabels, List.nil_append]
      exact h.duration labels

end FirstEvent

/-- Any other event leaves the metrics as they are. -/
theorem Exact.keep {es : List Event} {s : State} (h : Exact es s) {i : ℕ} {v : Visit}
    (hv : (visits es)[i]? = some v) (hinFlight : v.inFlight = false) (signal : Signal) (now : ℤ)
    (passed : List Passed) :
    Exact (es ++ [.emit i signal now]) ⟨passed, s.metrics⟩ := by
  obtain ⟨xs, ys, hsplit, hset⟩ := exists_split hv
  have hvisits := (visits_emit hv signal now).trans (hset _)
  obtain ⟨hafter, hsame⟩ := Visit.later hinFlight (signal, now)
  refine h.unobserved ?_ ?_ rfl rfl
  · show s.metrics.inFlight = _
    rw [h.inFlight, hvisits, hsplit, List.countP_append, List.countP_append,
      List.countP_cons_of_neg (ne_true_of_eq_false hinFlight),
      List.countP_cons_of_neg (ne_true_of_eq_false hafter)]
  · intro labels
    rw [hvisits, hsplit, List.filterMap_append, List.filterMap_append, List.filterMap_cons,
      List.filterMap_cons, hsame]

theorem Tracks.emit {es : List Event} {s : State} (h : Tracks es s) {i : ℕ} {p : Passed}
    (hp : s.passed[i]? = some p) (signal : Signal) (now : ℤ) :
    Tracks (es ++ [.emit i signal now])
      ⟨s.passed.set i (listen s.metrics p signal now).1, (listen s.metrics p signal now).2⟩ := by
  obtain ⟨v, hv, hfollows, hset⟩ := exists_follows h.passed hp
  have hvisits := visits_emit hv signal now
  have hunseen : ∀ j, (visits (es ++ [.emit i signal now])).length ≤ j →
      firstEvent (es ++ [.emit i signal now]) j = none := by
    intro j hj
    rw [hvisits, List.length_set] at hj
    have hi := (List.getElem?_eq_some_iff.mp hv).1
    have hne : i ≠ j := by omega
    rw [firstEvent_append, h.unseen j hj]
    simp only [firstEvent, List.findSome?_cons, if_neg hne, List.findSome?_nil, Option.none_or]
  cases hinFlight : v.inFlight with
  | true =>
      obtain ⟨hfollows', hmetrics⟩ := listen_of_inFlight hfollows hinFlight s.metrics signal now
      refine ⟨?_, hunseen, ?_⟩
      · rw [hvisits]
        exact hset _ _ hfollows'
      · rw [hmetrics]
        exact h.metrics.record hv hinFlight signal now _
  | false =>
      obtain ⟨hfollows', hmetrics⟩ := listen_of_not_inFlight hfollows hinFlight s.metrics signal now
      refine ⟨?_, hunseen, ?_⟩
      · rw [hvisits]
        exact hset _ _ hfollows'
      · rw [hmetrics]
        exact h.metrics.keep hv hinFlight signal now _

theorem tracks : ∀ es s, run step initial es = some s → Tracks es s := by
  refine run_induction step ?_ ?_
  · exact ⟨.nil, fun _ _ => rfl, rfl, fun _ => rfl, fun _ => rfl⟩
  · intro es s e t _ h hstep
    cases e with
    | arrive req now =>
        obtain rfl := Option.some.inj hstep
        exact h.arrive req now
    | emit i signal now =>
        obtain ⟨p, hp, rfl⟩ := Option.map_eq_some_iff.mp hstep
        exact h.emit hp signal now

/-- **Every request is counted once.**  After any run the gauge is the number of counted requests
without an event, so it is never negative and zero when all have had one; and each counted request
that has had an event is one request of the counter and one observation of the histogram, under the
status of its first event. -/
theorem metrics_exact {es : List Event} {s : State} (hrun : run step initial es = some s) :
    Exact es s ∧ 0 ≤ s.metrics.inFlight
      ∧ ((∀ v ∈ visits es, v.req.counted = true → v.first.isSome = true) →
        s.metrics.inFlight = 0) := by
  have hexact := (tracks es s hrun).metrics
  refine ⟨hexact, ?_, ?_⟩
  · rw [hexact.inFlight]
    exact Int.natCast_nonneg _
  · intro hall
    have hnone : (visits es).countP Visit.inFlight = 0 := by
      refine List.countP_eq_zero.mpr fun v hv hinFlight => ?_
      obtain ⟨hcounted, hfirst⟩ := Bool.and_eq_true_iff.mp hinFlight
      have hsome := hall v hv hcounted
      rw [Option.isNone_iff_eq_none.mp hfirst] at hsome
      cases hsome
    rw [hexact.inFlight, hnone]
    rfl

/-- A page that is answered, a client that goes away, and a scrape. -/
def threeRequests : List Event :=
  [ .arrive ⟨some (js "get"), some (js "/services?limit=5"), none⟩ 0,
    .arrive ⟨some (js "POST"), some (js "/a2a/request"), none⟩ 1000000,
    .arrive ⟨some (js "GET"), some (js "/metrics"), none⟩ 2000000,
    .emit 1 (.close 200 false) 3000000, .emit 2 (.finish 200) 4000000,
    .emit 0 (.finish 429) 5000000, .emit 0 (.close 429 true) 6000000 ]

theorem threeRequests_exact : ∃ s, run step initial threeRequests = some s
    ∧ Exact threeRequests s ∧ 0 ≤ s.metrics.inFlight
    ∧ ((∀ v ∈ visits threeRequests, v.req.counted = true → v.first.isSome = true) →
      s.metrics.inFlight = 0) :=
  ⟨_, rfl, metrics_exact rfl⟩

end A2aAgentLayer.Observability.HttpMetrics
