import A2aAgentLayer.Common.RequestPipeline

/-!
# The id and the log of a request

Along every run of overlapping requests, what one request has written and been sent belongs to it:
one id from its arrival to its answer, and the lines of the interceptors once, with its answer.
-/

namespace A2aAgentLayer.Common.RequestPipeline

open A2aAgentLayer.Lib.Utf16 A2aAgentLayer.Lib.JsText A2aAgentLayer.Lib.Run
open A2aAgentLayer.Lib.Instances A2aAgentLayer.Common.RequestHeaders

/-! ### One id -/

/-- An answer of the filters states no other id, and its lines are none of the interceptors'. -/
structure Filtered (requestId : JsString) (answer : Response × List Line) : Prop where
  header : answer.1.requestId = requestId
  body : ∀ body, answer.1.body = some body → ∀ id ∈ body.requestIds, id = requestId
  lines : ∀ line ∈ answer.2, (∀ id ∈ line.requestIds, id = requestId) ∧ line.auditStatus = none
    ∧ line.httpStatus = none

theorem filtered_allExceptions (isProd : Bool) (request : Request) (requestId : JsString) (now : ℤ)
    (e : Exception) : Filtered requestId (allExceptionsFilter isProd request requestId now e) where
  header := rfl
  body := by
    intro body hbody id hid
    obtain rfl := Option.some.inj hbody
    exact List.mem_singleton.mp hid
  lines := by
    intro line hline
    simp only [allExceptionsFilter] at hline
    split_ifs at hline with hstatus
    · obtain rfl := List.mem_singleton.mp hline
      exact ⟨fun id hid => List.mem_singleton.mp hid, rfl, rfl⟩
    · exact absurd hline List.not_mem_nil

/-- The bodies of the database filter state no id, and neither do its lines. -/
theorem filtered_database {requestId : JsString} {status : ℕ} {message : JsString}
    {code constraint : Option JsString} {lines : List Line}
    (hlines : ∀ line ∈ lines, line.requestIds = [] ∧ line.auditStatus = none
      ∧ line.httpStatus = none) :
    Filtered requestId
      (⟨status, requestId, some (.database status message code constraint)⟩, lines) where
  header := rfl
  body := by
    intro body hbody id hid
    obtain rfl := Option.some.inj hbody
    exact absurd hid List.not_mem_nil
  lines := by
    intro line hline
    obtain ⟨hids, hrest⟩ := hlines line hline
    exact ⟨fun id hid => absurd (hids ▸ hid) List.not_mem_nil, hrest⟩

theorem filtered_filtered (isProd : Bool) (request : Request) (requestId : JsString) (now : ℤ)
    (e : Exception) : Filtered requestId (filtered isProd request requestId now e) := by
  have herror : ∀ code message, Filtered requestId (databaseError requestId code message) := by
    refine fun code message => filtered_database fun line hline => ?_
    obtain rfl := List.mem_singleton.mp hline
    exact ⟨rfl, rfl, rfl⟩
  cases e with
  | http status response message name =>
      exact filtered_allExceptions isProd request requestId now (.http status response message name)
  | entityNotFound message => exact filtered_database fun _ h => absurd h List.not_mem_nil
  | queryFailed code constraint message =>
      rw [filtered]
      cases mapped code with
      | none => exact herror code message
      | some p =>
          refine filtered_database fun line hline => ?_
          obtain rfl := List.mem_singleton.mp hline
          exact ⟨rfl, rfl, rfl⟩
  | typeorm message => exact herror none message
  | error message name status =>
      exact filtered_allExceptions isProd request requestId now (.error message name status)
  | thrown status => exact filtered_allExceptions isProd request requestId now (.thrown status)

theorem intercepted_requestIds (request : Request) (requestId : JsString) (user : Option User)
    (startedAt now : ℤ) (failed : Bool) (auditStatus httpStatus : ℕ) :
    ∀ line ∈ intercepted request requestId user startedAt now failed auditStatus httpStatus,
      ∀ id ∈ line.requestIds, id = requestId := by
  intro line hline id hid
  rw [intercepted, List.mem_append] at hline
  rcases hline with hline | hline
  · split_ifs at hline
    · obtain rfl := List.mem_singleton.mp hline
      exact List.mem_singleton.mp hid
    · exact absurd hline List.not_mem_nil
  · obtain rfl := List.mem_singleton.mp hline
    exact List.mem_singleton.mp hid

theorem intercepted_statuses (request : Request) (requestId : JsString) (user : Option User)
    (startedAt now : ℤ) (failed : Bool) (auditStatus httpStatus : ℕ) :
    let lines := intercepted request requestId user startedAt now failed auditStatus httpStatus
    lines.filterMap Line.auditStatus = (if mutating request.method then [auditStatus] else [])
      ∧ lines.filterMap Line.httpStatus = [httpStatus] := by
  rw [intercepted]
  split_ifs <;> exact ⟨rfl, rfl⟩

/-! ### One request along a run -/

def auditStatuses (lines : List Written) : List ℕ := lines.filterMap fun w => w.line.auditStatus

def httpStatuses (lines : List Written) : List ℕ := lines.filterMap fun w => w.line.httpStatus

/-- The lines that the interceptors have written. -/
def Phase.Lines (request : Request) (lines : List Written) : Phase → Prop
  | .answered outcome _ =>
      auditStatuses lines = (if mutating request.method then outcome.reported.toList else [])
        ∧ httpStatuses lines = outcome.logged.toList
  | _ => auditStatuses lines = [] ∧ httpStatuses lines = []

/-- What is sent to the client. -/
def Phase.Sends (isProd : Bool) (request : Request) (requestId : JsString) : Phase → Prop
  | .answered (.returned statusCode) response => response = ⟨statusCode, requestId, none⟩
  | .answered (.rejected e) response =>
      ∃ now, response = (filtered isProd request requestId now e).1
  | .answered (.threw e) response => ∃ now, response = (filtered isProd request requestId now e).1
  | _ => True

structure Served (isProd : Bool) (a : Arrival) (x : Exchange) (lines : List Written) : Prop where
  request : x.request = a.request
  requestId : x.requestId = requestIdOf a.request a.uuid
  ids : ∀ w ∈ lines, w.contextId = x.requestId ∧ ∀ id ∈ w.line.requestIds, id = x.requestId
  lines : x.phase.Lines x.request lines
  sends : x.phase.Sends isProd x.request x.requestId

theorem auditStatuses_append (xs ys : List Written) :
    auditStatuses (xs ++ ys) = auditStatuses xs ++ auditStatuses ys := List.filterMap_append

theorem httpStatuses_append (xs ys : List Written) :
    httpStatuses (xs ++ ys) = httpStatuses xs ++ httpStatuses ys := List.filterMap_append

/-- The lines of an interceptor or a filter, with the id of their context. -/
theorem statuses_map (requestId : JsString) (lines : List Line) :
    auditStatuses (lines.map fun line => ⟨requestId, line⟩) = lines.filterMap Line.auditStatus
      ∧ httpStatuses (lines.map fun line => ⟨requestId, line⟩)
        = lines.filterMap Line.httpStatus := by
  rw [auditStatuses, httpStatuses, List.filterMap_map, List.filterMap_map]
  exact ⟨rfl, rfl⟩

theorem Filtered.statuses {requestId : JsString} {answer : Response × List Line}
    (h : Filtered requestId answer) :
    answer.2.filterMap Line.auditStatus = [] ∧ answer.2.filterMap Line.httpStatus = [] :=
  ⟨List.filterMap_eq_nil_iff.mpr fun line hline => (h.lines line hline).2.1,
    List.filterMap_eq_nil_iff.mpr fun line hline => (h.lines line hline).2.2⟩

theorem ids_append {requestId : JsString} {lines : List Written} (more : List Line)
    (hlines : ∀ w ∈ lines, w.contextId = requestId ∧ ∀ id ∈ w.line.requestIds, id = requestId)
    (hmore : ∀ line ∈ more, ∀ id ∈ line.requestIds, id = requestId) :
    ∀ w ∈ lines ++ more.map fun line => ⟨requestId, line⟩,
      w.contextId = requestId ∧ ∀ id ∈ w.line.requestIds, id = requestId := by
  intro w hw
  rcases List.mem_append.mp hw with hw | hw
  · exact hlines w hw
  · obtain ⟨line, hline, rfl⟩ := List.mem_map.mp hw
    exact ⟨rfl, hmore line hline⟩

section Steps

variable {isProd : Bool} {a : Arrival} {x y : Exchange} {lines more : List Written}

/-- A line of the service changes no statuses. -/
theorem served_write {text : JsString} (inv : Served isProd a x lines)
    (h : step isProd x (.write text) = some (y, more)) : Served isProd a y (lines ++ more) := by
  obtain ⟨rfl, rfl⟩ := Prod.mk.inj (Option.some.inj h)
  have hids := ids_append [.service text] inv.ids fun line hline id hid => by
    rw [List.mem_singleton.mp hline] at hid
    exact absurd hid List.not_mem_nil
  refine ⟨inv.request, inv.requestId, hids, ?_, inv.sends⟩
  have hlines := inv.lines
  cases hphase : x.phase <;> rw [hphase] at hlines <;>
    simpa [Phase.Lines, auditStatuses_append, httpStatuses_append, auditStatuses, httpStatuses,
      Line.auditStatus, Line.httpStatus] using hlines

/-- In front of the interceptors only the filters write. -/
theorem served_reject {e : Exception} {now : ℤ} (inv : Served isProd a x lines)
    (h : step isProd x (.reject e now) = some (y, more)) : Served isProd a y (lines ++ more) := by
  rw [step] at h
  split at h
  · next hphase =>
      obtain ⟨rfl, rfl⟩ := Prod.mk.inj (Option.some.inj h)
      have hfiltered := filtered_filtered isProd x.request x.requestId now e
      obtain ⟨haudit, hhttp⟩ := hfiltered.statuses
      have hlines := inv.lines
      rw [hphase] at hlines
      refine ⟨inv.request, inv.requestId,
        ids_append _ inv.ids fun line hline => (hfiltered.lines line hline).1, ⟨?_, ?_⟩, now,
        rfl⟩
      · rw [auditStatuses_append, (statuses_map _ _).1, haudit, hlines.1]
        exact (ite_self _).symm
      · rw [httpStatuses_append, (statuses_map _ _).2, hhttp, hlines.2]
        rfl
  · cases h

theorem served_enter {user : Option User} {statusCode : ℕ} {now : ℤ}
    (inv : Served isProd a x lines)
    (h : step isProd x (.enter user statusCode now) = some (y, more)) :
    Served isProd a y (lines ++ more) := by
  rw [step] at h
  split at h
  · next hphase =>
      obtain ⟨rfl, rfl⟩ := Prod.mk.inj (Option.some.inj h)
      have hlines := inv.lines
      rw [hphase] at hlines
      rw [List.append_nil]
      exact ⟨inv.request, inv.requestId, inv.ids, hlines, trivial⟩
  · cases h

/-- The interceptors write the status that is sent. -/
theorem served_return {now : ℤ} (inv : Served isProd a x lines)
    (h : step isProd x (.return now) = some (y, more)) : Served isProd a y (lines ++ more) := by
  rw [step] at h
  split at h
  · next user statusCode startedAt hphase =>
      obtain ⟨rfl, rfl⟩ := Prod.mk.inj (Option.some.inj h)
      obtain ⟨haudit, hhttp⟩ := intercepted_statuses x.request x.requestId user startedAt now
        false statusCode statusCode
      have hlines := inv.lines
      rw [hphase] at hlines
      refine ⟨inv.request, inv.requestId,
        ids_append _ inv.ids (intercepted_requestIds _ _ _ _ _ _ _ _), ⟨?_, ?_⟩, rfl⟩
      · rw [auditStatuses_append, (statuses_map _ _).1, haudit, hlines.1, List.nil_append]
        rfl
      · rw [httpStatuses_append, (statuses_map _ _).2, hhttp, hlines.2, List.nil_append]
        rfl
  · cases h

/-- The interceptors write the status of the exception, and then the filters write. -/
theorem served_throw {e : Exception} {now : ℤ} (inv : Served isProd a x lines)
    (h : step isProd x (.throw e now) = some (y, more)) : Served isProd a y (lines ++ more) := by
  rw [step] at h
  split at h
  · next user statusCode startedAt hphase =>
      obtain ⟨rfl, rfl⟩ := Prod.mk.inj (Option.some.inj h)
      have hfiltered := filtered_filtered isProd x.request x.requestId now e
      obtain ⟨hfaudit, hfhttp⟩ := hfiltered.statuses
      obtain ⟨haudit, hhttp⟩ := intercepted_statuses x.request x.requestId user startedAt now
        true (e.status.getD 500) (if e.status.getD 500 = 0 then 500 else e.status.getD 500)
      have hlines := inv.lines
      rw [hphase] at hlines
      refine ⟨inv.request, inv.requestId, ids_append _ inv.ids fun line hline => ?_, ⟨?_, ?_⟩,
        now, rfl⟩
      · rcases List.mem_append.mp hline with hline | hline
        · exact intercepted_requestIds _ _ _ _ _ _ _ _ line hline
        · exact (hfiltered.lines line hline).1
      · rw [auditStatuses_append, (statuses_map _ _).1, List.filterMap_append, haudit, hfaudit,
          hlines.1, List.nil_append, List.append_nil]
        rfl
      · rw [httpStatuses_append, (statuses_map _ _).2, List.filterMap_append, hhttp, hfhttp,
          hlines.2, List.nil_append, List.append_nil]
        rfl
  · cases h

/-- **One step of a request.** -/
theorem served_step {e : Event} (inv : Served isProd a x lines)
    (h : step isProd x e = some (y, more)) : Served isProd a y (lines ++ more) := by
  cases e with
  | write text => exact served_write inv h
  | reject e now => exact served_reject inv h
  | enter user statusCode now => exact served_enter inv h
  | «return» now => exact served_return inv h
  | throw e now => exact served_throw inv h

end Steps

theorem served {isProd : Bool} {es : List (Lib.Instances.Event Arrival Event)}
    {s : List Exchange × List (ℕ × Written)} (h : run (serve isProd) ([], []) es = some s) {i : ℕ}
    {x : Exchange} (hx : s.1[i]? = some x) :
    ∃ a, (starts es)[i]? = some a ∧ Served isProd a x (entriesOf i s.2) :=
  logged_invariant arrive (step isProd) (I := fun a _ x lines => Served isProd a x lines)
    (fun _ => ⟨rfl, rfl, fun _ h => absurd h List.not_mem_nil, ⟨rfl, rfl⟩, trivial⟩)
    (fun _ _ _ _ _ _ _ inv hstep => served_step inv hstep) h hx

theorem requestIdOf_ne_nil (a : Arrival) : requestIdOf a.request a.uuid ≠ [] := by
  rw [requestIdOf]
  cases hid : ((firstValue a.request.requestIdHeader).map fun value => trim value.text).filter
      fun id => !id.isEmpty with
  | none => exact a.uuid_ne_nil
  | some id =>
      have hne := (Option.filter_eq_some_iff.mp hid).2
      simpa using hne

/-- What is sent for an outcome. -/
theorem Phase.Sends.answer {isProd : Bool} {request : Request} {requestId : JsString}
    {outcome : Outcome} {response : Response}
    (h : (Phase.answered outcome response).Sends isProd request requestId) :
    response.requestId = requestId
      ∧ (∀ body, response.body = some body → ∀ id ∈ body.requestIds, id = requestId)
      ∧ ∀ status, outcome.reported = some status →
        (status = response.status ↔ outcome.OwnStatus) := by
  cases outcome with
  | rejected e =>
      obtain ⟨now, rfl⟩ := h
      have hfiltered := filtered_filtered isProd request requestId now e
      exact ⟨hfiltered.header, hfiltered.body, nofun⟩
  | returned statusCode =>
      obtain rfl : response = ⟨statusCode, requestId, none⟩ := h
      exact ⟨rfl, nofun, fun status hstatus =>
        iff_of_true (Option.some.inj hstatus).symm trivial⟩
  | threw e =>
      obtain ⟨now, rfl⟩ := h
      have hfiltered := filtered_filtered isProd request requestId now e
      refine ⟨hfiltered.header, hfiltered.body, fun status hstatus => ?_⟩
      rw [filtered_status, ← Option.some.inj hstatus]
      exact sent_eq_iff e

/-- Two requests at once: a registration that breaks a unique constraint, and a page that a guard
does not let through. -/
def overlapping (detail : JsString) : List (Lib.Instances.Event Arrival Event) :=
  [ .start ⟨⟨js "POST", js "/agents", none, none, none⟩, js "7f3c", by decide⟩,
    .start ⟨⟨js "GET", js "/policies", none, none,
      some (.one ⟨js " agent-7 ", fun u hu => of_decide_eq_true (List.all_eq_true.mp
        (rfl : (js " agent-7 ").all (fun u => decide (u.toNat < 256)) = true) u hu)⟩)⟩,
      js "91ab", by decide⟩,
    .act 0 (.enter none 201 1000), .act 1 (.write (js "no key")),
    .act 0 (.throw (.queryFailed (some (js "23505")) (some (js "agents_did_key")) detail) 1012),
    .act 1 (.reject (.http 401 (.object none (some (js "Unauthorized"))) (js "Missing key")
      (js "UnauthorizedException")) 1020),
    .act 0 (.write (js "retried")) ]

/-- **A request has one id.**  However many requests overlap, the id that a request got on arrival,
never an empty one, is the id that each line written for it takes from the context and states
itself, and the id of its answer. -/
theorem one_requestId {isProd : Bool} {es : List (Lib.Instances.Event Arrival Event)}
    {s : List Exchange × List (ℕ × Written)} (h : run (serve isProd) ([], []) es = some s) {i : ℕ}
    {x : Exchange} (hx : s.1[i]? = some x) :
    ∃ a, (starts es)[i]? = some a ∧ x.requestId = requestIdOf a.request a.uuid ∧ x.requestId ≠ []
      ∧ (∀ w ∈ entriesOf i s.2, w.contextId = x.requestId
        ∧ ∀ id ∈ w.line.requestIds, id = x.requestId)
      ∧ ∀ outcome response, x.phase = .answered outcome response →
        response.requestId = x.requestId
          ∧ ∀ body, response.body = some body → ∀ id ∈ body.requestIds, id = x.requestId := by
  obtain ⟨a, ha, inv⟩ := served h hx
  refine ⟨a, ha, inv.requestId, inv.requestId ▸ requestIdOf_ne_nil a, inv.ids, ?_⟩
  intro outcome response hphase
  have hsends := inv.sends
  rw [hphase] at hsends
  obtain ⟨hheader, hbody, -⟩ := hsends.answer
  exact ⟨hheader, hbody⟩

theorem one_requestId_overlapping :
    ∃ s x a, run (serve true) ([], []) (overlapping []) = some s ∧ s.1[1]? = some x
      ∧ (starts (overlapping []))[1]? = some a
      ∧ x.requestId = requestIdOf a.request a.uuid ∧ x.requestId ≠ []
      ∧ (∀ w ∈ entriesOf 1 s.2, w.contextId = x.requestId
        ∧ ∀ id ∈ w.line.requestIds, id = x.requestId)
      ∧ ∀ outcome response, x.phase = .answered outcome response →
        response.requestId = x.requestId
          ∧ ∀ body, response.body = some body → ∀ id ∈ body.requestIds, id = x.requestId := by
  have hrun : run (serve true) ([], []) (overlapping []) = some _ := rfl
  obtain ⟨a, h⟩ := one_requestId hrun (i := 1) rfl
  exact ⟨_, _, a, rfl, rfl, h⟩

/-- **A mutating request that got past the guards has one audit line.**  It appears with the answer
and not before; requests that were rejected earlier have neither an audit line nor an HTTP line.
The audited status is the status that was sent exactly for the outcomes with a status of their own:
a database error that the filter maps is audited as 500. -/
theorem audited_once {isProd : Bool} {es : List (Lib.Instances.Event Arrival Event)}
    {s : List Exchange × List (ℕ × Written)} (h : run (serve isProd) ([], []) es = some s) {i : ℕ}
    {x : Exchange} (hx : s.1[i]? = some x) :
    ((∀ outcome response, x.phase ≠ .answered outcome response) →
        auditStatuses (entriesOf i s.2) = [] ∧ httpStatuses (entriesOf i s.2) = [])
      ∧ ∀ outcome response, x.phase = .answered outcome response →
        auditStatuses (entriesOf i s.2)
            = (if mutating x.request.method then outcome.reported.toList else [])
          ∧ httpStatuses (entriesOf i s.2) = outcome.logged.toList
          ∧ ∀ status, outcome.reported = some status →
            (status = response.status ↔ outcome.OwnStatus) := by
  obtain ⟨a, -, inv⟩ := served h hx
  have hlines := inv.lines
  refine ⟨fun hwaits => ?_, fun outcome response hphase => ?_⟩
  · cases hphase : x.phase with
    | answered outcome response => exact absurd hphase (hwaits outcome response)
    | arrived =>
        rw [hphase] at hlines
        exact hlines
    | handling user statusCode startedAt =>
        rw [hphase] at hlines
        exact hlines
  · have hsends := inv.sends
    rw [hphase] at hlines hsends
    exact ⟨hlines.1, hlines.2, hsends.answer.2.2⟩

theorem audited_once_overlapping :
    ∃ s x, run (serve true) ([], []) (overlapping []) = some s ∧ s.1[0]? = some x
      ∧ ((∀ outcome response, x.phase ≠ .answered outcome response) →
        auditStatuses (entriesOf 0 s.2) = [] ∧ httpStatuses (entriesOf 0 s.2) = [])
      ∧ ∀ outcome response, x.phase = .answered outcome response →
        auditStatuses (entriesOf 0 s.2)
            = (if mutating x.request.method then outcome.reported.toList else [])
          ∧ httpStatuses (entriesOf 0 s.2) = outcome.logged.toList
          ∧ ∀ status, outcome.reported = some status →
            (status = response.status ↔ outcome.OwnStatus) :=
  have h : run (serve true) ([], []) (overlapping []) = some _ := rfl
  ⟨_, _, rfl, rfl, audited_once h rfl⟩

end A2aAgentLayer.Common.RequestPipeline
