import A2aAgentLayer.Common.RequestHeaders
import A2aAgentLayer.Lib.Instances
import A2aAgentLayer.Lib.JsText

/-!
# A request from its arrival to its answer

The middleware gives every request an id, sets it on the response and opens the async context that
each later log line takes it from.  Middleware and guards can reject the request; after them the
logging interceptor and the audit interceptor stand around the handler.  What is thrown goes through
the interceptors first and then to the exception filters, of which the one for database errors comes
before the one for all others.  Requests overlap, and all of them write to one log.

A handler answers with one value and does not set the status itself; what is thrown is neither
`null` nor `undefined`.
-/

namespace A2aAgentLayer.Common.RequestPipeline

open A2aAgentLayer.Lib.Utf16 A2aAgentLayer.Lib.JsText A2aAgentLayer.Lib.Run
open A2aAgentLayer.Lib.Instances A2aAgentLayer.Common.RequestHeaders

/-! ### Requests and exceptions -/

structure Request where
  method : JsString
  url : JsString
  ip : Option JsString
  userAgent : Option JsString
  requestIdHeader : Option HeaderValue

/-- The id that `RequestIdMiddleware` gives a request; `uuid` is what `randomUUID` returns. -/
def requestIdOf (request : Request) (uuid : JsString) : JsString :=
  (((firstValue request.requestIdHeader).map fun value => trim value.text).filter
    fun id => !id.isEmpty).getD uuid

/-- `message` of an error response: `string | string[]`. -/
inductive Message where
  | one (text : JsString)
  | many (texts : List JsString)
  deriving DecidableEq

/-- What counts as a message in a condition: an array does, an empty string does not. -/
def Message.truthy : Message → Bool
  | .one text => !text.isEmpty
  | .many _ => true

/-- `getResponse()` of an `HttpException`. -/
inductive HttpResponse where
  | text (value : JsString)
  | object (message : Option Message) (error : Option JsString)
  deriving DecidableEq

inductive Exception where
  /-- An `HttpException`. -/
  | http (status : ℕ) (response : HttpResponse) (message name : JsString)
  /-- An `EntityNotFoundError`. -/
  | entityNotFound (message : JsString)
  /-- A `QueryFailedError`, with what the driver set on it. -/
  | queryFailed (code constraint : Option JsString) (message : JsString)
  /-- Another `TypeORMError`. -/
  | typeorm (message : JsString)
  /-- Another `Error`, with its `status` property. -/
  | error (message name : JsString) (status : Option ℕ)
  /-- A thrown value that is no `Error`. -/
  | thrown (status : Option ℕ)
  deriving DecidableEq

/-- `error.status`. -/
def Exception.status : Exception → Option ℕ
  | .http status _ _ _ => some status
  | .error _ _ status => status
  | .thrown status => status
  | _ => none

def pgErrorMap : List (JsString × ℕ × JsString) :=
  [ (js "23505", 409, js "Duplicate value violates unique constraint"),
    (js "23503", 400, js "Foreign key constraint violated"),
    (js "23502", 400, js "Required field is missing"),
    (js "22P02", 400, js "Invalid input syntax"),
    (js "40001", 409, js "Serialization failure, please retry"),
    (js "40P01", 409, js "Deadlock detected, please retry"),
    (js "57014", 408, js "Query cancelled due to timeout") ]

/-- `pgErr.code ? PG_ERROR_MAP[pgErr.code] : undefined`. -/
def mapped (code : Option JsString) : Option (ℕ × JsString) :=
  code.bind fun code => pgErrorMap.lookup code

/-! ### Answers and log lines -/

inductive Body where
  /-- What `AllExceptionsFilter` sends. -/
  | error (statusCode : ℕ) (error : JsString) (message : Message) (path : JsString)
      (timestamp : ℤ) (requestId : JsString)
  /-- What `DatabaseErrorFilter` sends. -/
  | database (statusCode : ℕ) (message : JsString) (code constraint : Option JsString)
  deriving DecidableEq

/-- An answer; the body of a value that the handler returned is left out. -/
structure Response where
  status : ℕ
  requestId : JsString
  body : Option Body
  deriving DecidableEq

structure User where
  userId : Option JsString
  did : Option JsString
  role : Option JsString

structure AuditEntry where
  timestamp : ℤ
  requestId : JsString
  method : JsString
  path : JsString
  userId : Option JsString
  did : Option JsString
  role : Option JsString
  ip : JsString
  userAgent : JsString
  statusCode : ℕ
  durationMs : ℤ

inductive Line where
  | service (text : JsString)
  | audit (entry : AuditEntry)
  | http (failed : Bool) (requestId method url : JsString) (status : ℕ) (durationMs : ℤ)
      (ip : Option JsString) (userAgent : JsString)
  | exception (requestId method url : JsString) (status : ℕ)
  | mappedDatabaseError (code : Option JsString) (message : JsString)
  | databaseError (code : Option JsString) (message : JsString)

/-- A line with the id that the logger takes from the async context. -/
structure Written where
  contextId : JsString
  line : Line

/-- The ids that a line states itself. -/
def Line.requestIds : Line → List JsString
  | .audit entry => [entry.requestId]
  | .http _ requestId _ _ _ _ _ _ => [requestId]
  | .exception requestId _ _ _ => [requestId]
  | _ => []

def Line.auditStatus : Line → Option ℕ
  | .audit entry => some entry.statusCode
  | _ => none

def Line.httpStatus : Line → Option ℕ
  | .http _ _ _ _ status _ _ _ => some status
  | _ => none

def Body.requestIds : Body → List JsString
  | .error _ _ _ _ _ requestId => [requestId]
  | .database .. => []

/-! ### The filters -/

/-- `AllExceptionsFilter`: status, `error` and `message` before the rule for production. -/
def describe : Exception → ℕ × JsString × Message
  | .http status (.text value) _ _ => (status, js "Internal Server Error", .one value)
  | .http status (.object message error) ownMessage name =>
      (status, (error.filter fun text => !text.isEmpty).getD name,
        (message.filter Message.truthy).getD (.one ownMessage))
  | .error message name _ => (500, name, .one message)
  | _ => (500, js "Internal Server Error", .one (js "Internal server error"))

def allExceptionsFilter (isProd : Bool) (request : Request) (requestId : JsString)
    (now : ℤ) (e : Exception) : Response × List Line :=
  let status := (describe e).1
  let message :=
    if status ≥ 500 && isProd then .one (js "Internal server error") else (describe e).2.2
  (⟨status, requestId, some (.error status (describe e).2.1 message request.url now requestId)⟩,
    if status ≥ 500 then [.exception requestId request.method request.url status] else [])

def databaseError (requestId : JsString) (code : Option JsString) (message : JsString) :
    Response × List Line :=
  (⟨500, requestId, some (.database 500 (js "Database error") none none)⟩,
    [.databaseError code message])

/-- The answer to an exception, by the filter that comes first. -/
def filtered (isProd : Bool) (request : Request) (requestId : JsString) (now : ℤ) (e : Exception) :
    Response × List Line :=
  match e with
  | .entityNotFound _ =>
      (⟨404, requestId, some (.database 404 (js "Resource not found") none none)⟩, [])
  | .queryFailed code constraint message =>
      match mapped code with
      | some (status, text) =>
          (⟨status, requestId, some (.database status text code constraint)⟩,
            [.mappedDatabaseError code text])
      | none => databaseError requestId code message
  | .typeorm message => databaseError requestId none message
  | e => allExceptionsFilter isProd request requestId now e

/-! ### The interceptors -/

def mutating (method : JsString) : Bool :=
  [js "POST", js "PUT", js "PATCH", js "DELETE"].contains method

/-- `write(statusCode)` of the audit interceptor. -/
def auditEntry (request : Request) (requestId : JsString) (user : Option User) (startedAt now : ℤ)
    (statusCode : ℕ) : AuditEntry where
  timestamp := now
  requestId := requestId
  method := request.method
  path := request.url
  userId := user.map fun user => user.userId.getD (js "anonymous")
  did := (user.bind (·.did)).filter fun text => !text.isEmpty
  role := (user.bind (·.role)).filter fun text => !text.isEmpty
  ip := request.ip.getD (js "unknown")
  userAgent := request.userAgent.getD (js "unknown")
  statusCode := statusCode
  durationMs := now - startedAt

/-- What the two interceptors write when the handler is through, the inner one first. -/
def intercepted (request : Request) (requestId : JsString) (user : Option User)
    (startedAt now : ℤ) (failed : Bool) (auditStatus httpStatus : ℕ) : List Line :=
  (if mutating request.method then
      [.audit (auditEntry request requestId user startedAt now auditStatus)] else [])
    ++ [.http failed requestId request.method request.url httpStatus (now - startedAt) request.ip
        ((request.userAgent.filter fun text => !text.isEmpty).getD (js "-"))]

/-! ### The run of one request -/

inductive Outcome where
  | rejected (e : Exception)
  | returned (statusCode : ℕ)
  | threw (e : Exception)

inductive Phase where
  | arrived
  | handling (user : Option User) (statusCode : ℕ) (startedAt : ℤ)
  | answered (outcome : Outcome) (response : Response)

structure Exchange where
  request : Request
  requestId : JsString
  phase : Phase

/-- An arrival; `randomUUID` never returns an empty text. -/
structure Arrival where
  request : Request
  uuid : JsString
  uuid_ne_nil : uuid ≠ []

def arrive (a : Arrival) : Exchange := ⟨a.request, requestIdOf a.request a.uuid, .arrived⟩

inductive Event where
  /-- Code that serves the request, or that it left running, writes a line. -/
  | write (text : JsString)
  /-- A middleware or a guard throws. -/
  | reject (e : Exception) (now : ℤ)
  /-- The guards let the request through to the interceptors of a route. -/
  | enter (user : Option User) (statusCode : ℕ) (now : ℤ)
  | return (now : ℤ)
  | throw (e : Exception) (now : ℤ)

def step (isProd : Bool) (x : Exchange) : Event → Option (Exchange × List Written)
  | .write text => some (x, [⟨x.requestId, .service text⟩])
  | .reject e now =>
      match x.phase with
      | .arrived =>
          let answer := filtered isProd x.request x.requestId now e
          some ({ x with phase := .answered (.rejected e) answer.1 },
            answer.2.map fun line => ⟨x.requestId, line⟩)
      | _ => none
  | .enter user statusCode now =>
      match x.phase with
      | .arrived => some ({ x with phase := .handling user statusCode now }, [])
      | _ => none
  | .return now =>
      match x.phase with
      | .handling user statusCode startedAt =>
          let lines := intercepted x.request x.requestId user startedAt now false statusCode
            statusCode
          some ({ x with
              phase := .answered (.returned statusCode) ⟨statusCode, x.requestId, none⟩ },
            lines.map fun line => ⟨x.requestId, line⟩)
      | _ => none
  | .throw e now =>
      match x.phase with
      | .handling user _ startedAt =>
          let answer := filtered isProd x.request x.requestId now e
          let status := e.status.getD 500
          let lines := intercepted x.request x.requestId user startedAt now true status
            (if status = 0 then 500 else status) ++ answer.2
          some ({ x with phase := .answered (.threw e) answer.1 },
            lines.map fun line => ⟨x.requestId, line⟩)
      | _ => none

/-- Any number of requests, and the log they share. -/
abbrev serve (isProd : Bool) :
    List Exchange × List (ℕ × Written) → Lib.Instances.Event Arrival Event →
      Option (List Exchange × List (ℕ × Written)) :=
  stepLogged arrive (step isProd)

/-! ### What is reported and what is sent -/

/-- The status that the interceptors see; a request that never reached them has none. -/
def Outcome.reported : Outcome → Option ℕ
  | .rejected _ => none
  | .returned statusCode => some statusCode
  | .threw e => some (e.status.getD 500)

/-- The status of the HTTP line. -/
def Outcome.logged : Outcome → Option ℕ
  | .rejected _ => none
  | .returned statusCode => some statusCode
  | .threw e => some (if e.status.getD 500 = 0 then 500 else e.status.getD 500)

/-- The status that is sent for an exception. -/
def Exception.sent : Exception → ℕ
  | .http status _ _ _ => status
  | .entityNotFound _ => 404
  | .queryFailed code _ _ => ((mapped code).map (·.1)).getD 500
  | _ => 500

/-- The exceptions whose own status is the one that is sent: no database error that is answered with
another status than 500, and no other value that has a `status` of its own. -/
def Exception.OwnStatus : Exception → Prop
  | .entityNotFound _ => False
  | .queryFailed code _ _ => mapped code = none
  | .error _ _ status => status = none ∨ status = some 500
  | .thrown status => status = none ∨ status = some 500
  | _ => True

def Outcome.OwnStatus : Outcome → Prop
  | .rejected e => e.OwnStatus
  | .returned _ => True
  | .threw e => e.OwnStatus

theorem mapped_ne {code : Option JsString} {p : ℕ × JsString} (h : mapped code = some p) :
    p.1 ≠ 500 := by
  have hall : ∀ entry ∈ pgErrorMap, entry.2.1 ≠ 500 := by decide
  obtain ⟨code, -, hlookup⟩ := Option.bind_eq_some_iff.mp h
  obtain ⟨before, after, hsplit, -⟩ := List.lookup_eq_some_iff.mp hlookup
  exact hall (code, p) (by rw [hsplit]; simp)

theorem filtered_status (isProd : Bool) (request : Request) (requestId : JsString) (now : ℤ)
    (e : Exception) : (filtered isProd request requestId now e).1.status = e.sent := by
  cases e with
  | http status response message name => cases response <;> rfl
  | queryFailed code constraint message =>
      rw [filtered, Exception.sent]
      cases mapped code <;> rfl
  | _ => rfl

theorem sent_eq_iff (e : Exception) : e.status.getD 500 = e.sent ↔ e.OwnStatus := by
  have hown : ∀ status : Option ℕ, status.getD 500 = 500 ↔ status = none ∨ status = some 500 := by
    intro status
    cases status with
    | none => simp
    | some n => simp
  cases e with
  | http status response message name => exact iff_of_true rfl trivial
  | entityNotFound message =>
      exact iff_of_false (by decide : (500 : ℕ) ≠ 404) id
  | queryFailed code constraint message =>
      rw [Exception.sent, Exception.OwnStatus]
      cases hmapped : mapped code with
      | none => exact iff_of_true rfl rfl
      | some p => exact iff_of_false (Ne.symm (mapped_ne hmapped)) nofun
  | typeorm message => exact iff_of_true rfl trivial
  | error message name status => exact hown status
  | thrown status => exact hown status

end A2aAgentLayer.Common.RequestPipeline
