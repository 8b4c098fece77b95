import A2aAgentLayer.Lib.JsonMask
import A2aAgentLayer.Lib.JsonText

/-!
# Log lines

`PinoLoggerService` turns a call of a Nest logger into one call of pino: the fields of the message
with those of the request laid over them, or those of the request with a text.  Pino prepares the
fields (it turns a request dump into `req`, an `err` into what its serializer gives, and takes a
text from the `err` of an object), puts the censor in the place of every field that a path of the
options names, and prints one line.

A path names fields at one depth.  The secret names are covered at the top and one level below.
-/

namespace A2aAgentLayer.Common.PinoLogger

open A2aAgentLayer.Lib.Utf16 A2aAgentLayer.Lib.NumberText A2aAgentLayer.Lib.JsonTree
open A2aAgentLayer.Lib.JsonMask A2aAgentLayer.Lib.JsonText

abbrev Members := List (JsString × Json)

/-! ### The options -/

structure ProcessEnv where
  nodeEnv : Option JsString
  logLevel : Option JsString

/-- A part of a redaction path. -/
inductive PathPart where
  | key (name : JsString)
  | any
  deriving DecidableEq

structure LoggerOptions where
  level : JsString
  base : Members
  redactPaths : List (List PathPart)
  censor : JsString

def serviceName : JsString := js "a2a-agent-layer"

/-- `redact.paths`. -/
def redactPaths : List (List PathPart) :=
  [ [.key (js "req"), .key (js "headers"), .key (js "authorization")],
    [.key (js "req"), .key (js "headers"), .key (js "cookie")],
    [.key (js "req"), .key (js "headers"), .key (js "x-api-key")],
    [.key (js "privateKey")],
    [.any, .key (js "privateKey")],
    [.key (js "password")],
    [.any, .key (js "password")],
    [.key (js "ownerSignature")],
    [.any, .key (js "ownerSignature")],
    [.key (js "refreshToken")],
    [.any, .key (js "refreshToken")] ]

/-- The options without the transport, which prints the lines in another form in development. -/
def buildLoggerOptions (env : ProcessEnv) : LoggerOptions :=
  let nodeEnv := env.nodeEnv.getD (js "development")
  { level := env.logLevel.getD (if nodeEnv = js "production" then js "info" else js "debug")
    base := [(js "service", .str serviceName), (js "env", .str nodeEnv)]
    redactPaths := redactPaths
    censor := js "[redacted]" }

/-! ### Pino -/

/-- The values of the levels; `none` is a level that pino does not know. -/
def levelValue (level : JsString) : Option ℕ :=
  if level = js "trace" then some 10
  else if level = js "debug" then some 20
  else if level = js "info" then some 30
  else if level = js "warn" then some 40
  else if level = js "error" then some 50
  else if level = js "fatal" then some 60
  else none

/-- Whether a line of a level is printed; `silent` prints none, and there is no logger with a level
that pino does not know. -/
def enabled (threshold level : JsString) : Bool :=
  match levelValue threshold, levelValue level with
  | some least, some value => decide (least ≤ value)
  | _, _ => false

/-- A part that is not a wildcard names one key, and `*` stands for one level. -/
def names : List PathPart → KeyPath → Bool
  | [], [] => true
  | .key name :: path, k :: p => decide (name = k) && names path p
  | .any :: path, _ :: p => names path p
  | _, _ => false

def redacted (paths : List (List PathPart)) (p : KeyPath) : Bool :=
  paths.any fun path => names path p

/-- What the service hands to pino; `undefined` fields are not printed and left out here. -/
structure Emission where
  fields : Members
  text : Option JsString

section Line

-- What pino makes of the fields before it redacts them, with and without a text.
variable (prepare : Bool → Members → Members) (options : LoggerOptions)

def redact (fields : Members) : Members :=
  maskMembers (redacted options.redactPaths) (.str options.censor) [] fields

def line (level : JsString) (time : JsString) (e : Emission) : JsString :=
  let head := [(js "level", .num (JsNumber.ofNat ((levelValue level).getD 0))),
    (js "time", .str time)]
  let message := e.text.toList.map fun text => (js "msg", Json.str text)
  serialize (.obj (head ++ options.base ++ redact options (prepare e.text.isSome e.fields)
    ++ message))

/-- The call of a level's method. -/
def emit (level : JsString) (time : JsString) (e : Emission) : Option JsString :=
  if enabled options.level level then some (line prepare options level time e) else none

end Line

/-! ### The service -/

inductive NestLevel where
  | log
  | error
  | warn
  | debug
  | verbose
  | fatal
  deriving DecidableEq

/-- `LEVELS`. -/
def levels : NestLevel → JsString
  | .log => js "info"
  | .error => js "error"
  | .warn => js "warn"
  | .debug => js "debug"
  | .verbose => js "trace"
  | .fatal => js "fatal"

/-- What the service reads of an `Error`. -/
structure ErrorObject where
  name : JsString
  message : JsString
  stack : Option JsString
  deriving DecidableEq

def serializeError (error : ErrorObject) : Json :=
  .obj ([(js "name", .str error.name), (js "message", .str error.message)]
    ++ error.stack.toList.map fun stack => (js "stack", .str stack))

inductive Param where
  | text (s : JsString)
  | error (e : ErrorObject)
  | other

/-- An `Error` with its own fields, a string, an object, an array, and any other value with what
`String` makes of it. -/
inductive Message where
  | error (e : ErrorObject) (own : Members)
  | text (s : JsString)
  | object (members : Members)
  | array (elements : List Json)
  | other (printed : JsString)

/-- The request and the span a line belongs to, and the time. -/
structure Scope where
  requestId : Option JsString
  traceIds : Option (JsString × JsString)
  time : JsString

def contextOf (optionalParams : List Param) : Option JsString :=
  match optionalParams.getLast? with
  | some (.text s) => some s
  | _ => none

/-- The strings of `error`; the last is the context, and the first the stack if there are two. -/
def strings (optionalParams : List Param) : List JsString :=
  optionalParams.filterMap fun
    | .text s => some s
    | _ => none

def errors (optionalParams : List Param) : List ErrorObject :=
  optionalParams.filterMap fun
    | .error e => some e
    | _ => none

/-- The context and the extra fields of a call. -/
def argumentsOf (level : NestLevel) (optionalParams : List Param) : Option JsString × Members :=
  match level with
  | .error =>
      let given := strings optionalParams
      let stack := if 1 < given.length then given.head? else none
      (given.getLast?,
        ((stack.filter (· ≠ [])).toList.map fun stack => (js "stack", .str stack))
          ++ (errors optionalParams).head?.toList.map fun cause => (js "err", serializeError cause))
  | _ => (contextOf optionalParams, [])

/-- `defined(payload)`. -/
def payload (scope : Scope) (context : Option JsString) (extra : Members) : Members :=
  (context.toList.map fun context => (js "context", .str context))
    ++ (scope.requestId.toList.map fun requestId => (js "requestId", .str requestId))
    ++ (scope.traceIds.toList.flatMap fun ids =>
      [(js "traceId", .str ids.1), (js "spanId", .str ids.2)])
    ++ extra

/-- A property of an object literal; a later one takes the place of an earlier one. -/
def put (fields : Members) (m : JsString × Json) : Members :=
  if (fields.map Prod.fst).contains m.1 then fields.map fun n => if n.1 = m.1 then m else n
  else fields ++ [m]

/-- `{ ...fields, ...more }`. -/
def spread (fields more : Members) : Members := more.foldl put fields

/-- The elements of an array as properties. -/
def indexed : ℕ → List Json → Members
  | _, [] => []
  | i, v :: rest => (natText i, v) :: indexed (i + 1) rest

section Service

-- `JSON.parse`; `none` when it throws.
variable (parse : JsString → Option Json)

def tryParse (s : JsString) : Option Members :=
  if s.head? = some (unit '{') then
    match parse s with
    | some (.obj members) => some members
    | _ => none
  else none

def write (payload : Members) : Message → Emission
  | .error e _ => ⟨put payload (js "err", serializeError e), some e.message⟩
  | .text s =>
      match tryParse parse s with
      | some parsed => ⟨spread parsed payload, none⟩
      | none => ⟨payload, some s⟩
  | .object members => ⟨spread members payload, none⟩
  | .array elements => ⟨spread (indexed 0 elements) payload, none⟩
  | .other printed => ⟨payload, some printed⟩

variable (prepare : Bool → Members → Members) (env : ProcessEnv) (scope : Scope)

/-- What is given to `write` besides the message. -/
def payloadOf (level : NestLevel) (optionalParams : List Param) : Members :=
  payload scope (argumentsOf level optionalParams).1 (argumentsOf level optionalParams).2

/-- A call of the logger. -/
def logged (level : NestLevel) (message : Message) (optionalParams : List Param) :
    Option JsString :=
  emit prepare (buildLoggerOptions env) (levels level) scope.time
    (write parse (payloadOf scope level optionalParams) message)

end Service

/-! ### Secrets -/

def secretNames : List JsString :=
  [js "privateKey", js "password", js "ownerSignature", js "refreshToken"]

/-- The path of a field with a secret name, at any depth. -/
def isSecret (p : KeyPath) : Bool :=
  match p.getLast? with
  | some name => secretNames.contains name
  | none => false

def headerNames : List JsString := [js "authorization", js "cookie", js "x-api-key"]

theorem names_field {name : JsString} {p : KeyPath} :
    names [.key name] p = true ↔ p = [name] := by
  match p with
  | [] => exact iff_of_false nofun nofun
  | [k] =>
      simp only [names, Bool.and_true, decide_eq_true_eq, List.cons.injEq, and_true,
        @eq_comm _ name]
  | k :: l :: rest => simp [names]

theorem names_below {name : JsString} {p : KeyPath} :
    names [.any, .key name] p = true ↔ ∃ k, p = [k, name] := by
  match p with
  | [] => exact iff_of_false nofun nofun
  | k :: p => simp only [names, names_field, List.cons.injEq, exists_eq_left']

theorem names_path {first second third : JsString} {p : KeyPath} :
    names [.key first, .key second, .key third] p = true ↔ p = [first, second, third] := by
  match p with
  | [] => exact iff_of_false nofun nofun
  | [k] => simp [names]
  | k :: l :: p =>
      simp only [names, names_field, Bool.and_eq_true, decide_eq_true_eq, List.cons.injEq,
        @eq_comm _ first, @eq_comm _ second]

theorem headerNames_not_secret : ∀ name ∈ headerNames, name ∉ secretNames := by decide

/-- **What the paths cover.**  Secret names at the top and one level below, and three headers. -/
theorem redacted_iff (p : KeyPath) : redacted redactPaths p = true ↔
    (∃ name ∈ secretNames, p = [name]) ∨ (∃ name ∈ secretNames, ∃ k, p = [k, name])
      ∨ ∃ name ∈ headerNames, p = [js "req", js "headers", name] := by
  simp only [redacted, redactPaths, List.any_cons, List.any_nil, Bool.or_false, Bool.or_eq_true,
    names_field, names_below, names_path, secretNames, headerNames, List.mem_cons,
    List.not_mem_nil, or_false, exists_eq_or_imp, exists_eq_left]
  generalize js "privateKey" = a, js "password" = b, js "ownerSignature" = c,
    js "refreshToken" = d, js "req" = r, js "headers" = h, js "authorization" = x,
    js "cookie" = y, js "x-api-key" = z
  tauto

theorem isSecret_concat (p : KeyPath) (name : JsString) :
    isSecret (p ++ [name]) = true ↔ name ∈ secretNames := by
  rw [isSecret, List.getLast?_concat]
  exact List.contains_iff_mem

/-- **How deep the paths go.**  A secret is redacted at the top and one level below, not deeper. -/
theorem redacted_secret_iff {p : KeyPath} (hsecret : isSecret p = true) :
    redacted redactPaths p = true ↔ p.length ≤ 2 := by
  match p with
  | [] => cases hsecret
  | [k] =>
      have hk : k ∈ secretNames := (isSecret_concat [] k).mp hsecret
      exact iff_of_true ((redacted_iff [k]).mpr (.inl ⟨k, hk, rfl⟩)) (Nat.le_succ 1)
  | [k, l] =>
      have hl : l ∈ secretNames := (isSecret_concat [k] l).mp hsecret
      exact iff_of_true ((redacted_iff [k, l]).mpr (.inr (.inl ⟨l, hl, k, rfl⟩))) (Nat.le_refl 2)
  | k :: l :: m :: rest =>
      refine iff_of_false (fun h => ?_) (by simp)
      rcases (redacted_iff _).mp h with ⟨name, -, h⟩ | ⟨name, -, x, h⟩ | ⟨name, hname, h⟩
      · cases h
      · cases h
      · rw [h] at hsecret
        exact headerNames_not_secret name hname
          ((isSecret_concat [js "req", js "headers"] name).mp hsecret)

/-- No path reaches into a secret that none names. -/
theorem not_redacted_inside {p : KeyPath} (q : KeyPath) (hsecret : isSecret p = true)
    (hp : redacted redactPaths p = false) : redacted redactPaths (p ++ q) = false := by
  have hdeep : 2 < p.length := by
    by_contra hle
    rw [(redacted_secret_iff hsecret).mpr (Nat.not_lt.mp hle)] at hp
    cases hp
  rw [← Bool.not_eq_true]
  intro hpq
  have hlength : (p ++ q).length = p.length + q.length := List.length_append
  rcases (redacted_iff _).mp hpq with ⟨name, -, h⟩ | ⟨name, -, x, h⟩ | ⟨name, -, h⟩
  · rw [h, List.length_singleton] at hlength
    omega
  · rw [h, List.length_cons, List.length_singleton] at hlength
    omega
  · -- the path has three parts, so it names the secret itself
    rw [h, List.length_cons, List.length_cons, List.length_singleton] at hlength
    obtain rfl : q = [] := List.eq_nil_of_length_eq_zero (by omega)
    rw [List.append_nil, hp] at hpq
    cases hpq

/-- The same fields, but for the values of those with a secret name. -/
def SameFields (fields fields' : Members) : Prop :=
  maskMembers isSecret .null [] fields = maskMembers isSecret .null [] fields'

section Messages

variable (parse : JsString → Option Json)

/-- The fields of a message that is logged as an object. -/
def asObject : Message → Option Members
  | .text s => tryParse parse s
  | .object members => some members
  | .array elements => some (indexed 0 elements)
  | _ => none

/-- Two messages that differ only in the values of fields with a secret name.  Two texts of objects
that do so begin alike. -/
inductive SameButSecrets : Message → Message → Prop
  | fields {m m' : Message} {fields fields' : Members} (hm : asObject parse m = some fields)
      (hm' : asObject parse m' = some fields') (h : SameFields fields fields') :
      SameButSecrets m m'
  | text {s s' : JsString} {fields fields' : Members} (hs : s.head? ≠ some (unit '{'))
      (hs' : s'.head? ≠ some (unit '{')) (hparse : parse s = some (.obj fields))
      (hparse' : parse s' = some (.obj fields')) (h : SameFields fields fields') :
      SameButSecrets (.text s) (.text s')
  | error (e : ErrorObject) {own own' : Members} (h : SameFields own own') :
      SameButSecrets (.error e own) (.error e own')

/-- The text that a message is printed as. -/
def printedText : Message → Option JsString
  | .error e _ => some e.message
  | .text s => if (tryParse parse s).isSome then none else some s
  | .other printed => some printed
  | _ => none

theorem write_text (payload : Members) (m : Message) :
    (write parse payload m).text = printedText parse m := by
  cases m with
  | text s =>
      rw [write, printedText]
      cases tryParse parse s <;> rfl
  | _ => rfl

theorem write_of_asObject {payload : Members} {m : Message} {fields : Members}
    (h : asObject parse m = some fields) :
    write parse payload m = ⟨spread fields payload, none⟩ := by
  cases m with
  | text s => rw [write, show tryParse parse s = some fields from h]
  | object members => rw [write, Option.some.inj h]
  | array elements => rw [write, Option.some.inj h]
  | _ => cases h

/-! ### What the fields of a line depend on -/

theorem keys_maskMembers (fields : Members) :
    (maskMembers isSecret .null [] fields).map Prod.fst = fields.map Prod.fst := by
  rw [maskMembers_eq, List.map_map]
  rfl

theorem maskMembers_put (fields : Members) (m : JsString × Json) :
    maskMembers isSecret .null [] (put fields m)
      = put (maskMembers isSecret .null [] fields) (m.1, maskField isSecret .null [m.1] m.2) := by
  rw [put, put, keys_maskMembers]
  by_cases hm : (fields.map Prod.fst).contains m.1 = true
  · rw [if_pos hm, if_pos hm, maskMembers_eq, maskMembers_eq, List.map_map, List.map_map]
    refine List.map_congr_left fun n _ => ?_
    by_cases hn : n.1 = m.1
    · simp [hn]
    · simp [hn]
  · rw [if_neg hm, if_neg hm, maskMembers_eq, maskMembers_eq, List.map_append]
    rfl

theorem SameFields.put {fields fields' : Members} (h : SameFields fields fields')
    (m : JsString × Json) : SameFields (put fields m) (put fields' m) := by
  rw [SameFields, maskMembers_put, maskMembers_put, h]

theorem SameFields.spread {fields fields' : Members} (h : SameFields fields fields')
    (more : Members) : SameFields (spread fields more) (spread fields' more) := by
  induction more generalizing fields fields' with
  | nil => exact h
  | cons m more ih => exact ih (h.put m)

/-- The fields handed to pino differ only in secrets, too. -/
theorem SameButSecrets.write {m m' : Message} (h : SameButSecrets parse m m') (payload : Members) :
    SameFields (write parse payload m).fields (write parse payload m').fields := by
  cases h with
  | fields hm hm' h =>
      rw [write_of_asObject parse hm, write_of_asObject parse hm']
      exact h.spread payload
  | text hs hs' _ _ _ =>
      rw [PinoLogger.write, PinoLogger.write, tryParse, tryParse, if_neg hs, if_neg hs']
      rfl
  | error e h => rfl

/-- Both are printed as a text, or neither is. -/
theorem SameButSecrets.isSome_text {m m' : Message} (h : SameButSecrets parse m m')
    (payload : Members) : (PinoLogger.write parse payload m).text.isSome
      = (PinoLogger.write parse payload m').text.isSome := by
  cases h with
  | fields hm hm' h => rw [write_of_asObject parse hm, write_of_asObject parse hm']
  | text hs hs' _ _ _ =>
      rw [PinoLogger.write, PinoLogger.write, tryParse, tryParse, if_neg hs, if_neg hs']
      rfl
  | error e h => rfl

end Messages

/-! ### Lines and secrets -/

/-- The secrets that no path names, among the fields that pino is about to redact. -/
def exposedSecrets (fields : Members) : List Json :=
  exposedMembers (redacted redactPaths) isSecret [] fields

theorem SameFields.length {fields fields' : Members} (h : SameFields fields fields') :
    fields.length = fields'.length := by
  have hkeys := congrArg (fun fields => (fields.map Prod.fst).length) h
  simpa only [keys_maskMembers, List.length_map] using hkeys

/-- Redacted fields are equal if the exposed secrets are. -/
theorem SameFields.redact_eq_iff {fields fields' : Members} (h : SameFields fields fields')
    (env : ProcessEnv) :
    redact (buildLoggerOptions env) fields = redact (buildLoggerOptions env) fields'
      ↔ exposedSecrets fields = exposedSecrets fields' :=
  (decides_members (.str (js "[redacted]")) .null (fun _ q => not_redacted_inside q)
    (fun m _ v' => decides_value _ _ (fun _ q => not_redacted_inside q) m.2 v') fields' h).iff

/-- Preparing the fields looks at no secret: what differs only in secrets does so afterwards. -/
def ReadsNoSecret (prepare : Bool → Members → Members) : Prop :=
  ∀ withText fields fields', SameFields fields fields' →
    SameFields (prepare withText fields) (prepare withText fields')

theorem line_eq_iff {prepare : Bool → Members → Members} (hprepare : ReadsNoSecret prepare)
    (env : ProcessEnv) (level time : JsString) {e e' : Emission}
    (hfields : SameFields e.fields e'.fields) (htext : e.text.isSome = e'.text.isSome) :
    line prepare (buildLoggerOptions env) level time e
        = line prepare (buildLoggerOptions env) level time e'
      ↔ e.text = e'.text ∧ exposedSecrets (prepare e.text.isSome e.fields)
        = exposedSecrets (prepare e'.text.isSome e'.fields) := by
  have hprepared := hprepare e.text.isSome _ _ hfields
  rw [← htext, ← hprepared.redact_eq_iff env]
  constructor
  · intro h
    have hmembers := Json.obj.inj (serialize_inj h)
    rw [List.append_assoc, List.append_assoc _ _ (List.map _ _)] at hmembers
    have hrest := List.append_cancel_left hmembers
    rw [← htext] at hrest
    obtain ⟨hredacted, htexts⟩ := List.append_inj hrest (by
      rw [redact, redact, maskMembers_eq, maskMembers_eq, List.length_map, List.length_map,
        hprepared.length])
    have hmsg : Function.Injective fun text : JsString => (js "msg", Json.str text) :=
      fun s t hst => Json.str.inj (Prod.mk.inj hst).2
    have hlists := List.map_injective_iff.mpr hmsg htexts
    refine ⟨?_, hredacted⟩
    rw [← Option.head?_toList (o := e.text), hlists, Option.head?_toList]
  · rintro ⟨htexts, hredacted⟩
    rw [line, line, ← htexts, hredacted]

section Leaks

variable (parse : JsString → Option Json) (prepare : Bool → Members → Members) (scope : Scope)
  (level : NestLevel) (optionalParams : List Param)

/-- The secrets of a message that end up in its line. -/
def leakedSecrets (m : Message) : List Json :=
  exposedSecrets (prepare (printedText parse m).isSome
    (write parse (payloadOf scope level optionalParams) m).fields)

/-- **When the line of a message does not depend on its secrets.**  Two messages that differ only in
secrets give the same line if the level is not printed, or the messages are printed with the same
text and have the same values in all secret fields that no redaction path names. -/
theorem logged_eq_iff (hprepare : ReadsNoSecret prepare) (env : ProcessEnv) {m m' : Message}
    (h : SameButSecrets parse m m') :
    logged parse prepare env scope level m optionalParams
        = logged parse prepare env scope level m' optionalParams
      ↔ enabled (buildLoggerOptions env).level (levels level) = false
        ∨ printedText parse m = printedText parse m'
          ∧ leakedSecrets parse prepare scope level optionalParams m
            = leakedSecrets parse prepare scope level optionalParams m' := by
  have hline := line_eq_iff hprepare env (levels level) scope.time
    (h.write parse (payloadOf scope level optionalParams))
    (h.isSome_text parse (payloadOf scope level optionalParams))
  rw [write_text, write_text] at hline
  rw [logged, logged, emit, emit, leakedSecrets, leakedSecrets]
  cases enabled (buildLoggerOptions env).level (levels level) with
  | false => exact iff_of_true rfl (.inl rfl)
  | true => simpa only [if_true, Option.some.injEq, reduceCtorEq, false_or] using hline

end Leaks

/-- What pino makes of fields that are neither a request dump nor have an `err`. -/
def plain : Bool → Members → Members := fun _ fields => fields

theorem plain_readsNoSecret : ReadsNoSecret plain := fun _ _ _ h => h

def production : ProcessEnv := ⟨some (js "production"), none⟩

def scope : Scope := ⟨some (js "req-1"), none, js "2026-10-05T14:03:11.412Z"⟩

/-- The fields of the test, with a password. -/
def credentials (password : JsString) : Message :=
  .object [(js "privateKey", .str (js "0xabc")), (js "password", .str password),
    (js "agentDid", .str (js "did:prom:a"))]

/-- A password two levels below the top. -/
def nested (password : JsString) : Message :=
  .object [(js "user", .obj [(js "auth", .obj [(js "password", .str password)])])]

def noParse : JsString → Option Json := fun _ => none

theorem credentials_same :
    logged noParse plain production scope .log (credentials (js "hunter2"))
        [.text (js "IdentityService")]
      = logged noParse plain production scope .log (credentials (js "swordfish"))
        [.text (js "IdentityService")] := by
  have hsame : SameButSecrets noParse (credentials (js "hunter2")) (credentials (js "swordfish")) :=
    .fields rfl rfl rfl
  exact (logged_eq_iff noParse plain scope .log [.text (js "IdentityService")] plain_readsNoSecret
    production hsame).mpr (.inr ⟨rfl, rfl⟩)

/-- The line shows a password two levels below the top. -/
theorem nested_leaks :
    SameButSecrets noParse (nested (js "hunter2")) (nested (js "swordfish"))
      ∧ logged noParse plain production scope .log (nested (js "hunter2")) []
        ≠ logged noParse plain production scope .log (nested (js "swordfish")) [] := by
  have hsame : SameButSecrets noParse (nested (js "hunter2")) (nested (js "swordfish")) :=
    .fields rfl rfl rfl
  refine ⟨hsame, fun h => ?_⟩
  have hline := (line_eq_iff plain_readsNoSecret production (levels .log) scope.time
    (hsame.write noParse (payloadOf scope .log [])) rfl).mp (Option.some.inj h)
  have hpasswords := Json.str.inj (List.cons.inj hline.2).1
  exact absurd hpasswords (by decide)

end A2aAgentLayer.Common.PinoLogger
