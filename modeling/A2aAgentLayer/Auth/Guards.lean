import A2aAgentLayer.Common.RequestHeaders
import A2aAgentLayer.Lib.JsText
import A2aAgentLayer.Lib.JsonTree
import A2aAgentLayer.Lib.KeyedStore

/-!
# API keys and the guard chain

`ApiKeyGuard`, `JwtAuthGuard` and `RolesGuard` run in this order.  The first never rejects: it
writes a service user into the request when it finds a valid key.  The second lets public routes and
requests with a valid key pass and asks passport otherwise.  The third compares the role of the user
that the first two have left with the roles of the route.

What passport finds, the payload of a validly signed bearer token that has not expired, is a
parameter, and so is the digest of the API keys.
-/

namespace A2aAgentLayer.Auth.Guards

open A2aAgentLayer.Lib.Utf16 A2aAgentLayer.Lib.JsText A2aAgentLayer.Lib.JsonTree
open A2aAgentLayer.Lib.KeyedStore A2aAgentLayer.Common.RequestHeaders

/-! ### API keys -/

/-- A trimmed entry `label:key` of `API_KEYS`; `none` if it is malformed. -/
def parseEntry (trimmed : JsString) : Option (JsString × JsString) :=
  match trimmed.idxOf? (unit ':') with
  | none => none
  | some separator =>
      if separator = 0 ∨ separator + 1 = trimmed.length then none
      else some (trimmed.take separator, trimmed.drop (separator + 1))

/-- The labels and keys of `API_KEYS`. -/
def configuredKeys (raw : JsString) : List (JsString × JsString) :=
  (raw.splitOn (unit ',')).filterMap fun pair =>
    let trimmed := trim pair
    if trimmed = [] then none else parseEntry trimmed

example : configuredKeys (js "broken,:nolabel,trailing:, rail:aa:bb")
    = [(js "rail", js "aa:bb")] := by decide

section ApiKeys

variable (sha256 : ByteArray → List UInt8)

/-- The digest of a key, as bytes. -/
def digest (value : JsString) : List UInt8 := sha256 (utf8Encode value)

/-- Digest to label. -/
def loadKeys (raw : JsString) : Store (List UInt8) JsString :=
  insertAll ∅ ((configuredKeys raw).map fun entry => (digest sha256 entry.2, entry.1))

/-- The label of a key that is presented.  The digests are distinct, so the loop over them is a
lookup. -/
def verify (keys : Store (List UInt8) JsString) (presented : Option JsString) : Option JsString :=
  match presented with
  | none => none
  | some value => if value = [] then none else keys.lookup (digest sha256 value)

end ApiKeys

/-! ### Users and routes -/

inductive Role where
  | agent
  | operator
  | admin
  | service
  deriving DecidableEq

def Role.text : Role → JsString
  | .agent => js "agent"
  | .operator => js "operator"
  | .admin => js "admin"
  | .service => js "service"

/-- The claims of a token; a claim may be absent or any JSON value. -/
structure JwtPayload where
  sub : Option Json
  did : Option Json
  role : Option Json

structure AuthenticatedUser where
  userId : Option Json
  did : Option Json
  role : Option Json

/-- `JwtStrategy.validate`. -/
def validate (payload : JwtPayload) : AuthenticatedUser := ⟨payload.sub, payload.did, payload.role⟩

def serviceUser (label : JsString) : AuthenticatedUser where
  userId := some (.str (js "service:" ++ label))
  did := some (.str (js "did:prom:service-" ++ label))
  role := some (.str Role.service.text)

/-- The metadata of a handler and of its class. -/
structure Route where
  handlerPublic : Option Bool
  classPublic : Option Bool
  handlerRoles : Option (List Role)
  classRoles : Option (List Role)

/-- `getAllAndOverride(IS_PUBLIC_KEY, [handler, class])`. -/
def Route.isPublic (route : Route) : Bool := (route.handlerPublic.or route.classPublic).getD false

/-- `getAllAndOverride(ROLES_KEY, [handler, class])`. -/
def Route.requiredRoles (route : Route) : List Role :=
  (route.handlerRoles.or route.classRoles).getD []

structure Env where
  sha256 : ByteArray → List UInt8
  apiKeys : JsString
  apiKeyHeader : JsString
  passport : Headers → Option JwtPayload

/-- A request with what the guards write into it. -/
structure Request where
  headers : Headers
  user : Option AuthenticatedUser := none
  apiKeyAuth : Bool := false

inductive Rejection where
  | unauthorized
  | forbidden (message : JsString)
  deriving DecidableEq

/-! ### The guards -/

def Env.keys (env : Env) : Store (List UInt8) JsString := loadKeys env.sha256 env.apiKeys

/-- `keys.size > 0`. -/
def Env.enabled (env : Env) : Bool := decide (0 < env.keys.entries.length)

/-- The label that `ApiKeyGuard` finds for the presented key. -/
def identity (env : Env) (headers : Headers) : Option JsString :=
  verify env.sha256 env.keys ((firstValue (headers env.apiKeyHeader)).map (·.text))

/-- `ApiKeyGuard.canActivate`. -/
def apiKeyGuard (env : Env) (request : Request) : Request :=
  if env.enabled = false then request
  else
    match identity env request.headers with
    | none => request
    | some label => { request with user := some (serviceUser label), apiKeyAuth := true }

/-- `JwtAuthGuard.canActivate`; the last branch is passport's guard. -/
def jwtAuthGuard (env : Env) (route : Route) (request : Request) : Except Rejection Request :=
  if route.isPublic then .ok request
  else if request.apiKeyAuth then .ok request
  else
    match env.passport request.headers with
    | none => .error .unauthorized
    | some payload => .ok { request with user := some (validate payload) }

/-- A value that counts as present in a condition. -/
def present : Option Json → Bool
  | none => false
  | some .null => false
  | some (.bool b) => b
  | some (.num x) => !x.digits.isEmpty
  | some (.str s) => !s.isEmpty
  | some (.arr _) => true
  | some (.obj _) => true

/-- `user.role === role`. -/
def hasRole (claim : Option Json) (role : Role) : Bool :=
  match claim with
  | some (.str s) => decide (s = role.text)
  | _ => false

def requiresOneOf (roles : List Role) : JsString :=
  js "Requires one of roles: " ++ (js ", ").intercalate (roles.map Role.text)

/-- `RolesGuard.canActivate`. -/
def rolesGuard (route : Route) (request : Request) : Except Rejection Request :=
  if route.requiredRoles = [] then .ok request
  else
    match request.user with
    | none => .error (.forbidden (js "Role is required to access this resource"))
    | some user =>
        if present user.role = false then
          .error (.forbidden (js "Role is required to access this resource"))
        else if route.requiredRoles.any (hasRole user.role) then .ok request
        else .error (.forbidden (requiresOneOf route.requiredRoles))

/-- The chain as the application registers it. -/
def guards (env : Env) (route : Route) (headers : Headers) : Except Rejection Request := do
  let request ← jwtAuthGuard env route (apiKeyGuard env { headers := headers })
  rolesGuard route request

/-! ### Who enters -/

/-- The digest of the presented key is that of a configured one. -/
def ValidKey (env : Env) (headers : Headers) : Prop :=
  ∃ value, firstValue (headers env.apiKeyHeader) = some value ∧ value.text ≠ []
    ∧ ∃ entry ∈ configuredKeys env.apiKeys,
      digest env.sha256 entry.2 = digest env.sha256 value.text

/-- The role of the caller: `service` with a valid key, otherwise the claim of the token on routes
that are not public. -/
def CallerRole (env : Env) (route : Route) (headers : Headers) (role : Role) : Prop :=
  (ValidKey env headers ∧ role = .service)
    ∨ ¬ ValidKey env headers ∧ route.isPublic = false
      ∧ ∃ payload, env.passport headers = some payload ∧ payload.role = some (.str role.text)

theorem mem_keys_iff {env : Env} {d : List UInt8} :
    (env.keys.lookup d).isSome = true
      ↔ ∃ entry ∈ configuredKeys env.apiKeys, digest env.sha256 entry.2 = d := by
  rw [Env.keys, loadKeys, isSome_lookup_insertAll, AList.lookup_empty, List.map_map]
  simp only [Option.isSome_none, Bool.false_eq_true, false_or, List.mem_map, Function.comp_apply]

theorem identity_isSome_iff {env : Env} {headers : Headers} :
    (identity env headers).isSome = true ↔ ValidKey env headers := by
  rw [identity, ValidKey]
  cases firstValue (headers env.apiKeyHeader) with
  | none => simp [verify]
  | some value =>
      simp only [Option.map_some, verify, Option.some.injEq, exists_eq_left']
      split_ifs with hempty
      · simp [hempty]
      · rw [mem_keys_iff, and_iff_right hempty]

/-- Without configured keys nothing is identified, so the guard need not ask whether there are
any. -/
theorem apiKeyGuard_eq (env : Env) (request : Request) :
    apiKeyGuard env request = match identity env request.headers with
      | none => request
      | some label => { request with user := some (serviceUser label), apiKeyAuth := true } := by
  rw [apiKeyGuard]
  split_ifs with henabled
  · have hnone : env.keys.entries = [] := by
      rw [Env.enabled, decide_eq_false_iff_not] at henabled
      exact List.length_eq_zero_iff.mp (by omega)
    have hidentity : identity env request.headers = none := by
      rw [identity]
      cases firstValue (request.headers env.apiKeyHeader) with
      | none => rfl
      | some value =>
          have hlookup : env.keys.lookup (digest env.sha256 value.text) = none := by
            rw [AList.lookup, hnone]
            rfl
          simp only [Option.map_some, verify, hlookup, ite_self]
    rw [hidentity]
  · rfl

/-- The user that the first two guards leave in a request they let pass. -/
def arrives (env : Env) (route : Route) (headers : Headers) : Option Request :=
  match identity env headers with
  | some label => some ⟨headers, some (serviceUser label), true⟩
  | none =>
      if route.isPublic then some ⟨headers, none, false⟩
      else (env.passport headers).map fun payload => ⟨headers, some (validate payload), false⟩

theorem guards_eq (env : Env) (route : Route) (headers : Headers) :
    guards env route headers = match arrives env route headers with
      | none => .error .unauthorized
      | some request => rolesGuard route request := by
  rw [guards, apiKeyGuard_eq, arrives]
  cases identity env headers with
  | some label =>
      simp only [jwtAuthGuard, if_true]
      split_ifs
      · rfl
      · rfl
  | none =>
      simp only [jwtAuthGuard, Bool.false_eq_true, if_false]
      split_ifs
      · rfl
      · cases env.passport headers with
        | none => rfl
        | some payload => rfl

theorem role_text_ne_nil (role : Role) : role.text ≠ [] := by
  cases role <;> decide

theorem role_text_inj {a b : Role} : a.text = b.text ↔ a = b := by
  constructor
  · cases a <;> cases b <;> decide
  · rintro rfl
    rfl

theorem hasRole_iff {claim : Option Json} {role : Role} :
    hasRole claim role = true ↔ claim = some (.str role.text) := by
  cases claim with
  | none => simp [hasRole]
  | some value =>
      cases value with
      | str s => simp [hasRole]
      | null => simp [hasRole]
      | bool b => simp [hasRole]
      | num x => simp [hasRole]
      | arr elements => simp [hasRole]
      | obj members => simp [hasRole]

/-- **The third guard** passes requests whose user has one of the required roles. -/
theorem rolesGuard_ok_iff {route : Route} {request : Request} :
    (∃ r, rolesGuard route request = .ok r) ↔ route.requiredRoles = [] ∨
      ∃ role ∈ route.requiredRoles, ∃ user, request.user = some user
        ∧ user.role = some (.str role.text) := by
  rw [rolesGuard]
  split_ifs with hnone
  · simp [hnone]
  rw [or_iff_right hnone]
  cases request.user with
  | none => simp
  | some user =>
      simp only [Option.some.injEq, exists_eq_left']
      split_ifs with hpresent hany
      · constructor
        · rintro ⟨r, h⟩
          cases h
        · rintro ⟨role, -, hrole⟩
          have hempty : role.text.isEmpty = false := by simpa using role_text_ne_nil role
          rw [hrole, present, hempty] at hpresent
          cases hpresent
      · refine iff_of_true ⟨request, rfl⟩ ?_
        obtain ⟨role, hmem, hrole⟩ := List.any_eq_true.mp hany
        exact ⟨role, hmem, hasRole_iff.mp hrole⟩
      · constructor
        · rintro ⟨r, h⟩
          cases h
        · rintro ⟨role, hmem, hrole⟩
          exact absurd (List.any_eq_true.mpr ⟨role, hmem, hasRole_iff.mpr hrole⟩) hany

/-- **Who enters a handler.**  The route is public, or the API key is valid, or the bearer token is;
and no role is required, or the caller has one of the required ones. -/
theorem enters_iff (env : Env) (route : Route) (headers : Headers) :
    (∃ request, guards env route headers = .ok request)
      ↔ (route.isPublic = true ∨ ValidKey env headers ∨ (env.passport headers).isSome = true)
        ∧ (route.requiredRoles = []
          ∨ ∃ role ∈ route.requiredRoles, CallerRole env route headers role) := by
  have hkey := @identity_isSome_iff env headers
  rw [guards_eq, arrives]
  cases hid : identity env headers with
  | some label =>
      rw [hid] at hkey
      have hvalid := hkey.mp rfl
      rw [and_iff_right (.inr (.inl hvalid))]
      simp only [rolesGuard_ok_iff, CallerRole, hvalid, true_and, not_true_eq_false, false_and,
        or_false, Option.some.injEq, exists_eq_left']
      refine or_congr_right (exists_congr fun role => and_congr_right fun _ => ?_)
      show some (Json.str Role.service.text) = some (.str role.text) ↔ role = .service
      rw [Option.some.injEq, Json.str.injEq, role_text_inj, eq_comm]
  | none =>
      rw [hid] at hkey
      have hinvalid : ¬ ValidKey env headers := fun h => Bool.false_ne_true (hkey.mpr h)
      simp only [CallerRole, hinvalid, false_and, false_or, not_false_eq_true, true_and]
      cases hpublic : route.isPublic with
      | true => simp [rolesGuard_ok_iff]
      | false =>
          cases hpassport : env.passport headers with
          | none => simp
          | some payload => simp [rolesGuard_ok_iff, validate]

/-- With a digest without collisions, a valid key is one of the configured keys. -/
theorem validKey_iff {env : Env} (hinj : Function.Injective env.sha256)
    (hkeys : ∀ entry ∈ configuredKeys env.apiKeys, wellFormed entry.2 = true)
    (headers : Headers) :
    ValidKey env headers ↔ ∃ value, firstValue (headers env.apiKeyHeader) = some value
      ∧ value.text ≠ [] ∧ value.text ∈ (configuredKeys env.apiKeys).map Prod.snd := by
  refine exists_congr fun value => and_congr_right fun _ => and_congr_right fun _ => ?_
  rw [List.mem_map]
  refine exists_congr fun entry => and_congr_right fun hentry => ?_
  constructor
  · intro h
    exact utf8Encode_inj (hkeys entry hentry) value.wellFormed_text (hinj h)
  · intro h
    rw [h]

end A2aAgentLayer.Auth.Guards
