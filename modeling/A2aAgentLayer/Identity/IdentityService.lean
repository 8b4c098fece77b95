import A2aAgentLayer.Contracts.AgentRegistry
import A2aAgentLayer.Identity.AgentRows
import A2aAgentLayer.Identity.DidController

/-!
# The identity service

`register`, `update` and `deactivate` write the agents table first and then, when a registry address
is configured, send the matching transaction from the service wallet.  A transaction that fails is
logged and otherwise ignored.  The calls here run one after another.
-/

namespace A2aAgentLayer.Identity.IdentityService

open A2aAgentLayer.Lib.Utf16 A2aAgentLayer.Lib.JsObject A2aAgentLayer.Common.FieldValidators
open A2aAgentLayer.Identity.DidController A2aAgentLayer.Identity.AgentRows
open A2aAgentLayer.Contracts.AgentRegistry

structure RegisterAgentDto extends RegistrationClaim where
  ownerSignature : JsString
  status : Optional AgentStatus
  deriving DecidableEq

/-- The validators of `RegisterAgentDto`. -/
def RegisterAgentDto.valid (data : RegisterAgentDto) : Bool :=
  data.toRegistrationClaim.valid && isNotEmpty data.ownerSignature

/-- `recover` is `ethers.verifyMessage`, `wallet` the address all transactions come from. -/
structure Config (Digest : Type) where
  registryAddress : JsString
  wallet : Address
  keccak256 : JsString → Digest
  recover : JsString → JsString → Option JsString

/-- The table and the storage of the contract. -/
structure State (Digest : Type) where
  rows : List Agent
  agents : Agents CodeUnit Digest

/-- What a call throws. -/
inductive ServiceError where
  | forbidden (message : JsString)
  | conflict (message : JsString)
  | notFound (message : JsString)
  | database
  deriving DecidableEq

variable {Digest : Type}

/-- A failed transaction is logged, and the service goes on. -/
def onChain (agents : Agents CodeUnit Digest)
    (transaction : Except JsString (Agents CodeUnit Digest)) : Agents CodeUnit Digest :=
  match transaction with
  | .ok agents' => agents'
  | .error _ => agents

/-! ### The table -/

def findByDid (rows : List Agent) (did : JsString) : Option Agent :=
  rows.find? fun row => row.agentDid = did

def findOne (rows : List Agent) (id : JsString) : Except ServiceError Agent :=
  match rows.find? fun row => row.id = id with
  | some row => .ok row
  | none => .error (.notFound (js "Agent " ++ id ++ js " not found"))

/-- `agentRepo.create` with a generated id; an absent status becomes the column's default. -/
def create (data : RegisterAgentDto) (id : JsString) : Entity :=
  { id := id
    agentDid := data.agentDid
    owner := toLowerCase data.owner
    publicKey := some data.publicKey
    endpoint := some data.endpoint
    status := assignField data.status (some .active) }

/-- Inserting an entity; the table refuses `null` and a second row with the id or the DID. -/
def insert (rows : List Agent) (agent : Entity) : Option Agent :=
  if rows.any fun row => row.id = agent.id ∨ row.agentDid = agent.agentDid then none
  else do
    let publicKey ← agent.publicKey
    let endpoint ← agent.endpoint
    let status ← agent.status
    return { id := agent.id, agentDid := agent.agentDid, owner := agent.owner, publicKey, endpoint,
             status }

/-- The table after a row has been saved. -/
def replace (rows : List Agent) (saved : Agent) : List Agent :=
  rows.map fun row => if row.id = saved.id then saved else row

/-- A field that is present and neither `null` nor empty. -/
def truthy : Optional JsString → Bool
  | .value s => !s.isEmpty
  | _ => false

/-! ### The operations -/

variable [DecidableEq Digest] (cfg : Config Digest)

def register (s : State Digest) (data : RegisterAgentDto) (id : JsString) (timestamp : ℕ) :
    Except ServiceError (Agent × State Digest) :=
  if !verifyDidController cfg.recover data.toRegistrationClaim data.ownerSignature then
    .error (.forbidden (js "ownerSignature does not prove control of the claimed owner address"))
  else if (findByDid s.rows data.agentDid).isSome then
    .error (.conflict (js "Agent " ++ data.agentDid ++ js " is already registered"))
  else
    match insert s.rows (create data id) with
    | none => .error .database
    | some saved =>
        .ok (saved,
          { rows := s.rows ++ [saved]
            agents :=
              if cfg.registryAddress ≠ [] then
                onChain s.agents (registerAgent cfg.keccak256 s.agents cfg.wallet timestamp
                  saved.agentDid saved.publicKey saved.endpoint)
              else s.agents })

def update (s : State Digest) (id : JsString) (data : UpdateAgentDto) :
    Except ServiceError (Agent × State Digest) :=
  match findOne s.rows id with
  | .error e => .error e
  | .ok found =>
      match save found (assign found.entity data) with
      | none => .error .database
      | some saved =>
          .ok (saved,
            { rows := replace s.rows saved
              agents :=
                if cfg.registryAddress ≠ [] ∧ (truthy data.publicKey || truthy data.endpoint) then
                  onChain s.agents (updateAgent cfg.keccak256 s.agents cfg.wallet saved.agentDid
                    saved.publicKey saved.endpoint)
                else s.agents })

def deactivate (s : State Digest) (id : JsString) : Except ServiceError (Agent × State Digest) :=
  match findOne s.rows id with
  | .error e => .error e
  | .ok found =>
      match save found (deactivated found.entity) with
      | none => .error .database
      | some saved =>
          .ok (saved,
            { rows := replace s.rows saved
              agents :=
                if cfg.registryAddress ≠ [] then
                  onChain s.agents
                    (deactivateAgent cfg.keccak256 s.agents cfg.wallet saved.agentDid)
                else s.agents })

/-! ### Rows that are saved again -/

theorem map_id_replace (rows : List Agent) (saved : Agent) :
    (replace rows saved).map (·.id) = rows.map (·.id) := by
  rw [replace, List.map_map]
  refine List.map_congr_left fun row _ => ?_
  simp only [Function.comp_apply]
  split_ifs with h
  · exact h.symm
  · rfl

theorem map_agentDid_replace {rows : List Agent} {saved : Agent}
    (h : ∀ row ∈ rows, row.id = saved.id → row.agentDid = saved.agentDid) :
    (replace rows saved).map (·.agentDid) = rows.map (·.agentDid) := by
  rw [replace, List.map_map]
  refine List.map_congr_left fun row hrow => ?_
  simp only [Function.comp_apply]
  split_ifs with hid
  · exact (h row hrow hid).symm
  · rfl

theorem mem_replace {rows : List Agent} {saved found row : Agent} (hfound : found ∈ rows)
    (hid : saved.id = found.id) :
    row ∈ replace rows saved ↔ row = saved ∨ row ∈ rows ∧ row.id ≠ saved.id := by
  rw [replace, List.mem_map]
  constructor
  · rintro ⟨old, hold, rfl⟩
    split_ifs with h
    · exact .inl rfl
    · exact .inr ⟨hold, h⟩
  · rintro (rfl | ⟨hrow, hne⟩)
    · exact ⟨found, hfound, if_pos hid.symm⟩
    · exact ⟨row, hrow, if_neg hne⟩

/-! ### What a completed call does -/

theorem findOne_eq_ok {rows : List Agent} {id : JsString} {found : Agent}
    (h : findOne rows id = .ok found) : found ∈ rows ∧ found.id = id := by
  rw [findOne] at h
  split at h
  next row hrow =>
    obtain rfl := Except.ok.inj h
    have hid := List.find?_some hrow
    exact ⟨List.mem_of_find?_eq_some hrow, of_decide_eq_true hid⟩
  · cases h

theorem insert_eq_some {rows : List Agent} {agent : Entity} {saved : Agent}
    (h : insert rows agent = some saved) :
    agent.id ∉ rows.map (·.id) ∧ agent.agentDid ∉ rows.map (·.agentDid)
      ∧ saved.entity = agent := by
  rw [insert] at h
  split_ifs at h with hany
  simp only [List.any_eq_true, decide_eq_true_eq, not_exists, not_and, not_or] at hany
  simp only [Option.bind_eq_bind, Option.bind_eq_some_iff, Option.pure_def] at h
  obtain ⟨key, hkey, url, hurl, st, hst, hsaved⟩ := h
  obtain rfl := Option.some.inj hsaved
  refine ⟨fun hid => ?_, fun hdid => ?_, ?_⟩
  · obtain ⟨row, hrow, heq⟩ := List.mem_map.mp hid
    exact (hany row hrow).1 heq
  · obtain ⟨row, hrow, heq⟩ := List.mem_map.mp hdid
    exact (hany row hrow).2 heq
  · rw [Agent.entity, ← hkey, ← hurl, ← hst]

variable {cfg} {s t : State Digest} {id : JsString} {saved : Agent}

theorem register_eq_ok {data : RegisterAgentDto} {timestamp : ℕ}
    (h : register cfg s data id timestamp = .ok (saved, t)) :
    insert s.rows (create data id) = some saved
      ∧ t.rows = s.rows ++ [saved]
      ∧ (cfg.registryAddress ≠ [] →
        t.agents = onChain s.agents (registerAgent cfg.keccak256 s.agents cfg.wallet timestamp
          saved.agentDid saved.publicKey saved.endpoint)) := by
  rw [register] at h
  split at h
  · cases h
  split at h
  · cases h
  split at h
  · cases h
  next row hrow =>
    obtain ⟨rfl, rfl⟩ := Prod.mk.inj (Except.ok.inj h)
    exact ⟨hrow, rfl, fun hregistry => if_pos hregistry⟩

/-- Ids and DIDs stay distinct when a row is registered. -/
theorem nodup_register {data : RegisterAgentDto} {timestamp : ℕ}
    (h : register cfg s data id timestamp = .ok (saved, t)) :
    ((s.rows.map (·.id)).Nodup → (t.rows.map (·.id)).Nodup)
      ∧ ((s.rows.map (·.agentDid)).Nodup → (t.rows.map (·.agentDid)).Nodup) := by
  obtain ⟨hinsert, hrows, -⟩ := register_eq_ok h
  obtain ⟨hid, hdid, hsaved⟩ := insert_eq_some hinsert
  rw [← hsaved] at hid hdid
  rw [hrows, List.map_append, List.map_append, List.map_singleton, List.map_singleton,
    ← List.concat_eq_append, ← List.concat_eq_append]
  exact ⟨List.Nodup.concat hid, List.Nodup.concat hdid⟩

/-- Only a claim with a signature of its owner is registered. -/
theorem register_verified {data : RegisterAgentDto} {timestamp : ℕ}
    (h : register cfg s data id timestamp = .ok (saved, t)) :
    verifyDidController cfg.recover data.toRegistrationClaim data.ownerSignature = true := by
  rw [register] at h
  split at h
  · cases h
  next hverified => simpa using hverified

theorem update_eq_ok {data : UpdateAgentDto} (h : update cfg s id data = .ok (saved, t)) :
    ∃ found ∈ s.rows, found.id = id ∧ save found (assign found.entity data) = some saved
      ∧ t.rows = replace s.rows saved
      ∧ (cfg.registryAddress ≠ [] →
        t.agents = if truthy data.publicKey || truthy data.endpoint then
          onChain s.agents (updateAgent cfg.keccak256 s.agents cfg.wallet saved.agentDid
            saved.publicKey saved.endpoint)
        else s.agents) := by
  rw [update] at h
  split at h
  · cases h
  next found hfound =>
    obtain ⟨hmem, hid⟩ := findOne_eq_ok hfound
    split at h
    · cases h
    next row hrow =>
      obtain ⟨rfl, rfl⟩ := Prod.mk.inj (Except.ok.inj h)
      exact ⟨found, hmem, hid, hrow, rfl, fun hregistry => by simp only [hregistry, ne_eq,
        not_false_eq_true, true_and]⟩

theorem deactivate_eq_ok (h : deactivate cfg s id = .ok (saved, t)) :
    ∃ found ∈ s.rows, found.id = id ∧ save found (deactivated found.entity) = some saved
      ∧ t.rows = replace s.rows saved
      ∧ (cfg.registryAddress ≠ [] →
        t.agents = onChain s.agents
          (deactivateAgent cfg.keccak256 s.agents cfg.wallet saved.agentDid)) := by
  rw [deactivate] at h
  split at h
  · cases h
  next found hfound =>
    obtain ⟨hmem, hid⟩ := findOne_eq_ok hfound
    split at h
    · cases h
    next row hrow =>
      obtain ⟨rfl, rfl⟩ := Prod.mk.inj (Except.ok.inj h)
      exact ⟨found, hmem, hid, hrow, rfl, fun hregistry => if_pos hregistry⟩

end A2aAgentLayer.Identity.IdentityService
