import A2aAgentLayer.Common.FieldValidators

/-!
# Agents

The row of an agent, the entity the service holds in memory, and what the two DTOs do to it.  A DTO
field that the body leaves out is `undefined` and keeps the column; `null` passes `@IsOptional()`
and sets it, which the table refuses when the entity is saved.
-/

namespace A2aAgentLayer.Identity.AgentRows

open A2aAgentLayer.Lib.Utf16 A2aAgentLayer.Lib.JsObject A2aAgentLayer.Common.FieldValidators

inductive AgentStatus where
  | active
  | inactive
  deriving DecidableEq

/-- A row of the table. -/
structure Agent where
  id : JsString
  agentDid : JsString
  owner : JsString
  publicKey : JsString
  endpoint : JsString
  status : AgentStatus
  deriving DecidableEq

/-- The entity in memory; `none` is a column that was set to `null`. -/
structure Entity where
  id : JsString
  agentDid : JsString
  owner : JsString
  publicKey : Option JsString
  endpoint : Option JsString
  status : Option AgentStatus
  deriving DecidableEq

structure UpdateAgentDto where
  publicKey : Optional JsString
  endpoint : Optional JsString
  status : Optional AgentStatus
  deriving DecidableEq

/-- The validators of `UpdateAgentDto`; any string is a public key. -/
def UpdateAgentDto.valid (data : UpdateAgentDto) : Bool := optionally isHttpUrl data.endpoint

/-- What a query gives. -/
def Agent.entity (row : Agent) : Entity :=
  { id := row.id
    agentDid := row.agentDid
    owner := row.owner
    publicKey := some row.publicKey
    endpoint := some row.endpoint
    status := some row.status }

/-- A property after `Object.assign`. -/
def assignField {α : Type} : Optional α → Option α → Option α
  | .undefined, old => old
  | .null, _ => none
  | .value v, _ => some v

/-- `Object.assign(agent, data)`. -/
def assign (agent : Entity) (data : UpdateAgentDto) : Entity :=
  { agent with
    publicKey := assignField data.publicKey agent.publicKey
    endpoint := assignField data.endpoint agent.endpoint
    status := assignField data.status agent.status }

/-- `agent.status = AgentStatus.INACTIVE`. -/
def deactivated (agent : Entity) : Entity := { agent with status := some .inactive }

/-- A column is written when the value in memory differs from the stored one; none is nullable. -/
def writeColumn {α : Type} [DecidableEq α] (stored : α) (inMemory : Option α) : Option α :=
  if inMemory = some stored then some stored else inMemory

@[simp] theorem writeColumn_eq {α : Type} [DecidableEq α] (stored : α) (inMemory : Option α) :
    writeColumn stored inMemory = inMemory := by
  rw [writeColumn]
  split_ifs with h
  · exact h.symm
  · rfl

/-- `agentRepo.save(agent)` over the stored row, `none` when the table refuses it. -/
def save (stored : Agent) (agent : Entity) : Option Agent := do
  let agentDid ← writeColumn stored.agentDid (some agent.agentDid)
  let owner ← writeColumn stored.owner (some agent.owner)
  let publicKey ← writeColumn stored.publicKey agent.publicKey
  let endpoint ← writeColumn stored.endpoint agent.endpoint
  let status ← writeColumn stored.status agent.status
  return { id := stored.id, agentDid, owner, publicKey, endpoint, status }

/-- **What a save leaves.**  The stored row becomes the entity, unless a column is `null`. -/
theorem save_eq_some {stored row : Agent} {agent : Entity} :
    save stored agent = some row ↔ row.id = stored.id ∧ row.agentDid = agent.agentDid
      ∧ row.owner = agent.owner ∧ agent.publicKey = some row.publicKey
      ∧ agent.endpoint = some row.endpoint ∧ agent.status = some row.status := by
  obtain ⟨id, agentDid, owner, publicKey, endpoint, status⟩ := row
  simp only [save, writeColumn_eq, Option.bind_eq_bind, Option.bind_some, Option.pure_def,
    Option.bind_eq_some_iff, Option.some.injEq, Agent.mk.injEq]
  constructor
  · rintro ⟨key, hkey, url, hurl, st, hst, rfl, rfl, rfl, rfl, rfl, rfl⟩
    exact ⟨rfl, rfl, rfl, hkey, hurl, hst⟩
  · rintro ⟨rfl, rfl, rfl, hkey, hurl, hst⟩
    exact ⟨_, hkey, _, hurl, _, hst, rfl, rfl, rfl, rfl, rfl, rfl⟩

/-! ### Columns a DTO names -/

/-- Some column is set to `null`. -/
def UpdateAgentDto.HasNull (data : UpdateAgentDto) : Prop :=
  data.publicKey = .null ∨ data.endpoint = .null ∨ data.status = .null

instance (data : UpdateAgentDto) : Decidable data.HasNull :=
  inferInstanceAs (Decidable (_ ∨ _ ∨ _))

/-- The rows agree on every column that the DTO does not name. -/
structure AgreeOutside (data : UpdateAgentDto) (row row' : Agent) : Prop where
  agentDid : row.agentDid = row'.agentDid
  owner : row.owner = row'.owner
  publicKey : data.publicKey = .undefined → row.publicKey = row'.publicKey
  endpoint : data.endpoint = .undefined → row.endpoint = row'.endpoint
  status : data.status = .undefined → row.status = row'.status

theorem AgreeOutside.refl (data : UpdateAgentDto) (row : Agent) : AgreeOutside data row row :=
  ⟨rfl, rfl, fun _ => rfl, fun _ => rfl, fun _ => rfl⟩

theorem AgreeOutside.symm {data : UpdateAgentDto} {row row' : Agent}
    (h : AgreeOutside data row row') : AgreeOutside data row' row :=
  ⟨h.agentDid.symm, h.owner.symm, fun hu => (h.publicKey hu).symm,
    fun hu => (h.endpoint hu).symm, fun hu => (h.status hu).symm⟩

theorem AgreeOutside.trans {data : UpdateAgentDto} {row row' row'' : Agent}
    (h : AgreeOutside data row row') (h' : AgreeOutside data row' row'') :
    AgreeOutside data row row'' :=
  ⟨h.agentDid.trans h'.agentDid, h.owner.trans h'.owner,
    fun hu => (h.publicKey hu).trans (h'.publicKey hu),
    fun hu => (h.endpoint hu).trans (h'.endpoint hu), fun hu => (h.status hu).trans (h'.status hu)⟩

/-- A field after `Object.assign` is missing only when the DTO sets it to `null`. -/
theorem assignField_isSome {α : Type} {field : Optional α} (old : α) (h : field ≠ .null) :
    ∃ v, assignField field (some old) = some v := by
  cases field with
  | undefined => exact ⟨old, rfl⟩
  | null => exact absurd rfl h
  | value v => exact ⟨v, rfl⟩

/-- Saving a changed entity succeeds when the DTO sets nothing to `null`. -/
theorem exists_save_assign {data : UpdateAgentDto} (h : ¬ data.HasNull) (found stored : Agent) :
    ∃ row, save stored (assign found.entity data) = some row := by
  simp only [UpdateAgentDto.HasNull, not_or] at h
  obtain ⟨key, hkey⟩ := assignField_isSome found.publicKey h.1
  obtain ⟨url, hurl⟩ := assignField_isSome found.endpoint h.2.1
  obtain ⟨st, hst⟩ := assignField_isSome found.status h.2.2
  exact ⟨⟨stored.id, found.agentDid, found.owner, key, url, st⟩,
    save_eq_some.mpr ⟨rfl, rfl, rfl, hkey, hurl, hst⟩⟩

theorem save_assign_of_hasNull {data : UpdateAgentDto} (h : data.HasNull) (found stored : Agent) :
    save stored (assign found.entity data) = none := by
  rw [Option.eq_none_iff_forall_ne_some]
  intro row hrow
  obtain ⟨-, -, -, hkey, hurl, hst⟩ := save_eq_some.mp hrow
  rcases h with h | h | h
  · simp [assign, h, assignField] at hkey
  · simp [assign, h, assignField] at hurl
  · simp [assign, h, assignField] at hst

/-- **A saved entity has the columns of the row it was read from, outside the DTO.** -/
theorem save_assign {data : UpdateAgentDto} {found stored row : Agent}
    (h : save stored (assign found.entity data) = some row) : AgreeOutside data found row := by
  obtain ⟨-, hdid, howner, hkey, hurl, hst⟩ := save_eq_some.mp h
  refine ⟨hdid.symm, howner.symm, fun hu => ?_, fun hu => ?_, fun hu => ?_⟩
  · simpa [assign, hu, assignField, Agent.entity] using hkey
  · simpa [assign, hu, assignField, Agent.entity] using hurl
  · simpa [assign, hu, assignField, Agent.entity] using hst

end A2aAgentLayer.Identity.AgentRows
