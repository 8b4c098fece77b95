import A2aAgentLayer.Identity.IdentityService
import A2aAgentLayer.Lib.RecordedDigest
import A2aAgentLayer.Lib.Run

/-!
# The agents table and the registry

Runs of completed `register`, `update` and `deactivate` calls, from two empty stores.  The contract
mirrors a row when its record has the row's public key and endpoint and is active exactly if the row
is.  `updateAgent` cannot change the active flag and reverts on an inactive record, and the service
sends it only for a new public key or endpoint that is not empty.
-/

namespace A2aAgentLayer.Identity.RegistryMirror

open A2aAgentLayer.Lib.Utf16 A2aAgentLayer.Lib.JsObject A2aAgentLayer.Lib.RecordedDigest
open A2aAgentLayer.Lib.Run
open A2aAgentLayer.Identity.DidController A2aAgentLayer.Identity.AgentRows
open A2aAgentLayer.Identity.IdentityService A2aAgentLayer.Contracts.AgentRegistry

variable {Digest : Type} [DecidableEq Digest]

inductive Event where
  | register (data : RegisterAgentDto) (id : JsString) (timestamp : ℕ)
  | update (id : JsString) (data : UpdateAgentDto)
  | deactivate (id : JsString)
  deriving DecidableEq

/-- A completed call. -/
def step (cfg : Config Digest) (s : State Digest) : Event → Option (State Digest)
  | .register data id timestamp => (register cfg s data id timestamp).toOption.map Prod.snd
  | .update id data => (update cfg s id data).toOption.map Prod.snd
  | .deactivate id => (deactivate cfg s id).toOption.map Prod.snd

def initial : State Digest := ⟨[], fun _ => .zero⟩

omit [DecidableEq Digest] in
theorem completed {result : Except ServiceError (Agent × State Digest)} {t : State Digest}
    (h : result.toOption.map Prod.snd = some t) : ∃ saved, result = .ok (saved, t) := by
  obtain ⟨⟨saved, t'⟩, hresult, rfl⟩ := Option.map_eq_some_iff.mp h
  cases result with
  | error e => cases hresult
  | ok pair =>
      obtain rfl := Option.some.inj hresult
      exact ⟨saved, rfl⟩

/-! ### The mirror -/

/-- The record of the row's DID exists and has its public key, its endpoint and its status. -/
def MirrorsRow (cfg : Config Digest) (agents : Agents CodeUnit Digest) (row : Agent) : Prop :=
  ∃ info, getAgent cfg.keccak256 agents row.agentDid = .ok info
    ∧ info.publicKey = row.publicKey ∧ info.endpoint = row.endpoint
    ∧ (info.active = true ↔ row.status = .active)

def Mirror (cfg : Config Digest) (s : State Digest) : Prop :=
  ∀ row ∈ s.rows, MirrorsRow cfg s.agents row

omit [DecidableEq Digest] in
theorem mirrorsRow_iff {cfg : Config Digest} {agents : Agents CodeUnit Digest} {row : Agent} :
    MirrorsRow cfg agents row ↔ (agents (cfg.keccak256 row.agentDid)).owner ≠ 0
      ∧ (agents (cfg.keccak256 row.agentDid)).publicKey = row.publicKey
      ∧ (agents (cfg.keccak256 row.agentDid)).endpoint = row.endpoint
      ∧ ((agents (cfg.keccak256 row.agentDid)).active = true ↔ row.status = .active) := by
  simp only [MirrorsRow, getAgent_eq_ok, and_assoc, exists_and_left, exists_eq_left']

/-- Ids and DIDs are unique, and the contract knows exactly the DIDs of the table, all registered by
the service wallet. -/
structure Registered (cfg : Config Digest) (s : State Digest) : Prop where
  ids : (s.rows.map (·.id)).Nodup
  dids : (s.rows.map (·.agentDid)).Nodup
  known : ∀ row ∈ s.rows, (s.agents (cfg.keccak256 row.agentDid)).owner = cfg.wallet
  unknown : ∀ did, did ∉ s.rows.map (·.agentDid) → (s.agents (cfg.keccak256 did)).owner = 0

/-- The field is left out or has the value it had. -/
def Keeps {α : Type} (field : Optional α) (old : α) : Prop :=
  assignField field (some old) = some old

/-- The update names a public key or an endpoint, which is sent to the contract. -/
def Forwarded (data : UpdateAgentDto) : Prop :=
  (truthy data.publicKey || truthy data.endpoint) = true

/-- The calls that keep the mirror: no registration of an inactive agent, no update that changes the
status, and an update that changes the public key or the endpoint only if it is forwarded and the
agent is active. -/
def StepOk (s : State Digest) : Event → Prop
  | .register data _ _ => data.status ≠ .value .inactive
  | .update id data => ∀ row ∈ s.rows, row.id = id → Keeps data.status row.status
      ∧ (Forwarded data ∧ row.status = .active
        ∨ Keeps data.publicKey row.publicKey ∧ Keeps data.endpoint row.endpoint)
  | .deactivate _ => True

/-! ### Rows that are saved again -/

/-- A call that saves one row again and writes at most the record of its DID. -/
structure Edit (cfg : Config Digest) (s t : State Digest) (found saved : Agent) : Prop where
  mem : found ∈ s.rows
  id : saved.id = found.id
  agentDid : saved.agentDid = found.agentDid
  rows : t.rows = replace s.rows saved
  agents : t.agents = s.agents
    ∨ ∃ info, info.owner = (s.agents (cfg.keccak256 found.agentDid)).owner
      ∧ t.agents = Function.update s.agents (cfg.keccak256 found.agentDid) info

section Edit

variable {cfg : Config Digest} {s t : State Digest} {found saved : Agent}

theorem Edit.owner (h : Edit cfg s t found saved) (agentId : Digest) :
    (t.agents agentId).owner = (s.agents agentId).owner := by
  rcases h.agents with heq | ⟨info, howner, heq⟩
  · rw [heq]
  · by_cases hid : agentId = cfg.keccak256 found.agentDid
    · rw [heq, hid, Function.update_self, howner]
    · rw [heq, Function.update_of_ne hid]

theorem Edit.others (h : Edit cfg s t found saved) (hkeccak : Function.Injective cfg.keccak256)
    {did : JsString} (hdid : did ≠ found.agentDid) :
    t.agents (cfg.keccak256 did) = s.agents (cfg.keccak256 did) := by
  rcases h.agents with heq | ⟨info, -, heq⟩
  · rw [heq]
  · rw [heq, Function.update_of_ne (hkeccak.ne hdid)]

theorem Edit.same_agentDid (h : Edit cfg s t found saved) (hs : Registered cfg s) {row : Agent}
    (hrow : row ∈ s.rows) (hid : row.id = saved.id) : row.agentDid = saved.agentDid := by
  rw [h.agentDid, List.inj_on_of_nodup_map hs.ids hrow h.mem (hid.trans h.id)]

theorem Edit.registered (h : Edit cfg s t found saved) (hs : Registered cfg s) :
    Registered cfg t := by
  have hdids := map_agentDid_replace fun row hrow hid => h.same_agentDid hs hrow hid
  constructor
  · rw [h.rows, map_id_replace]
    exact hs.ids
  · rw [h.rows, hdids]
    exact hs.dids
  · intro row hrow
    have hmem : row.agentDid ∈ s.rows.map (·.agentDid) := by
      rw [← hdids, ← h.rows]
      exact List.mem_map_of_mem hrow
    obtain ⟨old, hold, heq⟩ := List.mem_map.mp hmem
    rw [h.owner, ← heq]
    exact hs.known old hold
  · intro did hdid
    rw [h.rows, hdids] at hdid
    rw [h.owner]
    exact hs.unknown did hdid

/-- **Only the saved row is at stake.** -/
theorem Edit.mirror_iff (h : Edit cfg s t found saved) (hkeccak : Function.Injective cfg.keccak256)
    (hs : Registered cfg s) (hmirror : Mirror cfg s) :
    Mirror cfg t ↔ MirrorsRow cfg t.agents saved := by
  constructor
  · intro ht
    refine ht saved ?_
    rw [h.rows, mem_replace h.mem h.id]
    exact .inl rfl
  · intro hsaved row hrow
    rw [h.rows, mem_replace h.mem h.id] at hrow
    rcases hrow with rfl | ⟨hrow, hid⟩
    · exact hsaved
    · have hdid : row.agentDid ≠ found.agentDid := fun heq =>
        hid (by rw [List.inj_on_of_nodup_map hs.dids hrow h.mem heq, h.id])
      have hold := hmirror row hrow
      rw [mirrorsRow_iff] at hold ⊢
      rw [h.others hkeccak hdid]
      exact hold

end Edit

/-! ### The transactions -/

section Transactions

variable {keccak256 : JsString → Digest} {agents : Agents CodeUnit Digest} {wallet : Address}
  {did publicKey endpoint : JsString}

theorem onChain_updateAgent (howner : (agents (keccak256 did)).owner = wallet) :
    onChain agents (updateAgent keccak256 agents wallet did publicKey endpoint)
      = if (agents (keccak256 did)).active then
          Function.update agents (keccak256 did)
            { agents (keccak256 did) with publicKey := publicKey, endpoint := endpoint }
        else agents := by
  cases hactive : (agents (keccak256 did)).active with
  | true =>
      rw [updateAgent_eq_ok howner hactive]
      rfl
  | false =>
      rw [updateAgent_inactive howner hactive]
      rfl

theorem onChain_deactivateAgent (howner : (agents (keccak256 did)).owner = wallet) :
    onChain agents (deactivateAgent keccak256 agents wallet did)
      = if (agents (keccak256 did)).active then
          Function.update agents (keccak256 did) { agents (keccak256 did) with active := false }
        else agents := by
  cases hactive : (agents (keccak256 did)).active with
  | true =>
      rw [deactivateAgent_eq_ok howner hactive]
      rfl
  | false =>
      rw [deactivateAgent_inactive howner hactive]
      rfl

end Transactions

/-! ### The effect of each call -/

variable {cfg : Config Digest} {s t : State Digest} {id : JsString} {saved : Agent}

theorem sameStatus_iff {status status' : AgentStatus} :
    (status = .active ↔ status' = .active) ↔ status' = status := by
  cases status <;> cases status' <;> simp

theorem update_edit (hregistry : cfg.registryAddress ≠ []) (hs : Registered cfg s)
    {data : UpdateAgentDto} (h : update cfg s id data = .ok (saved, t)) :
    ∃ found, found.id = id ∧ Edit cfg s t found saved
      ∧ (MirrorsRow cfg s.agents found → (MirrorsRow cfg t.agents saved ↔
        Keeps data.status found.status ∧ (Forwarded data ∧ found.status = .active
          ∨ Keeps data.publicKey found.publicKey ∧ Keeps data.endpoint found.endpoint))) := by
  obtain ⟨found, hfound, hid, hsave, hrows, hagents⟩ := update_eq_ok h
  obtain ⟨hsid, hdid, -, hkey, hurl, hstatus⟩ := save_eq_some.mp hsave
  replace hdid : saved.agentDid = found.agentDid := hdid
  have howner := hs.known found hfound
  replace hagents := hagents hregistry
  rw [hdid, onChain_updateAgent howner] at hagents
  have hkept : (Keeps data.status found.status ↔ saved.status = found.status)
      ∧ (Keeps data.publicKey found.publicKey ↔ saved.publicKey = found.publicKey)
      ∧ (Keeps data.endpoint found.endpoint ↔ saved.endpoint = found.endpoint) := by
    simp only [AgentRows.assign, Agent.entity] at hkey hurl hstatus
    simp only [Keeps, hkey, hurl, hstatus, Option.some.injEq, and_self]
  refine ⟨found, hid, ⟨hfound, hsid, hdid, hrows, ?_⟩, fun hmirrors => ?_⟩
  · split_ifs at hagents with hforwarded hactive
    · exact .inr ⟨_, by rfl, hagents⟩
    · exact .inl hagents
    · exact .inl hagents
  · rw [mirrorsRow_iff] at hmirrors ⊢
    obtain ⟨hexists, hrecordKey, hrecordUrl, hactive⟩ := hmirrors
    rw [hkept.1, hkept.2.1, hkept.2.2, hdid]
    -- either the transaction goes through and the record gets the columns of the row, or no
    -- record changes
    by_cases hsent : Forwarded data ∧ found.status = .active
    · have hforwarded : (truthy data.publicKey || truthy data.endpoint) = true := hsent.1
      rw [hagents, if_pos hforwarded, if_pos (hactive.mpr hsent.2), Function.update_self]
      simp only [hexists, hactive.mpr hsent.2, hsent, ne_eq, not_false_eq_true, true_and, and_self,
        true_or, and_true, true_iff]
    · have hsame : t.agents = s.agents := by
        rw [hagents]
        split_ifs with hforwarded hrecord
        · exact absurd ⟨hforwarded, hactive.mp hrecord⟩ hsent
        · rfl
        · rfl
      rw [hsame, hrecordKey, hrecordUrl, hactive, sameStatus_iff]
      simp only [hexists, hsent, ne_eq, not_false_eq_true, true_and, false_or]
      constructor
      · rintro ⟨hkeyEq, hurlEq, hstatusEq⟩
        exact ⟨hstatusEq, hkeyEq.symm, hurlEq.symm⟩
      · rintro ⟨hstatusEq, hkeyEq, hurlEq⟩
        exact ⟨hkeyEq.symm, hurlEq.symm, hstatusEq⟩

theorem deactivate_edit (hregistry : cfg.registryAddress ≠ []) (hs : Registered cfg s)
    (h : deactivate cfg s id = .ok (saved, t)) :
    ∃ found, found.id = id ∧ Edit cfg s t found saved
      ∧ (MirrorsRow cfg s.agents found → MirrorsRow cfg t.agents saved) := by
  obtain ⟨found, hfound, hid, hsave, hrows, hagents⟩ := deactivate_eq_ok h
  obtain ⟨hsid, hdid, -, hkey, hurl, hstatus⟩ := save_eq_some.mp hsave
  replace hdid : saved.agentDid = found.agentDid := hdid
  have howner := hs.known found hfound
  replace hagents := hagents hregistry
  rw [hdid, onChain_deactivateAgent howner] at hagents
  refine ⟨found, hid, ⟨hfound, hsid, hdid, hrows, ?_⟩, fun hmirrors => ?_⟩
  · split_ifs at hagents with hactive
    · exact .inr ⟨_, by rfl, hagents⟩
    · exact .inl hagents
  · rw [mirrorsRow_iff] at hmirrors ⊢
    obtain ⟨hexists, hrecordKey, hrecordUrl, hactive⟩ := hmirrors
    rw [← Option.some.inj hkey, ← Option.some.inj hurl, ← Option.some.inj hstatus, hdid]
    split_ifs at hagents with hrecord
    · rw [hagents, Function.update_self]
      exact ⟨hexists, hrecordKey, hrecordUrl, nofun, nofun⟩
    · rw [hagents]
      exact ⟨hexists, hrecordKey, hrecordUrl, fun htrue => absurd htrue hrecord, nofun⟩

/-- What a registration writes: one row under a DID that had none, and its record. -/
theorem register_writes (hregistry : cfg.registryAddress ≠ []) (hs : Registered cfg s)
    {data : RegisterAgentDto} {timestamp : ℕ}
    (h : register cfg s data id timestamp = .ok (saved, t)) :
    (∀ row ∈ s.rows, row.agentDid ≠ saved.agentDid) ∧ t.rows = s.rows ++ [saved]
      ∧ t.agents = Function.update s.agents (cfg.keccak256 saved.agentDid)
          ⟨cfg.wallet, saved.agentDid, saved.publicKey, saved.endpoint, true, timestamp⟩
      ∧ assignField data.status (some .active) = some saved.status := by
  obtain ⟨hinsert, hrows, hagents⟩ := register_eq_ok h
  obtain ⟨-, hdid, hsaved⟩ := insert_eq_some hinsert
  rw [← hsaved] at hdid
  replace hdid : saved.agentDid ∉ s.rows.map (·.agentDid) := hdid
  replace hagents := hagents hregistry
  rw [registerAgent_eq_ok (hs.unknown saved.agentDid hdid)] at hagents
  refine ⟨fun row hrow heq => ?_, hrows, hagents, (congrArg Entity.status hsaved).symm⟩
  exact hdid (heq ▸ List.mem_map_of_mem hrow)

/-- The records of the other DIDs stay. -/
theorem agents_other (hkeccak : Function.Injective cfg.keccak256) {record : AgentInfo CodeUnit}
    (hagents : t.agents = Function.update s.agents (cfg.keccak256 saved.agentDid) record)
    {did : JsString} (hne : did ≠ saved.agentDid) :
    t.agents (cfg.keccak256 did) = s.agents (cfg.keccak256 did) := by
  rw [hagents, Function.update_of_ne (hkeccak.ne hne)]

theorem registered_register (hregistry : cfg.registryAddress ≠ [])
    (hkeccak : Function.Injective cfg.keccak256) (hs : Registered cfg s)
    {data : RegisterAgentDto} {timestamp : ℕ}
    (h : register cfg s data id timestamp = .ok (saved, t)) : Registered cfg t := by
  obtain ⟨hne, hrows, hagents, -⟩ := register_writes hregistry hs h
  obtain ⟨hids, hdids⟩ := nodup_register h
  refine ⟨hids hs.ids, hdids hs.dids, fun row hrow => ?_, fun did hnot => ?_⟩
  · rw [hrows] at hrow
    rcases List.mem_append.mp hrow with hrow | hrow
    · rw [agents_other hkeccak hagents (hne row hrow)]
      exact hs.known row hrow
    · rw [List.mem_singleton.mp hrow, hagents, Function.update_self]
  · rw [hrows, List.map_append, List.mem_append, not_or, List.map_singleton,
      List.mem_singleton] at hnot
    rw [agents_other hkeccak hagents hnot.2]
    exact hs.unknown did hnot.1

/-- A registration keeps the mirror exactly if the agent is not registered as inactive. -/
theorem mirror_register_iff (hregistry : cfg.registryAddress ≠ []) (hwallet : cfg.wallet ≠ 0)
    (hkeccak : Function.Injective cfg.keccak256) (hs : Registered cfg s) (hmirror : Mirror cfg s)
    {data : RegisterAgentDto} {timestamp : ℕ}
    (h : register cfg s data id timestamp = .ok (saved, t)) :
    Mirror cfg t ↔ data.status ≠ .value .inactive := by
  obtain ⟨hne, hrows, hagents, hstatus⟩ := register_writes hregistry hs h
  have hnew : MirrorsRow cfg t.agents saved ↔ saved.status = .active := by
    rw [mirrorsRow_iff, hagents, Function.update_self]
    simp only [hwallet, ne_eq, not_false_eq_true, true_and, true_iff]
  have hall : Mirror cfg t ↔ MirrorsRow cfg t.agents saved := by
    constructor
    · exact fun ht => ht saved (hrows ▸ List.mem_append_right _ (List.mem_singleton_self _))
    · intro hrow row hmem
      rw [hrows] at hmem
      rcases List.mem_append.mp hmem with hmem | hmem
      · have hold := hmirror row hmem
        rw [mirrorsRow_iff] at hold ⊢
        rw [agents_other hkeccak hagents (hne row hmem)]
        exact hold
      · exact List.mem_singleton.mp hmem ▸ hrow
  rw [hall, hnew]
  cases hdata : data.status with
  | undefined =>
      rw [hdata] at hstatus
      simp [← Option.some.inj hstatus]
  | null =>
      rw [hdata] at hstatus
      cases hstatus
  | value status =>
      rw [hdata] at hstatus
      rw [← Option.some.inj hstatus]
      cases status <;> simp

/-! ### The main result -/

omit [DecidableEq Digest] in
theorem registered_initial (cfg : Config Digest) : Registered cfg initial :=
  ⟨List.nodup_nil, List.nodup_nil, nofun, fun _ _ => rfl⟩

theorem registered_step (hregistry : cfg.registryAddress ≠ [])
    (hkeccak : Function.Injective cfg.keccak256) (s : State Digest) (e : Event) (t : State Digest)
    (hs : Registered cfg s) (hstep : step cfg s e = some t) : Registered cfg t := by
  cases e with
  | register data id timestamp =>
      obtain ⟨saved, h⟩ := completed hstep
      exact registered_register hregistry hkeccak hs h
  | update id data =>
      obtain ⟨saved, h⟩ := completed hstep
      obtain ⟨found, -, hedit, -⟩ := update_edit hregistry hs h
      exact hedit.registered hs
  | deactivate id =>
      obtain ⟨saved, h⟩ := completed hstep
      obtain ⟨found, -, hedit, -⟩ := deactivate_edit hregistry hs h
      exact hedit.registered hs

/-- A step from mirrored stores keeps the mirror exactly if it is one of the good calls. -/
theorem mirror_step_iff (hregistry : cfg.registryAddress ≠ []) (hwallet : cfg.wallet ≠ 0)
    (hkeccak : Function.Injective cfg.keccak256) (s : State Digest) (e : Event) (t : State Digest)
    (hs : Registered cfg s) (hmirror : Mirror cfg s) (hstep : step cfg s e = some t) :
    Mirror cfg t ↔ StepOk s e := by
  cases e with
  | register data id timestamp =>
      obtain ⟨saved, h⟩ := completed hstep
      exact mirror_register_iff hregistry hwallet hkeccak hs hmirror h
  | update id data =>
      obtain ⟨saved, h⟩ := completed hstep
      obtain ⟨found, rfl, hedit, hiff⟩ := update_edit hregistry hs h
      rw [hedit.mirror_iff hkeccak hs hmirror, hiff (hmirror found hedit.mem)]
      constructor
      · intro hok row hrow hid
        rw [List.inj_on_of_nodup_map hs.ids hrow hedit.mem hid]
        exact hok
      · exact fun hok => hok found hedit.mem rfl
  | deactivate id =>
      obtain ⟨saved, h⟩ := completed hstep
      obtain ⟨found, -, hedit, hkeep⟩ := deactivate_edit hregistry hs h
      rw [hedit.mirror_iff hkeccak hs hmirror]
      exact iff_of_true (hkeep (hmirror found hedit.mem)) trivial

/-- **When table and registry mirror each other.**  In a run of completed calls every state reached
is mirrored exactly if no agent is registered as inactive, no update changes a status, and every
update that changes a public key or an endpoint is forwarded and concerns an active agent. -/
theorem mirror_throughout_iff (hregistry : cfg.registryAddress ≠ []) (hwallet : cfg.wallet ≠ 0)
    (hkeccak : Function.Injective cfg.keccak256) {es : List Event} {s : State Digest}
    (hrun : run (step cfg) initial es = some s) :
    (∀ ps m, ps <+: es → run (step cfg) initial ps = some m → Mirror cfg m)
      ↔ AllSteps (step cfg) StepOk initial es :=
  throughout_iff (step cfg) (registered_initial cfg) nofun
    (registered_step hregistry hkeccak) (mirror_step_iff hregistry hwallet hkeccak) es s
    hrun

/-- The service wallet, and the hash with its value at the DID of `sampleClaim`. -/
def sampleConfig : Config (Recorded CodeUnit) :=
  { registryAddress := js "0x5FbDB2315678afecb367f032d93F642f64180aa3"
    wallet := 0xf39Fd6e51aad88F6F4ce6aB8827279cffFb92266
    keccak256 := digestOf [(js "did:prom:agent-1",
      [0x3f, 0xa3, 0xb0, 0x71, 0x7f, 0x5a, 0xfb, 0x59, 0xa4, 0x72, 0x20, 0xc9, 0x2c, 0xaa, 0xf7,
      0x87, 0x19, 0xf9, 0x71, 0x22, 0x5e, 0x04, 0x75, 0x0c, 0x69, 0xc0, 0x6d, 0xb8, 0xa8, 0xbe,
      0x66, 0xd7])]
    recover := sampleRecover }

theorem sampleConfig_injective : Function.Injective sampleConfig.keccak256 :=
  digestOf_injective (List.nodup_singleton _)

def sampleRegistration : RegisterAgentDto :=
  { sampleClaim with ownerSignature := sampleSignature, status := .undefined }

/-- A registration, a new endpoint and a deactivation. -/
def movedAndDeactivated : List Event :=
  [ .register sampleRegistration (js "5c1f") 1715000000,
    .update (js "5c1f") ⟨.undefined, .value (js "http://moved:8080"), .undefined⟩,
    .deactivate (js "5c1f") ]

theorem mirror_throughout_iff_movedAndDeactivated : ∃ s,
    run (step sampleConfig) initial movedAndDeactivated = some s
      ∧ s.rows.map (fun row => (row.endpoint, row.status)) = [(js "http://moved:8080", .inactive)]
      ∧ ((∀ ps m, ps <+: movedAndDeactivated → run (step sampleConfig) initial ps = some m →
          Mirror sampleConfig m)
        ↔ AllSteps (step sampleConfig) StepOk initial movedAndDeactivated) := by
  have hrow : (run (step sampleConfig) initial movedAndDeactivated).map
      (fun s => s.rows.map (fun row => (row.endpoint, row.status)))
      = some [(js "http://moved:8080", .inactive)] := by decide +kernel
  obtain ⟨s, hs, hrows⟩ := Option.map_eq_some_iff.mp hrow
  exact ⟨s, hs, hrows, mirror_throughout_iff (by decide) (by decide) sampleConfig_injective hs⟩

/-- A registration and an update that sets the status. -/
def switchedOff : List Event :=
  [ .register sampleRegistration (js "5c1f") 1715000000,
    .update (js "5c1f") ⟨.undefined, .undefined, .value .inactive⟩ ]

/-- The agent is inactive in the table and active in the contract. -/
theorem statusUpdate_not_mirrored : sampleRegistration.valid = true ∧ ∃ s,
    run (step sampleConfig) initial switchedOff = some s
      ∧ s.rows.map (fun row => (row.agentDid, row.status))
        = [(js "did:prom:agent-1", .inactive)]
      ∧ (s.agents (sampleConfig.keccak256 (js "did:prom:agent-1"))).active = true
      ∧ ¬ Mirror sampleConfig s := by
  have hrow : (run (step sampleConfig) initial switchedOff).map
      (fun s => (s.rows.map (fun row => (row.agentDid, row.status)),
        (s.agents (sampleConfig.keccak256 (js "did:prom:agent-1"))).active))
      = some ([(js "did:prom:agent-1", .inactive)], true) := by decide +kernel
  obtain ⟨s, hs, hboth⟩ := Option.map_eq_some_iff.mp hrow
  obtain ⟨hrows, hactive⟩ := Prod.mk.inj hboth
  refine ⟨by decide +kernel, s, hs, hrows, hactive, fun hmirror => ?_⟩
  obtain ⟨row, hmem, heq⟩ := List.mem_map.mp (hrows.symm ▸ List.mem_singleton_self _ :
    (js "did:prom:agent-1", AgentStatus.inactive)
      ∈ s.rows.map (fun row => (row.agentDid, row.status)))
  obtain ⟨hdid, hstatus⟩ := Prod.mk.inj heq
  have hrecord := (mirrorsRow_iff.mp (hmirror row hmem)).2.2.2
  rw [hdid, hstatus] at hrecord
  exact absurd (hrecord.mp hactive) (by decide)

end A2aAgentLayer.Identity.RegistryMirror
