import A2aAgentLayer.Identity.RegistryMirror

/-!
# What the owners of listed agents have signed

Runs of `register`, `update` and `deactivate` calls, completed or refused, together with the
registration requests that were presented so far.  `register` lists an agent only with a signature
of its owner over all its fields; `update` asks for none.
-/

namespace A2aAgentLayer.Identity.SignedRows

open A2aAgentLayer.Lib.Utf16 A2aAgentLayer.Lib.JsObject A2aAgentLayer.Lib.Run
open A2aAgentLayer.Identity.DidController A2aAgentLayer.Identity.AgentRows
open A2aAgentLayer.Identity.IdentityService
open A2aAgentLayer.Identity.RegistryMirror (Event Keeps completed)

variable {Digest : Type} [DecidableEq Digest]

/-- The service and the registration requests it was given. -/
structure Served (Digest : Type) where
  service : State Digest
  presented : List RegisterAgentDto

def initial : Served Digest := ⟨RegistryMirror.initial, []⟩

/-- The request a call presents. -/
def requests : Event → List RegisterAgentDto
  | .register data _ _ => [data]
  | _ => []

/-- A call that is refused changes nothing. -/
def step (cfg : Config Digest) (s : Served Digest) (e : Event) : Option (Served Digest) :=
  some
    { service := (RegistryMirror.step cfg s.service e).getD s.service
      presented := s.presented ++ requests e }

/-! ### Claims and signatures -/

/-- The claim a row makes. -/
def rowClaim (row : Agent) : RegistrationClaim :=
  { agentDid := row.agentDid
    owner := row.owner
    publicKey := row.publicKey
    endpoint := row.endpoint }

/-- Someone presented the claim with a signature that was accepted for its owner. -/
def Signed (cfg : Config Digest) (presented : List RegisterAgentDto) (claim : RegistrationClaim) :
    Prop :=
  ∃ data ∈ presented,
    verifyDidController cfg.recover data.toRegistrationClaim data.ownerSignature = true
      ∧ SameFields data.toRegistrationClaim claim

/-- Every listed agent carries what its owner signed. -/
def AllSigned (cfg : Config Digest) (s : Served Digest) : Prop :=
  ∀ row ∈ s.service.rows, Signed cfg s.presented (rowClaim row)

/-- The claim a row makes with the values of an update, unless one of them is `null`. -/
def updatedClaim (row : Agent) (data : UpdateAgentDto) : Option RegistrationClaim := do
  let publicKey ← assignField data.publicKey (some row.publicKey)
  let endpoint ← assignField data.endpoint (some row.endpoint)
  return { agentDid := row.agentDid, owner := row.owner, publicKey, endpoint }

/-- The calls that keep all rows signed: an update that would be stored leaves the public key and
the endpoint as they are, or names values its owner has signed before. -/
def StepOk (cfg : Config Digest) (s : Served Digest) : Event → Prop
  | .update id data => ¬ data.HasNull → ∀ row ∈ s.service.rows, row.id = id →
      (Keeps data.publicKey row.publicKey ∧ Keeps data.endpoint row.endpoint)
        ∨ ∃ claim, updatedClaim row data = some claim ∧ Signed cfg s.presented claim
  | _ => True

omit [DecidableEq Digest] in
theorem Signed.mono {cfg : Config Digest} {presented more : List RegisterAgentDto}
    {claim : RegistrationClaim} (h : Signed cfg presented claim) :
    Signed cfg (presented ++ more) claim := by
  obtain ⟨data, hdata, haccepted⟩ := h
  exact ⟨data, List.mem_append_left _ hdata, haccepted⟩

/-! ### The calls -/

variable {cfg : Config Digest}

omit [DecidableEq Digest] in
theorem allSigned_append {s : State Digest} {presented : List RegisterAgentDto}
    (h : AllSigned cfg ⟨s, presented⟩) (more : List RegisterAgentDto) :
    AllSigned cfg ⟨s, presented ++ more⟩ :=
  fun row hrow => (h row hrow).mono

omit [DecidableEq Digest] in
theorem rowClaim_registered {data : RegisterAgentDto} {id : JsString} {saved : Agent}
    (h : saved.entity = create data id) :
    SameFields data.toRegistrationClaim (rowClaim saved) := by
  have hdid : saved.agentDid = data.agentDid := congrArg Entity.agentDid h
  have howner : saved.owner = toLowerCase data.owner := congrArg Entity.owner h
  have hkey : some saved.publicKey = some data.publicKey := congrArg Entity.publicKey h
  have hurl : some saved.endpoint = some data.endpoint := congrArg Entity.endpoint h
  refine ⟨hdid.symm, ?_, (Option.some.inj hkey).symm, (Option.some.inj hurl).symm⟩
  show toLowerCase data.owner = toLowerCase saved.owner
  rw [howner, toLowerCase_idem]

theorem allSigned_register {s : Served Digest} {data : RegisterAgentDto} {id : JsString}
    {timestamp : ℕ} {saved : Agent} {t : State Digest} (hall : AllSigned cfg s)
    (h : register cfg s.service data id timestamp = .ok (saved, t)) :
    AllSigned cfg ⟨t, s.presented ++ [data]⟩ := by
  obtain ⟨hinsert, hrows, -⟩ := register_eq_ok h
  intro row hrow
  replace hrow : row ∈ t.rows := hrow
  rw [hrows] at hrow
  rcases List.mem_append.mp hrow with hrow | hrow
  · exact (hall row hrow).mono
  · rw [List.mem_singleton.mp hrow]
    exact ⟨data, List.mem_append_right _ (List.mem_singleton_self _), register_verified h,
      rowClaim_registered (insert_eq_some hinsert).2.2⟩

omit [DecidableEq Digest] in
/-- An edit of one row leaves all rows signed exactly if that row is. -/
theorem allSigned_replace_iff {s : Served Digest} {t : State Digest} {found saved : Agent}
    (hall : AllSigned cfg s) (hfound : found ∈ s.service.rows) (hid : saved.id = found.id)
    (hrows : t.rows = replace s.service.rows saved) :
    AllSigned cfg ⟨t, s.presented⟩ ↔ Signed cfg s.presented (rowClaim saved) := by
  constructor
  · intro h
    refine h saved ?_
    show saved ∈ t.rows
    rw [hrows, mem_replace hfound hid]
    exact .inl rfl
  · intro hsaved row hrow
    replace hrow : row ∈ t.rows := hrow
    rw [hrows, mem_replace hfound hid] at hrow
    rcases hrow with rfl | ⟨hrow, -⟩
    · exact hsaved
    · exact hall row hrow

omit [DecidableEq Digest] in
/-- The claim of a row that an update has saved. -/
theorem updatedClaim_of_save {found saved : Agent} {data : UpdateAgentDto}
    (h : save found (assign found.entity data) = some saved) :
    updatedClaim found data = some (rowClaim saved) := by
  obtain ⟨-, hdid, howner, hkey, hurl, -⟩ := save_eq_some.mp h
  replace hkey : assignField data.publicKey (some found.publicKey) = some saved.publicKey := hkey
  replace hurl : assignField data.endpoint (some found.endpoint) = some saved.endpoint := hurl
  replace hdid : saved.agentDid = found.agentDid := hdid
  replace howner : saved.owner = found.owner := howner
  rw [updatedClaim, hkey, hurl, rowClaim, hdid, howner]
  rfl

omit [DecidableEq Digest] in
theorem rowClaim_of_keeps {row : Agent} {data : UpdateAgentDto} {claim : RegistrationClaim}
    (hkey : Keeps data.publicKey row.publicKey) (hurl : Keeps data.endpoint row.endpoint)
    (h : updatedClaim row data = some claim) : claim = rowClaim row := by
  rw [Keeps] at hkey hurl
  rw [updatedClaim, hkey, hurl] at h
  exact (Option.some.inj h).symm

/-- An update that sets nothing to `null` is refused only when there is no such agent. -/
theorem update_completes {s : State Digest} {id : JsString} {data : UpdateAgentDto}
    (hnull : ¬ data.HasNull) {row : Agent} (hrow : row ∈ s.rows) (hid : row.id = id) :
    RegistryMirror.step cfg s (.update id data) ≠ none := by
  cases hfind : s.rows.find? fun row => decide (row.id = id) with
  | none =>
      have hnone := List.find?_eq_none.mp hfind row hrow
      rw [decide_eq_true_eq] at hnone
      exact absurd hid hnone
  | some found =>
      obtain ⟨saved, hsaved⟩ := exists_save_assign hnull found found
      rw [RegistryMirror.step, update, findOne, hfind]
      simp only [hsaved]
      exact Option.some_ne_none _

/-! ### Runs -/

/-- Ids are unique. -/
def UniqueIds (s : Served Digest) : Prop := (s.service.rows.map (·.id)).Nodup

omit [DecidableEq Digest] in
theorem uniqueIds_replace {s : Served Digest} (hs : UniqueIds s) {t : State Digest} {saved : Agent}
    (hrows : t.rows = replace s.service.rows saved) (presented : List RegisterAgentDto) :
    UniqueIds ⟨t, presented⟩ := by
  show (t.rows.map (·.id)).Nodup
  rw [hrows, map_id_replace]
  exact hs

theorem uniqueIds_step (s : Served Digest) (e : Event) (t : Served Digest) (hs : UniqueIds s)
    (hstep : step cfg s e = some t) : UniqueIds t := by
  obtain rfl := Option.some.inj hstep
  cases hcall : RegistryMirror.step cfg s.service e with
  | none => exact hs
  | some t =>
      cases e with
      | register data id timestamp =>
          obtain ⟨saved, h⟩ := completed hcall
          exact (nodup_register h).1 hs
      | update id data =>
          obtain ⟨saved, h⟩ := completed hcall
          obtain ⟨found, -, -, -, hrows, -⟩ := update_eq_ok h
          exact uniqueIds_replace hs hrows _
      | deactivate id =>
          obtain ⟨saved, h⟩ := completed hcall
          obtain ⟨found, -, -, -, hrows, -⟩ := deactivate_eq_ok h
          exact uniqueIds_replace hs hrows _

theorem allSigned_update_iff {s : Served Digest} {id : JsString} {data : UpdateAgentDto}
    {saved : Agent} {t : State Digest} (hs : UniqueIds s) (hall : AllSigned cfg s)
    (h : update cfg s.service id data = .ok (saved, t)) :
    AllSigned cfg ⟨t, s.presented⟩ ↔ StepOk cfg s (.update id data) := by
  obtain ⟨found, hfound, hid, hsave, hrows, -⟩ := update_eq_ok h
  have hclaim := updatedClaim_of_save hsave
  rw [allSigned_replace_iff hall hfound (save_eq_some.mp hsave).1 hrows]
  constructor
  · intro hsigned _ row hrow hrowId
    rw [List.inj_on_of_nodup_map hs hrow hfound (hrowId.trans hid.symm)]
    exact .inr ⟨_, hclaim, hsigned⟩
  · intro hok
    have hnull : ¬ data.HasNull := fun hnull => by
      rw [save_assign_of_hasNull hnull] at hsave
      cases hsave
    rcases hok hnull found hfound hid with ⟨hkey, hurl⟩ | ⟨claim, hnamed, hsigned⟩
    · rw [rowClaim_of_keeps hkey hurl hclaim]
      exact hall found hfound
    · rw [Option.some.inj (hclaim.symm.trans hnamed)]
      exact hsigned

theorem allSigned_deactivate {s : Served Digest} {id : JsString} {saved : Agent} {t : State Digest}
    (hall : AllSigned cfg s) (h : deactivate cfg s.service id = .ok (saved, t)) :
    AllSigned cfg ⟨t, s.presented⟩ := by
  obtain ⟨found, hfound, -, hsave, hrows, -⟩ := deactivate_eq_ok h
  obtain ⟨hid, hdid, howner, hkey, hurl, -⟩ := save_eq_some.mp hsave
  have hsame : rowClaim saved = rowClaim found := by
    rw [rowClaim, rowClaim, ← Option.some.inj hkey, ← Option.some.inj hurl, hdid, howner]
    rfl
  rw [allSigned_replace_iff hall hfound hid hrows, hsame]
  exact hall found hfound

/-- **A call keeps all rows signed exactly if it is one of the good ones.** -/
theorem allSigned_step_iff (s : Served Digest) (e : Event) (t : Served Digest) (hs : UniqueIds s)
    (hall : AllSigned cfg s) (hstep : step cfg s e = some t) :
    AllSigned cfg t ↔ StepOk cfg s e := by
  obtain rfl := Option.some.inj hstep
  cases e with
  | register data id timestamp =>
      refine iff_of_true ?_ trivial
      cases hcall : RegistryMirror.step cfg s.service (.register data id timestamp) with
      | none => exact allSigned_append hall _
      | some t =>
          obtain ⟨saved, h⟩ := completed hcall
          exact allSigned_register hall h
  | update id data =>
      cases hcall : RegistryMirror.step cfg s.service (.update id data) with
      | none =>
          refine iff_of_true (allSigned_append hall _) fun hnull row hrow hid => ?_
          exact absurd hcall (update_completes hnull hrow hid)
      | some t =>
          obtain ⟨saved, h⟩ := completed hcall
          show AllSigned cfg ⟨t, s.presented ++ []⟩ ↔ _
          rw [List.append_nil]
          exact allSigned_update_iff hs hall h
  | deactivate id =>
      refine iff_of_true ?_ trivial
      cases hcall : RegistryMirror.step cfg s.service (.deactivate id) with
      | none => exact allSigned_append hall _
      | some t =>
          obtain ⟨saved, h⟩ := completed hcall
          show AllSigned cfg ⟨t, s.presented ++ []⟩
          rw [List.append_nil]
          exact allSigned_deactivate hall h

/-- **When every listed agent carries what its owner signed.**  In a run of calls all rows are
signed at every moment exactly if every update that is stored leaves public key and endpoint as they
are, or names values that were presented before with a signature of the owner. -/
theorem allSigned_throughout_iff {es : List Event} {s : Served Digest}
    (hrun : run (step cfg) initial es = some s) :
    (∀ ps m, ps <+: es → run (step cfg) initial ps = some m → AllSigned cfg m)
      ↔ AllSteps (step cfg) (StepOk cfg) initial es :=
  throughout_iff (step cfg) List.nodup_nil nofun uniqueIds_step allSigned_step_iff es s hrun

open RegistryMirror (sampleConfig sampleRegistration)

/-- A registration, an update that repeats the endpoint, and a deactivation. -/
def repeatedEndpoint : List Event :=
  [ .register sampleRegistration (js "5c1f") 1715000000,
    .update (js "5c1f") ⟨.undefined, .value sampleClaim.endpoint, .undefined⟩,
    .deactivate (js "5c1f") ]

theorem allSigned_throughout_iff_repeatedEndpoint : ∃ s,
    run (step sampleConfig) initial repeatedEndpoint = some s
      ∧ s.service.rows.map rowClaim
        = [{ sampleClaim with owner := toLowerCase sampleClaim.owner }]
      ∧ ((∀ ps m, ps <+: repeatedEndpoint → run (step sampleConfig) initial ps = some m →
          AllSigned sampleConfig m)
        ↔ AllSteps (step sampleConfig) (StepOk sampleConfig) initial repeatedEndpoint) := by
  have hrows : (run (step sampleConfig) initial repeatedEndpoint).map
      (fun s => s.service.rows.map rowClaim)
      = some [{ sampleClaim with owner := toLowerCase sampleClaim.owner }] := by decide +kernel
  obtain ⟨s, hs, hclaims⟩ := Option.map_eq_some_iff.mp hrows
  exact ⟨s, hs, hclaims, allSigned_throughout_iff hs⟩

/-- A registration and an update of the endpoint. -/
def movedEndpoint : List Event :=
  [ .register sampleRegistration (js "5c1f") 1715000000,
    .update (js "5c1f") ⟨.undefined, .value (js "http://attacker:8080"), .undefined⟩ ]

/-- The agent is listed with an endpoint that nobody signed. -/
theorem movedEndpoint_unsigned : sampleRegistration.valid = true ∧ ∃ s,
    run (step sampleConfig) initial movedEndpoint = some s
      ∧ s.presented = [sampleRegistration]
      ∧ s.service.rows.map (fun row => (row.agentDid, row.endpoint))
        = [(js "did:prom:agent-1", js "http://attacker:8080")]
      ∧ ¬ AllSigned sampleConfig s := by
  have hstate : (run (step sampleConfig) initial movedEndpoint).map (fun s =>
      (s.presented, s.service.rows.map (fun row => (row.agentDid, row.endpoint))))
      = some ([sampleRegistration], [(js "did:prom:agent-1", js "http://attacker:8080")]) := by
    decide +kernel
  obtain ⟨s, hs, hboth⟩ := Option.map_eq_some_iff.mp hstate
  obtain ⟨hpresented, hrows⟩ := Prod.mk.inj hboth
  refine ⟨by decide +kernel, s, hs, hpresented, hrows, fun hall => ?_⟩
  have hmem : (js "did:prom:agent-1", js "http://attacker:8080")
      ∈ s.service.rows.map (fun row => (row.agentDid, row.endpoint)) := by
    rw [hrows]
    exact List.mem_singleton_self _
  obtain ⟨row, hrow, heq⟩ := List.mem_map.mp hmem
  obtain ⟨data, hdata, -, hsame⟩ := hall row hrow
  rw [hpresented] at hdata
  obtain rfl := List.mem_singleton.mp hdata
  have hendpoint : sampleRegistration.endpoint = js "http://attacker:8080" :=
    hsame.2.2.2.trans (Prod.mk.inj heq).2
  exact absurd hendpoint (by decide)

end A2aAgentLayer.Identity.SignedRows
