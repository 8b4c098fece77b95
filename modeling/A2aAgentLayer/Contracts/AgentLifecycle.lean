import A2aAgentLayer.Contracts.AgentRegistry
import A2aAgentLayer.Lib.RecordedDigest

/-!
# The life of a registry entry

Transactions of arbitrary senders against `AgentRegistry`, in any order, from empty storage.  The
storage stays well formed: a key without an owner holds the zero record, and a key with one is the
hash of the DID stored there.  From this, what one transaction can do to the entry of a DID
(`next_cases`) gives what a whole history can do to it.
-/

namespace A2aAgentLayer.Contracts.AgentLifecycle

open A2aAgentLayer.Lib.Utf16 A2aAgentLayer.Lib.RecordedDigest
open A2aAgentLayer.Contracts.AgentRegistry

variable {Symbol Digest : Type} [DecidableEq Digest]

inductive Call (Symbol : Type) where
  | registerAgent (did publicKey endpoint : List Symbol)
  | updateAgent (did publicKey endpoint : List Symbol)
  | deactivateAgent (did : List Symbol)

def Call.did : Call Symbol → List Symbol
  | .registerAgent did _ _ => did
  | .updateAgent did _ _ => did
  | .deactivateAgent did => did

/-- Nobody sends from the zero address. -/
structure Transaction (Symbol : Type) where
  sender : Address
  timestamp : ℕ
  call : Call Symbol
  sender_ne_zero : sender ≠ 0

variable (keccak256 : List Symbol → Digest)

def execute (agents : Agents Symbol Digest) (tx : Transaction Symbol) :
    Except JsString (Agents Symbol Digest) :=
  match tx.call with
  | .registerAgent did publicKey endpoint =>
      registerAgent keccak256 agents tx.sender tx.timestamp did publicKey endpoint
  | .updateAgent did publicKey endpoint =>
      updateAgent keccak256 agents tx.sender did publicKey endpoint
  | .deactivateAgent did => deactivateAgent keccak256 agents tx.sender did

/-- The storage after a transaction, which a revert leaves as it was. -/
def next (agents : Agents Symbol Digest) (tx : Transaction Symbol) : Agents Symbol Digest :=
  match execute keccak256 agents tx with
  | .ok agents' => agents'
  | .error _ => agents

/-- The storage after a history of transactions. -/
def storage (txs : List (Transaction Symbol)) : Agents Symbol Digest :=
  txs.foldl (next keccak256) fun _ => .zero

/-- How often `active` goes from true to false under a key. -/
def deactivations (agentId : Digest) (agents : Agents Symbol Digest) :
    List (Transaction Symbol) → ℕ
  | [] => 0
  | tx :: txs =>
      (if (agents agentId).active && !(next keccak256 agents tx agentId).active then 1 else 0)
        + deactivations agentId (next keccak256 agents tx) txs

/-! ### One transaction -/

/-- What a transaction that goes through writes under the key of its DID. -/
inductive Written (tx : Transaction Symbol) (info : AgentInfo Symbol) : AgentInfo Symbol → Prop
  | registered {did publicKey endpoint : List Symbol}
      (call : tx.call = .registerAgent did publicKey endpoint) (free : info.owner = 0) :
      Written tx info ⟨tx.sender, did, publicKey, endpoint, true, tx.timestamp⟩
  | updated {did publicKey endpoint : List Symbol}
      (call : tx.call = .updateAgent did publicKey endpoint) (owner : info.owner = tx.sender)
      (active : info.active = true) :
      Written tx info { info with publicKey := publicKey, endpoint := endpoint }
  | deactivated {did : List Symbol}
      (call : tx.call = .deactivateAgent did) (owner : info.owner = tx.sender)
      (active : info.active = true) :
      Written tx info { info with active := false }

variable {keccak256} {agents : Agents Symbol Digest} {tx : Transaction Symbol}

variable (keccak256 agents tx) in
/-- **A transaction reverts, or it writes the entry of its DID.** -/
theorem execute_cases :
    (∃ reason, execute keccak256 agents tx = .error reason)
      ∨ ∃ info, Written tx (agents (keccak256 tx.call.did)) info
        ∧ execute keccak256 agents tx
          = .ok (Function.update agents (keccak256 tx.call.did) info) := by
  cases hcall : tx.call with
  | registerAgent did publicKey endpoint =>
      simp only [execute, hcall, registerAgent, Call.did]
      split_ifs with hfree
      · exact .inr ⟨_, .registered hcall hfree, rfl⟩
      · exact .inl ⟨_, rfl⟩
  | updateAgent did publicKey endpoint =>
      simp only [execute, hcall, updateAgent, onlyAgentOwner, Call.did]
      split_ifs with howner hactive
      · exact .inr ⟨_, .updated hcall howner hactive, rfl⟩
      · exact .inl ⟨_, rfl⟩
      · exact .inl ⟨_, rfl⟩
  | deactivateAgent did =>
      simp only [execute, hcall, deactivateAgent, onlyAgentOwner, Call.did]
      split_ifs with howner hactive
      · exact .inr ⟨_, .deactivated hcall howner hactive, rfl⟩
      · exact .inl ⟨_, rfl⟩
      · exact .inl ⟨_, rfl⟩

theorem next_of_error {reason : JsString} (h : execute keccak256 agents tx = .error reason) :
    next keccak256 agents tx = agents := by
  rw [next, h]

variable (keccak256 agents tx) in
theorem next_cases :
    next keccak256 agents tx = agents
      ∨ ∃ info, Written tx (agents (keccak256 tx.call.did)) info
        ∧ next keccak256 agents tx = Function.update agents (keccak256 tx.call.did) info := by
  rcases execute_cases keccak256 agents tx with ⟨reason, herror⟩ | ⟨info, hwritten, hok⟩
  · exact .inl (next_of_error herror)
  · exact .inr ⟨info, hwritten, by rw [next, hok]⟩

/-- A transaction leaves every other key alone. -/
theorem next_of_ne {agentId : Digest} (h : agentId ≠ keccak256 tx.call.did) :
    next keccak256 agents tx agentId = agents agentId := by
  rcases next_cases keccak256 agents tx with hsame | ⟨info, -, hnext⟩
  · rw [hsame]
  · rw [hnext, Function.update_of_ne h]

/-! ### One entry -/

/-- The same registration at a later time. -/
structure SameAgent (info later : AgentInfo Symbol) : Prop where
  owner : later.owner = info.owner
  did : later.did = info.did
  registeredAt : later.registeredAt = info.registeredAt
  inactive : info.active = false → later.active = false

theorem SameAgent.refl (info : AgentInfo Symbol) : SameAgent info info :=
  ⟨rfl, rfl, rfl, id⟩

theorem SameAgent.trans {a b c : AgentInfo Symbol} (hab : SameAgent a b) (hbc : SameAgent b c) :
    SameAgent a c where
  owner := hbc.owner.trans hab.owner
  did := hbc.did.trans hab.did
  registeredAt := hbc.registeredAt.trans hab.registeredAt
  inactive h := hbc.inactive (hab.inactive h)

theorem Written.same {info info' : AgentInfo Symbol} (h : Written tx info info')
    (hexists : info.owner ≠ 0) : SameAgent info info' := by
  cases h with
  | registered call free => exact absurd free hexists
  | updated call owner active => exact ⟨rfl, rfl, rfl, id⟩
  | deactivated call owner active => exact ⟨rfl, rfl, rfl, fun _ => rfl⟩

/-- Only the owner writes to an entry, and only while it is active. -/
theorem Written.byOwner {info info' : AgentInfo Symbol} (h : Written tx info info')
    (hexists : info.owner ≠ 0) : tx.sender = info.owner ∧ info.active = true := by
  cases h with
  | registered call free => exact absurd free hexists
  | updated call owner active => exact ⟨owner.symm, active⟩
  | deactivated call owner active => exact ⟨owner.symm, active⟩

/-! ### Well-formed storage -/

variable (keccak256) in
/-- A key without an owner was never written, and the others are the hashes of the stored DIDs. -/
structure WellFormed (agents : Agents Symbol Digest) : Prop where
  free : ∀ agentId, (agents agentId).owner = 0 → agents agentId = .zero
  hashed : ∀ agentId, (agents agentId).owner ≠ 0 → keccak256 (agents agentId).did = agentId

omit [DecidableEq Digest] in
theorem wellFormed_initial : WellFormed keccak256 (fun _ => .zero) :=
  ⟨fun _ _ => rfl, fun _ h => absurd rfl h⟩

omit [DecidableEq Digest] in
/-- What is written has an owner, and its DID hashes to the key. -/
theorem Written.keyed (hagents : WellFormed keccak256 agents) {info : AgentInfo Symbol}
    (h : Written tx (agents (keccak256 tx.call.did)) info) :
    info.owner ≠ 0 ∧ keccak256 info.did = keccak256 tx.call.did := by
  by_cases hfree : (agents (keccak256 tx.call.did)).owner = 0
  · cases h with
    | registered call free => exact ⟨tx.sender_ne_zero, by rw [call, Call.did]⟩
    | updated call owner active => exact absurd (owner.symm.trans hfree) tx.sender_ne_zero
    | deactivated call owner active => exact absurd (owner.symm.trans hfree) tx.sender_ne_zero
  · have hsame := h.same hfree
    rw [hsame.owner, hsame.did]
    exact ⟨hfree, hagents.hashed _ hfree⟩

theorem wellFormed_next (hagents : WellFormed keccak256 agents) :
    WellFormed keccak256 (next keccak256 agents tx) := by
  rcases next_cases keccak256 agents tx with hsame | ⟨info, hwritten, hnext⟩
  · rwa [hsame]
  · have hkeyed := hwritten.keyed hagents
    rw [hnext]
    constructor
    · intro agentId
      by_cases hkey : agentId = keccak256 tx.call.did
      · subst hkey
        rw [Function.update_self]
        exact fun hzero => absurd hzero hkeyed.1
      · rw [Function.update_of_ne hkey]
        exact hagents.free agentId
    · intro agentId
      by_cases hkey : agentId = keccak256 tx.call.did
      · subst hkey
        rw [Function.update_self]
        exact fun _ => hkeyed.2
      · rw [Function.update_of_ne hkey]
        exact hagents.hashed agentId

variable (keccak256 tx) in
theorem next_same {agentId : Digest} (hexists : (agents agentId).owner ≠ 0) :
    SameAgent (agents agentId) (next keccak256 agents tx agentId) := by
  rcases next_cases keccak256 agents tx with hsame | ⟨info, hwritten, hnext⟩
  · rw [hsame]
    exact .refl _
  · by_cases hkey : agentId = keccak256 tx.call.did
    · subst hkey
      rw [hnext, Function.update_self]
      exact hwritten.same hexists
    · rw [hnext, Function.update_of_ne hkey]
      exact .refl _

/-- Whoever changes an existing entry is its owner, and it was active. -/
theorem next_byOwner {agentId : Digest} (hexists : (agents agentId).owner ≠ 0)
    (hchanged : next keccak256 agents tx agentId ≠ agents agentId) :
    tx.sender = (agents agentId).owner ∧ (agents agentId).active = true := by
  rcases next_cases keccak256 agents tx with hsame | ⟨info, hwritten, hnext⟩
  · exact absurd (congrFun hsame agentId) hchanged
  · by_cases hkey : agentId = keccak256 tx.call.did
    · subst hkey
      exact hwritten.byOwner hexists
    · exact absurd (next_of_ne hkey) hchanged

/-! ### Histories -/

theorem wellFormed_foldl {agents : Agents Symbol Digest} (hagents : WellFormed keccak256 agents)
    (txs : List (Transaction Symbol)) :
    WellFormed keccak256 (txs.foldl (next keccak256) agents) := by
  induction txs generalizing agents with
  | nil => exact hagents
  | cons tx txs ih => exact ih (wellFormed_next hagents)

theorem wellFormed_storage (txs : List (Transaction Symbol)) :
    WellFormed keccak256 (storage keccak256 txs) :=
  wellFormed_foldl wellFormed_initial txs

theorem foldl_same {agents : Agents Symbol Digest} {agentId : Digest}
    (hexists : (agents agentId).owner ≠ 0) (txs : List (Transaction Symbol)) :
    SameAgent (agents agentId) (txs.foldl (next keccak256) agents agentId) := by
  induction txs generalizing agents with
  | nil => exact .refl _
  | cons tx txs ih =>
      have hstep := next_same keccak256 tx hexists
      exact hstep.trans (ih (hstep.owner.symm ▸ hexists))

/-- An entry that is inactive for good is not deactivated again. -/
theorem deactivations_of_inactive {agents : Agents Symbol Digest} {agentId : Digest}
    (hexists : (agents agentId).owner ≠ 0) (hinactive : (agents agentId).active = false)
    (txs : List (Transaction Symbol)) : deactivations keccak256 agentId agents txs = 0 := by
  induction txs generalizing agents with
  | nil => rfl
  | cons tx txs ih =>
      have hstep := next_same keccak256 tx hexists
      rw [deactivations, hinactive, ih (hstep.owner.symm ▸ hexists) (hstep.inactive hinactive)]
      rfl

theorem deactivations_le_one {agents : Agents Symbol Digest}
    (hagents : WellFormed keccak256 agents) (agentId : Digest) (txs : List (Transaction Symbol)) :
    deactivations keccak256 agentId agents txs ≤ 1 := by
  induction txs generalizing agents with
  | nil => exact Nat.zero_le 1
  | cons tx txs ih =>
      rw [deactivations]
      split_ifs with hflip
      · simp only [Bool.and_eq_true, Bool.not_eq_true'] at hflip
        have hexists : (agents agentId).owner ≠ 0 := fun hzero => by
          have hactive := hflip.1
          rw [hagents.free agentId hzero] at hactive
          cases hactive
        have hstep := next_same keccak256 tx hexists
        rw [deactivations_of_inactive (hstep.owner.symm ▸ hexists) hflip.2]
      · rw [Nat.zero_add]
        exact ih (wellFormed_next hagents)

theorem storage_append (earlier later : List (Transaction Symbol)) :
    storage keccak256 (earlier ++ later)
      = later.foldl (next keccak256) (storage keccak256 earlier) := by
  rw [storage, List.foldl_append]
  rfl

/-- A registration that goes through, as the rest of the history shows it. -/
theorem storage_of_registered {earlier : List (Transaction Symbol)}
    (later : List (Transaction Symbol)) {did publicKey endpoint : List Symbol}
    {agents' : Agents Symbol Digest}
    (hcall : tx.call = .registerAgent did publicKey endpoint)
    (hok : execute keccak256 (storage keccak256 earlier) tx = .ok agents') :
    SameAgent ⟨tx.sender, did, publicKey, endpoint, true, tx.timestamp⟩
      (storage keccak256 (earlier ++ tx :: later) (keccak256 did)) := by
  have hdid : tx.call.did = did := by rw [hcall, Call.did]
  have hnext : next keccak256 (storage keccak256 earlier) tx (keccak256 did)
      = ⟨tx.sender, did, publicKey, endpoint, true, tx.timestamp⟩ := by
    rw [next, hok]
    simp only [execute, hcall, registerAgent] at hok
    split_ifs at hok with hfree
    rw [← Except.ok.inj hok]
    exact Function.update_self ..
  rw [storage_append, List.foldl_cons, ← hnext]
  refine foldl_same ?_ later
  rw [hnext]
  exact tx.sender_ne_zero

/-! ### Ownership and lifecycle -/

variable (keccak256) in
/-- What one transaction can do to the entry of a DID. -/
structure StepLaws (agents : Agents Symbol Digest) (tx : Transaction Symbol) (did : List Symbol) :
    Prop where
  reverted : ∀ reason, execute keccak256 agents tx = .error reason →
    next keccak256 agents tx = agents
  others : tx.call.did ≠ did →
    next keccak256 agents tx (keccak256 did) = agents (keccak256 did)
  columns : (agents (keccak256 did)).owner ≠ 0 →
    (next keccak256 agents tx (keccak256 did)).publicKey ≠ (agents (keccak256 did)).publicKey
      ∨ (next keccak256 agents tx (keccak256 did)).endpoint ≠ (agents (keccak256 did)).endpoint →
    tx.sender = (agents (keccak256 did)).owner ∧ (agents (keccak256 did)).active = true
  active : (agents (keccak256 did)).owner ≠ 0 →
    (next keccak256 agents tx (keccak256 did)).active ≠ (agents (keccak256 did)).active →
    tx.sender = (agents (keccak256 did)).owner ∧ (agents (keccak256 did)).active = true
      ∧ (next keccak256 agents tx (keccak256 did)).active = false

variable (keccak256) in
/-- What a history does to the entry of a DID: the registration stays what it was, every later
change is the owner's while the entry is active, and there is at most one deactivation. -/
structure Lifecycle (txs : List (Transaction Symbol)) (did : List Symbol) : Prop where
  registered : ∀ earlier tx later publicKey endpoint agents', txs = earlier ++ tx :: later →
    tx.call = .registerAgent did publicKey endpoint →
    execute keccak256 (storage keccak256 earlier) tx = .ok agents' →
    (storage keccak256 txs (keccak256 did)).owner = tx.sender
      ∧ (storage keccak256 txs (keccak256 did)).did = did
      ∧ (storage keccak256 txs (keccak256 did)).registeredAt = tx.timestamp
  persists : ∀ earlier later, txs = earlier ++ later →
    (storage keccak256 earlier (keccak256 did)).owner ≠ 0 →
    SameAgent (storage keccak256 earlier (keccak256 did)) (storage keccak256 txs (keccak256 did))
      ∧ (storage keccak256 txs (keccak256 did)).did = did
  step : ∀ earlier tx later, txs = earlier ++ tx :: later →
    StepLaws keccak256 (storage keccak256 earlier) tx did
  once : deactivations keccak256 (keccak256 did) (fun _ => .zero) txs ≤ 1

theorem stepLaws (hkeccak : Function.Injective keccak256) (agents : Agents Symbol Digest)
    (tx : Transaction Symbol) (did : List Symbol) : StepLaws keccak256 agents tx did where
  reverted _ h := next_of_error h
  others h := next_of_ne (hkeccak.ne h.symm)
  columns hexists h := next_byOwner hexists fun hsame => by
    rw [hsame] at h
    exact h.elim (fun hne => hne rfl) fun hne => hne rfl
  active hexists h := by
    have howner := next_byOwner hexists fun hsame => h (by rw [hsame])
    rw [howner.2] at h
    exact ⟨howner.1, howner.2, Bool.eq_false_iff.mpr h⟩

/-- **Ownership and lifecycle of every agent, in every history.** -/
theorem ownership_and_lifecycle (hkeccak : Function.Injective keccak256)
    (txs : List (Transaction Symbol)) (did : List Symbol) : Lifecycle keccak256 txs did where
  registered := by
    rintro earlier tx later publicKey endpoint agents' rfl hcall hok
    have hsame := storage_of_registered later hcall hok
    exact ⟨hsame.owner, hsame.did, hsame.registeredAt⟩
  persists := by
    rintro earlier later rfl hexists
    have hsame : SameAgent (storage keccak256 earlier (keccak256 did))
        (storage keccak256 (earlier ++ later) (keccak256 did)) := by
      rw [storage_append]
      exact foldl_same hexists later
    refine ⟨hsame, hkeccak ((wellFormed_storage _).hashed _ ?_)⟩
    rw [hsame.owner]
    exact hexists
  step earlier tx _ _ := stepLaws hkeccak (storage keccak256 earlier) tx did
  once := deactivations_le_one wellFormed_initial (keccak256 did) txs

/-- The hash with its values at two DIDs. -/
def didKeccak256 : JsString → Recorded CodeUnit :=
  digestOf
    [(js "did:prom:a",
      [0x43, 0xc8, 0x1d, 0x57, 0x06, 0x94, 0xab, 0x20, 0x7e, 0x7c, 0x4f, 0x42, 0x1f, 0xea, 0x66,
     0xe6, 0xb9, 0x65, 0x1d, 0xf6, 0x04, 0x20, 0x52, 0x3f, 0x58, 0x82, 0x48, 0xec, 0x15, 0x9e,
     0xe1, 0x2b]),
     (js "did:prom:b",
      [0x63, 0x0b, 0x8b, 0x25, 0x4e, 0xdc, 0x43, 0xb2, 0xde, 0x27, 0x86, 0x2d, 0xf8, 0xd6, 0xea,
     0xab, 0x88, 0x63, 0x92, 0xca, 0x86, 0x55, 0x63, 0x25, 0x20, 0xba, 0xe4, 0xdb, 0x52, 0xf2,
     0x15, 0xab])]

theorem didKeccak256_injective : Function.Injective didKeccak256 :=
  digestOf_injective (by decide)

/-- The third update is a stranger's and the last comes too late. -/
def sampleHistory : List (Transaction CodeUnit) :=
  [ ⟨7, 100, .registerAgent (js "did:prom:a") (js "0xa1") (js "http://a:1"), by decide⟩,
    ⟨9, 101, .registerAgent (js "did:prom:b") (js "0xb1") (js "http://b:1"), by decide⟩,
    ⟨9, 102, .updateAgent (js "did:prom:a") (js "0xa2") (js "http://a:2"), by decide⟩,
    ⟨7, 103, .updateAgent (js "did:prom:a") (js "0xa3") (js "http://a:3"), by decide⟩,
    ⟨7, 104, .deactivateAgent (js "did:prom:a"), by decide⟩,
    ⟨7, 105, .updateAgent (js "did:prom:a") (js "0xa4") (js "http://a:4"), by decide⟩ ]

theorem ownership_and_lifecycle_sampleHistory :
    storage didKeccak256 sampleHistory (didKeccak256 (js "did:prom:a"))
        = ⟨7, js "did:prom:a", js "0xa3", js "http://a:3", false, 100⟩
      ∧ Lifecycle didKeccak256 sampleHistory (js "did:prom:a") :=
  ⟨by decide +kernel,
    ownership_and_lifecycle didKeccak256_injective sampleHistory (js "did:prom:a")⟩

end A2aAgentLayer.Contracts.AgentLifecycle
