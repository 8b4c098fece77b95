import Mathlib.Data.List.Induction
import A2aAgentLayer.Contracts.AgentLifecycle
import A2aAgentLayer.Lib.KeyedFold

/-!
# Following the agent registry by its events

A transaction that goes through emits one event.  `AgentRegistered` carries the owner and the DID,
and only `AgentUpdated` carries the key and the endpoint.  Whoever replays the log of the contract
knows of every registration its owner, its DID and whether it is active, and its key and endpoint
from the first update on; until then they stand in the registering transaction alone.
-/

namespace A2aAgentLayer.Contracts.AgentEvents

open A2aAgentLayer.Lib.Utf16 A2aAgentLayer.Lib.KeyedFold
open A2aAgentLayer.Contracts.AgentRegistry A2aAgentLayer.Contracts.AgentLifecycle

variable {Symbol Digest : Type} [DecidableEq Digest]

inductive AgentEvent (Symbol Digest : Type) where
  | agentRegistered (agentId : Digest) (owner : Address) (did : List Symbol)
  | agentUpdated (agentId : Digest) (publicKey endpoint : List Symbol)
  | agentDeactivated (agentId : Digest)

def AgentEvent.agentId : AgentEvent Symbol Digest → Digest
  | .agentRegistered agentId _ _ => agentId
  | .agentUpdated agentId _ _ => agentId
  | .agentDeactivated agentId => agentId

variable (keccak256 : List Symbol → Digest)

/-- The `emit` of a transaction. -/
def event (tx : Transaction Symbol) : AgentEvent Symbol Digest :=
  match tx.call with
  | .registerAgent did _ _ => .agentRegistered (keccak256 did) tx.sender did
  | .updateAgent did publicKey endpoint => .agentUpdated (keccak256 did) publicKey endpoint
  | .deactivateAgent did => .agentDeactivated (keccak256 did)

/-- A revert emits nothing. -/
def emitted (agents : Agents Symbol Digest) (tx : Transaction Symbol) :
    List (AgentEvent Symbol Digest) :=
  match execute keccak256 agents tx with
  | .ok _ => [event keccak256 tx]
  | .error _ => []

def logFrom (agents : Agents Symbol Digest) :
    List (Transaction Symbol) → List (AgentEvent Symbol Digest)
  | [] => []
  | tx :: txs => emitted keccak256 agents tx ++ logFrom (next keccak256 agents tx) txs

/-- The log after a history of transactions. -/
def log (txs : List (Transaction Symbol)) : List (AgentEvent Symbol Digest) :=
  logFrom keccak256 (fun _ => .zero) txs

/-! ### Replaying a log -/

/-- What the events of an agent tell; `keys` are the public key and the endpoint. -/
structure View (Symbol : Type) where
  owner : Address
  did : List Symbol
  keys : Option (List Symbol × List Symbol)
  active : Bool

def observe (v : Option (View Symbol)) : AgentEvent Symbol Digest → Option (View Symbol)
  | .agentRegistered _ owner did => some ⟨owner, did, none, true⟩
  | .agentUpdated _ publicKey endpoint =>
      v.map fun v => { v with keys := some (publicKey, endpoint) }
  | .agentDeactivated _ => v.map fun v => { v with active := false }

def replay (events : List (AgentEvent Symbol Digest)) : Digest → Option (View Symbol) :=
  events.foldl (apply AgentEvent.agentId observe) fun _ => none

/-- What a view and a record have in common. -/
structure Sees (txs : List (Transaction Symbol)) (v : View Symbol) (info : AgentInfo Symbol) :
    Prop where
  exists_ : info.owner ≠ 0
  owner : v.owner = info.owner
  did : v.did = info.did
  active : v.active = info.active
  keys : ∀ keys, v.keys = some keys → keys = (info.publicKey, info.endpoint)
  unknown : v.keys = none → ∃ tx ∈ txs, tx.sender = v.owner
    ∧ tx.call = .registerAgent v.did info.publicKey info.endpoint

/-- A view mirrors an entry of the storage. -/
def Mirrors (txs : List (Transaction Symbol)) (info : AgentInfo Symbol) :
    Option (View Symbol) → Prop
  | none => info = .zero
  | some v => Sees txs v info

variable {keccak256}

theorem logFrom_append (agents : Agents Symbol Digest) (txs txs' : List (Transaction Symbol)) :
    logFrom keccak256 agents (txs ++ txs')
      = logFrom keccak256 agents txs
        ++ logFrom keccak256 (txs.foldl (next keccak256) agents) txs' := by
  induction txs generalizing agents with
  | nil => rfl
  | cons tx txs ih =>
      rw [List.cons_append, logFrom, ih, logFrom, List.append_assoc]
      rfl

theorem log_snoc (txs : List (Transaction Symbol)) (tx : Transaction Symbol) :
    log keccak256 (txs ++ [tx])
      = log keccak256 txs ++ emitted keccak256 (storage keccak256 txs) tx := by
  rw [log, logFrom_append, log, storage, logFrom, logFrom, List.append_nil]

theorem storage_snoc (txs : List (Transaction Symbol)) (tx : Transaction Symbol) :
    storage keccak256 (txs ++ [tx]) = next keccak256 (storage keccak256 txs) tx :=
  storage_append txs [tx]

omit [DecidableEq Digest] in
theorem event_agentId (tx : Transaction Symbol) :
    (event keccak256 tx).agentId = keccak256 tx.call.did := by
  rw [event]
  cases hcall : tx.call <;> rfl

omit [DecidableEq Digest] in
theorem Sees.mono {txs : List (Transaction Symbol)} {tx : Transaction Symbol} {v : View Symbol}
    {info : AgentInfo Symbol} (h : Sees txs v info) : Sees (txs ++ [tx]) v info :=
  { h with
    unknown := fun hkeys => by
      obtain ⟨tx', htx', htold⟩ := h.unknown hkeys
      exact ⟨tx', List.mem_append_left _ htx', htold⟩ }

omit [DecidableEq Digest] in
theorem Mirrors.mono {txs : List (Transaction Symbol)} {tx : Transaction Symbol}
    {info : AgentInfo Symbol} {v : Option (View Symbol)} (h : Mirrors txs info v) :
    Mirrors (txs ++ [tx]) info v := by
  cases v with
  | none => exact h
  | some v => exact Sees.mono h

omit [DecidableEq Digest] in
/-- **The event of a write tells what was written.** -/
theorem mirrors_written {txs : List (Transaction Symbol)} {tx : Transaction Symbol}
    {info info' : AgentInfo Symbol} {v : Option (View Symbol)} (h : Mirrors txs info v)
    (hwritten : Written tx info info') :
    Mirrors (txs ++ [tx]) info' (observe v (event keccak256 tx)) := by
  have hmem : tx ∈ txs ++ [tx] := List.mem_append_right _ (List.mem_singleton_self tx)
  cases hwritten with
  | registered call free =>
      rw [event, call]
      exact ⟨tx.sender_ne_zero, rfl, rfl, rfl, nofun, fun _ => ⟨tx, hmem, rfl, call⟩⟩
  | updated call owner active =>
      rw [event, call]
      cases v with
      | none =>
          obtain rfl : info = .zero := h
          cases active
      | some v =>
          have hsees : Sees txs v info := h
          exact ⟨hsees.exists_, hsees.owner, hsees.did, hsees.active,
            fun keys hkeys => (Option.some.inj hkeys).symm, nofun⟩
  | deactivated call owner active =>
      rw [event, call]
      cases v with
      | none =>
          obtain rfl : info = .zero := h
          cases active
      | some v =>
          have hsees : Sees (txs ++ [tx]) v info := Sees.mono h
          exact ⟨hsees.exists_, hsees.owner, hsees.did, rfl, hsees.keys, hsees.unknown⟩

/-- **The log gives the registry back.**  After every history of transactions, whatever reverted on
the way, the replayed log has a view of exactly the registered agents, with the stored owner, DID
and state, and with the stored key and endpoint unless the agent was never updated; then they are
those of a registration in the history. -/
theorem replay_mirrors (txs : List (Transaction Symbol)) (agentId : Digest) :
    Mirrors txs (storage keccak256 txs agentId) (replay (log keccak256 txs) agentId) := by
  induction txs using List.reverseRecOn generalizing agentId with
  | nil => exact rfl
  | append_singleton txs tx ih =>
      rw [storage_snoc, log_snoc, replay, List.foldl_append, ← replay]
      rcases execute_cases keccak256 (storage keccak256 txs) tx with
        ⟨reason, herror⟩ | ⟨info, hwritten, hok⟩
      · have hemitted : emitted keccak256 (storage keccak256 txs) tx = [] := by
          rw [emitted, herror]
        rw [hemitted, next_of_error herror]
        exact (ih agentId).mono
      · have hemitted : emitted keccak256 (storage keccak256 txs) tx = [event keccak256 tx] := by
          rw [emitted, hok]
        have hnext : next keccak256 (storage keccak256 txs) tx
            = Function.update (storage keccak256 txs) (keccak256 tx.call.did) info := by
          rw [next, hok]
        rw [hemitted, hnext, List.foldl_cons, List.foldl_nil, apply, event_agentId]
        by_cases hkey : agentId = keccak256 tx.call.did
        · subst hkey
          rw [Function.update_self, Function.update_self]
          exact mirrors_written (ih _) hwritten
        · rw [Function.update_of_ne hkey, Function.update_of_ne hkey]
          exact (ih agentId).mono

end A2aAgentLayer.Contracts.AgentEvents
