import Mathlib.Logic.Function.Basic
import A2aAgentLayer.Lib.Utf16

/-!
# The agent registry contract

The storage of `AgentRegistry` is a mapping from hashed DIDs to agent records; an agent that was
never registered has the zero record.  A transaction gives the new storage, or reverts with the text
of the `require` that fails.  The hash is a parameter, and so is the alphabet of the strings: they
are bytes on chain and code units where the service sends them.
-/

namespace A2aAgentLayer.Contracts.AgentRegistry

open A2aAgentLayer.Lib.Utf16

abbrev Address := BitVec 160

structure AgentInfo (Symbol : Type) where
  owner : Address
  did : List Symbol
  publicKey : List Symbol
  endpoint : List Symbol
  active : Bool
  registeredAt : ℕ
  deriving DecidableEq

/-- What the mapping holds for a key that was never written. -/
def AgentInfo.zero {Symbol : Type} : AgentInfo Symbol := ⟨0, [], [], [], false, 0⟩

/-- `mapping(bytes32 => AgentInfo) public agents`. -/
abbrev Agents (Symbol Digest : Type) := Digest → AgentInfo Symbol

variable {Symbol Digest : Type} (keccak256 : List Symbol → Digest)

/-- `modifier onlyAgentOwner(string calldata did)`. -/
def onlyAgentOwner (agents : Agents Symbol Digest) (sender : Address) (did : List Symbol)
    (body : Except JsString (Agents Symbol Digest)) : Except JsString (Agents Symbol Digest) :=
  if (agents (keccak256 did)).owner = sender then body else .error (js "Not agent owner")

def getAgent (agents : Agents Symbol Digest) (did : List Symbol) :
    Except JsString (AgentInfo Symbol) :=
  let agentId := keccak256 did
  if (agents agentId).owner ≠ 0 then .ok (agents agentId) else .error (js "Agent not found")

variable [DecidableEq Digest]

def registerAgent (agents : Agents Symbol Digest) (sender : Address) (timestamp : ℕ)
    (did publicKey endpoint : List Symbol) : Except JsString (Agents Symbol Digest) :=
  let agentId := keccak256 did
  if (agents agentId).owner = 0 then
    .ok (Function.update agents agentId
      { owner := sender
        did := did
        publicKey := publicKey
        endpoint := endpoint
        active := true
        registeredAt := timestamp })
  else .error (js "Agent already registered")

def updateAgent (agents : Agents Symbol Digest) (sender : Address)
    (did publicKey endpoint : List Symbol) : Except JsString (Agents Symbol Digest) :=
  let agentId := keccak256 did
  onlyAgentOwner keccak256 agents sender did <|
    if (agents agentId).active then
      .ok (Function.update agents agentId
        { agents agentId with publicKey := publicKey, endpoint := endpoint })
    else .error (js "Agent is not active")

def deactivateAgent (agents : Agents Symbol Digest) (sender : Address) (did : List Symbol) :
    Except JsString (Agents Symbol Digest) :=
  let agentId := keccak256 did
  onlyAgentOwner keccak256 agents sender did <|
    if (agents agentId).active then
      .ok (Function.update agents agentId { agents agentId with active := false })
    else .error (js "Agent already inactive")

/-! ### Records after a transaction -/

variable {keccak256} {agents : Agents Symbol Digest} {sender : Address} {timestamp : ℕ}
  {did publicKey endpoint : List Symbol}

/-- A transaction that succeeds writes the record of one DID. -/
theorem registerAgent_eq_ok (h : (agents (keccak256 did)).owner = 0) :
    registerAgent keccak256 agents sender timestamp did publicKey endpoint
      = .ok (Function.update agents (keccak256 did)
        ⟨sender, did, publicKey, endpoint, true, timestamp⟩) := by
  rw [registerAgent, if_pos h]

theorem updateAgent_eq_ok (howner : (agents (keccak256 did)).owner = sender)
    (hactive : (agents (keccak256 did)).active = true) :
    updateAgent keccak256 agents sender did publicKey endpoint
      = .ok (Function.update agents (keccak256 did)
        { agents (keccak256 did) with publicKey := publicKey, endpoint := endpoint }) := by
  rw [updateAgent, onlyAgentOwner, if_pos howner, if_pos hactive]

theorem updateAgent_inactive (howner : (agents (keccak256 did)).owner = sender)
    (hactive : (agents (keccak256 did)).active = false) :
    updateAgent keccak256 agents sender did publicKey endpoint
      = .error (js "Agent is not active") := by
  rw [updateAgent, onlyAgentOwner, if_pos howner, hactive, if_neg Bool.false_ne_true]

theorem deactivateAgent_eq_ok (howner : (agents (keccak256 did)).owner = sender)
    (hactive : (agents (keccak256 did)).active = true) :
    deactivateAgent keccak256 agents sender did
      = .ok (Function.update agents (keccak256 did)
        { agents (keccak256 did) with active := false }) := by
  rw [deactivateAgent, onlyAgentOwner, if_pos howner, if_pos hactive]

theorem deactivateAgent_inactive (howner : (agents (keccak256 did)).owner = sender)
    (hactive : (agents (keccak256 did)).active = false) :
    deactivateAgent keccak256 agents sender did = .error (js "Agent already inactive") := by
  rw [deactivateAgent, onlyAgentOwner, if_pos howner, hactive, if_neg Bool.false_ne_true]

omit [DecidableEq Digest] in
theorem getAgent_eq_ok {info : AgentInfo Symbol} :
    getAgent keccak256 agents did = .ok info ↔
      (agents (keccak256 did)).owner ≠ 0 ∧ agents (keccak256 did) = info := by
  rw [getAgent]
  split_ifs with h
  · exact ⟨fun heq => ⟨h, Except.ok.inj heq⟩, fun ⟨_, heq⟩ => by rw [heq]⟩
  · exact ⟨nofun, fun ⟨howner, _⟩ => absurd howner h⟩

end A2aAgentLayer.Contracts.AgentRegistry
