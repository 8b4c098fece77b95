import Mathlib.Logic.Function.Basic
import A2aAgentLayer.Lib.Delimiter
import A2aAgentLayer.Lib.Utf16
import A2aAgentLayer.Lib.RecordedDigest

/-!
# The service catalog contract

`ServiceCatalog` files a service under the hash of its agent's DID and its name, packed together
without a length or a separator.  Two different services therefore share an identity exactly if a
piece of text can move from the end of one DID to the front of the name, and then the first one to
be registered blocks the other.
-/

namespace A2aAgentLayer.Contracts.ServiceCatalog

open A2aAgentLayer.Lib.Utf16 A2aAgentLayer.Lib.Delimiter A2aAgentLayer.Lib.RecordedDigest

structure ServiceInfo (Symbol Digest : Type) where
  agentId : Digest
  name : List Symbol
  schemaHash : BitVec 256
  active : Bool
  createdAt : ℕ
  deriving DecidableEq

variable {Symbol Digest : Type} [Inhabited Digest]

/-- What the mapping holds for a key that was never written. -/
def ServiceInfo.zero : ServiceInfo Symbol Digest := ⟨default, [], 0, false, 0⟩

/-- `mapping(bytes32 => ServiceInfo) public services`. -/
abbrev Services (Symbol Digest : Type) := Digest → ServiceInfo Symbol Digest

/-- `abi.encodePacked` of two strings. -/
def encodePacked (agentDid name : List Symbol) : List Symbol := agentDid ++ name

variable (keccak256 : List Symbol → Digest)

def serviceId (agentDid name : List Symbol) : Digest := keccak256 (encodePacked agentDid name)

/-- The entry a registration writes. -/
def registration (agentDid name : List Symbol) (schemaHash : BitVec 256) (timestamp : ℕ) :
    ServiceInfo Symbol Digest :=
  { agentId := keccak256 agentDid
    name := name
    schemaHash := schemaHash
    active := true
    createdAt := timestamp }

variable [DecidableEq Digest]

def registerService (services : Services Symbol Digest) (timestamp : ℕ)
    (agentDid name : List Symbol) (schemaHash : BitVec 256) :
    Except JsString (Services Symbol Digest) :=
  if (services (serviceId keccak256 agentDid name)).createdAt = 0 then
    .ok (Function.update services (serviceId keccak256 agentDid name)
      (registration keccak256 agentDid name schemaHash timestamp))
  else .error (js "Service already exists")

def deactivateService (services : Services Symbol Digest) (serviceId : Digest) :
    Except JsString (Services Symbol Digest) :=
  if (services serviceId).active then
    .ok (Function.update services serviceId { services serviceId with active := false })
  else .error (js "Service not active")

inductive Transaction (Symbol Digest : Type) where
  | registerService (agentDid name : List Symbol) (schemaHash : BitVec 256) (timestamp : ℕ)
  | deactivateService (serviceId : Digest)

def execute (services : Services Symbol Digest) :
    Transaction Symbol Digest → Except JsString (Services Symbol Digest)
  | .registerService agentDid name schemaHash timestamp =>
      registerService keccak256 services timestamp agentDid name schemaHash
  | .deactivateService serviceId => deactivateService services serviceId

/-- The storage after a transaction, which a revert leaves as it was. -/
def next (services : Services Symbol Digest) (tx : Transaction Symbol Digest) :
    Services Symbol Digest :=
  match execute keccak256 services tx with
  | .ok services' => services'
  | .error _ => services

/-- The storage after a history of transactions. -/
def storage (txs : List (Transaction Symbol Digest)) : Services Symbol Digest :=
  txs.foldl (next keccak256) fun _ => .zero

/-! ### Two services -/

/-- A piece at the end of one DID is the front of the other name. -/
def Spliced (agentDid name agentDid' name' : List Symbol) : Prop :=
  ∃ x ≠ [], (agentDid' = agentDid ++ x ∧ name = x ++ name')
    ∨ (agentDid = agentDid' ++ x ∧ name' = x ++ name)

/-- Registering the first service in a state some history reaches does not make a registration of
the second one revert, and does not write under its id. -/
structure Undisturbed (agentDid name agentDid' name' : List Symbol) : Prop where
  registrable : ∀ txs schemaHash timestamp schemaHash' timestamp' services' services'',
    registerService keccak256 (storage keccak256 txs) timestamp agentDid name schemaHash
      = .ok services' →
    registerService keccak256 (storage keccak256 txs) timestamp' agentDid' name' schemaHash'
      = .ok services'' →
    registerService keccak256 services' timestamp' agentDid' name' schemaHash'
      ≠ .error (js "Service already exists")
  unwritten : ∀ txs schemaHash timestamp services',
    registerService keccak256 (storage keccak256 txs) timestamp agentDid name schemaHash
      = .ok services' →
    services' (serviceId keccak256 agentDid' name')
      = storage keccak256 txs (serviceId keccak256 agentDid' name')

/-- Two services that do not share an identity. -/
structure Separate (agentDid name agentDid' name' : List Symbol) : Prop where
  serviceIds : serviceId keccak256 agentDid name ≠ serviceId keccak256 agentDid' name'
  second : Undisturbed keccak256 agentDid name agentDid' name'
  first : Undisturbed keccak256 agentDid' name' agentDid name

variable {keccak256} {services services' : Services Symbol Digest}
  {agentDid name agentDid' name' : List Symbol} {schemaHash schemaHash' : BitVec 256}
  {timestamp timestamp' : ℕ}

omit [Inhabited Digest] [DecidableEq Digest] in
theorem serviceId_eq_iff (hkeccak : Function.Injective keccak256)
    (hne : (agentDid, name) ≠ (agentDid', name')) :
    serviceId keccak256 agentDid name = serviceId keccak256 agentDid' name'
      ↔ Spliced agentDid name agentDid' name' := by
  rw [serviceId, serviceId, hkeccak.eq_iff]
  exact append_eq_append_iff_of_ne hne

omit [Inhabited Digest] in
theorem registerService_eq_ok :
    registerService keccak256 services timestamp agentDid name schemaHash = .ok services' ↔
      (services (serviceId keccak256 agentDid name)).createdAt = 0
        ∧ Function.update services (serviceId keccak256 agentDid name)
          (registration keccak256 agentDid name schemaHash timestamp) = services' := by
  rw [registerService]
  split_ifs with hfree
  · exact ⟨fun h => ⟨hfree, Except.ok.inj h⟩, fun h => by rw [h.2]⟩
  · exact ⟨nofun, fun h => absurd h.1 hfree⟩

omit [Inhabited Digest] in
theorem registerService_taken
    (h : (services (serviceId keccak256 agentDid name)).createdAt ≠ 0) :
    registerService keccak256 services timestamp agentDid name schemaHash
      = .error (js "Service already exists") := by
  rw [registerService, if_neg h]

theorem undisturbed_of_ne
    (hne : serviceId keccak256 agentDid name ≠ serviceId keccak256 agentDid' name') :
    Undisturbed keccak256 agentDid name agentDid' name' := by
  have hkept : ∀ {services services' : Services Symbol Digest} {schemaHash timestamp},
      registerService keccak256 services timestamp agentDid name schemaHash = .ok services' →
      services' (serviceId keccak256 agentDid' name')
        = services (serviceId keccak256 agentDid' name') := by
    intro services services' schemaHash timestamp h
    rw [← (registerService_eq_ok.mp h).2]
    exact Function.update_of_ne hne.symm _ _
  constructor
  · intro txs schemaHash timestamp schemaHash' timestamp' services' services'' h h' herror
    have hfree := (registerService_eq_ok.mp h').1
    rw [← hkept h] at hfree
    rw [registerService_eq_ok.mpr ⟨hfree, rfl⟩] at herror
    cases herror
  · exact fun txs schemaHash timestamp services' h => hkept h

/-- **When two services do not share an identity.** -/
theorem separate_iff (hkeccak : Function.Injective keccak256)
    (hne : (agentDid, name) ≠ (agentDid', name')) :
    Separate keccak256 agentDid name agentDid' name' ↔ ¬ Spliced agentDid name agentDid' name' := by
  rw [← serviceId_eq_iff hkeccak hne]
  constructor
  · exact fun h => h.serviceIds
  · exact fun h => ⟨h, undisturbed_of_ne h, undisturbed_of_ne (Ne.symm h)⟩

/-- The hash with its values at the packed texts of three services. -/
def serviceKeccak256 : JsString → Recorded CodeUnit :=
  digestOf
    [(js "did:prom:asearch",
      [0x9f, 0xd1, 0xc5, 0x12, 0x61, 0x20, 0x32, 0x6a, 0x87, 0x0c, 0xbb, 0xaf, 0x16, 0xfd, 0x7d,
     0xae, 0x44, 0xf5, 0xb1, 0x67, 0x42, 0x4e, 0xa3, 0xb8, 0x17, 0x3b, 0xb3, 0x58, 0x52, 0x59,
     0xac, 0x63]),
     (js "did:prom:aarchive",
      [0x31, 0x40, 0xa8, 0xd4, 0xf0, 0x52, 0x56, 0x0e, 0xff, 0x40, 0xab, 0xf9, 0xcc, 0xf4, 0x19,
     0x81, 0xa0, 0x4b, 0x36, 0x14, 0x47, 0x2c, 0x4f, 0x89, 0xfc, 0xfb, 0x5f, 0xc6, 0x3a, 0xef,
     0xbf, 0x68]),
     (js "did:prom:abc",
      [0xaa, 0xcc, 0x42, 0xbd, 0xd1, 0xbb, 0x19, 0xd0, 0x64, 0x47, 0xd8, 0x44, 0x5f, 0xac, 0x8f,
     0x92, 0xa9, 0x0a, 0xee, 0x76, 0x26, 0x72, 0x4a, 0xe2, 0xdf, 0x57, 0xa2, 0x82, 0x95, 0x9c,
     0x14, 0xf7]),
     (js "did:prom:a",
      [0x43, 0xc8, 0x1d, 0x57, 0x06, 0x94, 0xab, 0x20, 0x7e, 0x7c, 0x4f, 0x42, 0x1f, 0xea, 0x66,
     0xe6, 0xb9, 0x65, 0x1d, 0xf6, 0x04, 0x20, 0x52, 0x3f, 0x58, 0x82, 0x48, 0xec, 0x15, 0x9e,
     0xe1, 0x2b])]

theorem serviceKeccak256_injective : Function.Injective serviceKeccak256 :=
  digestOf_injective (by decide)

theorem separate_iff_sameAgent :
    Separate serviceKeccak256 (js "did:prom:a") (js "search") (js "did:prom:a") (js "archive")
      ↔ ¬ Spliced (js "did:prom:a") (js "search") (js "did:prom:a") (js "archive") :=
  separate_iff serviceKeccak256_injective (by decide)

omit [Inhabited Digest] in
/-- Of two spliced services, the one that is registered holds the other's id and blocks it. -/
theorem blocked_of_spliced (hkeccak : Function.Injective keccak256)
    (hne : (agentDid, name) ≠ (agentDid', name')) (hspliced : Spliced agentDid name agentDid' name')
    (htimestamp : timestamp ≠ 0)
    (h : registerService keccak256 services timestamp agentDid name schemaHash = .ok services') :
    services' (serviceId keccak256 agentDid' name')
        = registration keccak256 agentDid name schemaHash timestamp
      ∧ registerService keccak256 services' timestamp' agentDid' name' schemaHash'
        = .error (js "Service already exists") := by
  have hid := (serviceId_eq_iff hkeccak hne).mpr hspliced
  have hentry : services' (serviceId keccak256 agentDid' name')
      = registration keccak256 agentDid name schemaHash timestamp := by
    rw [← (registerService_eq_ok.mp h).2, ← hid, Function.update_self]
  refine ⟨hentry, registerService_taken ?_⟩
  rw [hentry]
  exact htimestamp

/-- Agent `did:prom:a` registers `bc` before agent `did:prom:ab` registers `c`. -/
theorem neighbours_blocked : ∃ services',
    registerService serviceKeccak256 (fun _ => .zero) 1715000000 (js "did:prom:a") (js "bc") 0
        = .ok services'
      ∧ registerService serviceKeccak256 services' 1715000001 (js "did:prom:ab") (js "c") 0
        = .error (js "Service already exists")
      ∧ (services' (serviceId serviceKeccak256 (js "did:prom:ab") (js "c"))).agentId
        = serviceKeccak256 (js "did:prom:a")
      ∧ ¬ Separate serviceKeccak256 (js "did:prom:a") (js "bc") (js "did:prom:ab") (js "c") := by
  refine ⟨_, registerService_eq_ok.mpr ⟨rfl, rfl⟩, registerService_taken ?_, ?_,
    fun h => h.serviceIds ?_⟩
  all_goals decide

end A2aAgentLayer.Contracts.ServiceCatalog
