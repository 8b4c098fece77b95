import A2aAgentLayer.Contracts.ServiceCatalog
import A2aAgentLayer.Lib.KeyedFold
import A2aAgentLayer.Lib.Run
import A2aAgentLayer.Lib.RecordedDigest

/-!
# The life of a catalog entry

Transactions of arbitrary senders against `ServiceCatalog`, in any order, from empty storage.  Under
each id the contract goes through three states at most: nothing is registered, a service is active,
the same service is inactive.  Nobody's later registration or deactivation brings it back.
-/

namespace A2aAgentLayer.Contracts.CatalogLifecycle

open A2aAgentLayer.Lib.Utf16 A2aAgentLayer.Lib.KeyedFold A2aAgentLayer.Lib.RecordedDigest
open A2aAgentLayer.Contracts.ServiceCatalog

variable {Symbol Digest : Type} [Inhabited Digest] [DecidableEq Digest]

/-- The events `ServiceRegistered` and `ServiceDeactivated`. -/
inductive ServiceEvent (Symbol Digest : Type) where
  | registered (serviceId agentId : Digest) (name : List Symbol)
  | deactivated (serviceId : Digest)
  deriving DecidableEq

def ServiceEvent.serviceId : ServiceEvent Symbol Digest → Digest
  | .registered serviceId _ _ => serviceId
  | .deactivated serviceId => serviceId

/-- The time of a block is never zero. -/
def Timed : Transaction Symbol Digest → Prop
  | .registerService _ _ _ timestamp => timestamp ≠ 0
  | .deactivateService _ => True

def isDeactivation : Transaction Symbol Digest → Bool
  | .registerService .. => false
  | .deactivateService _ => true

variable (keccak256 : List Symbol → Digest)

/-- The id a transaction is about. -/
def key : Transaction Symbol Digest → Digest
  | .registerService agentDid name _ _ => serviceId keccak256 agentDid name
  | .deactivateService serviceId => serviceId

/-- What a transaction that goes through emits. -/
def event : Transaction Symbol Digest → ServiceEvent Symbol Digest
  | .registerService agentDid name _ _ =>
      .registered (serviceId keccak256 agentDid name) (keccak256 agentDid) name
  | .deactivateService serviceId => .deactivated serviceId

/-- The log of a history that starts in a given storage. -/
def logFrom (services : Services Symbol Digest) :
    List (Transaction Symbol Digest) → List (ServiceEvent Symbol Digest)
  | [] => []
  | tx :: txs =>
      match execute keccak256 services tx with
      | .ok services' => event keccak256 tx :: logFrom services' txs
      | .error _ => logFrom services txs

def log (txs : List (Transaction Symbol Digest)) : List (ServiceEvent Symbol Digest) :=
  logFrom keccak256 (fun _ => .zero) txs

/-! ### One transaction -/

/-- What a transaction makes of the entry under its id. -/
def write (info : ServiceInfo Symbol Digest) :
    Transaction Symbol Digest → ServiceInfo Symbol Digest
  | .registerService agentDid name schemaHash timestamp =>
      if info.createdAt = 0 then registration keccak256 agentDid name schemaHash timestamp else info
  | .deactivateService _ => if info.active then { info with active := false } else info

/-- A transaction goes through on an entry. -/
def accepts (info : ServiceInfo Symbol Digest) : Transaction Symbol Digest → Bool
  | .registerService .. => decide (info.createdAt = 0)
  | .deactivateService _ => info.active

variable {keccak256}

variable (keccak256) in
omit [Inhabited Digest] in
/-- **A transaction reverts, or it rewrites the entry under its id.** -/
theorem execute_eq (services : Services Symbol Digest) (tx : Transaction Symbol Digest) :
    (accepts (services (key keccak256 tx)) tx = true
        ∧ execute keccak256 services tx = .ok (apply (key keccak256) (write keccak256) services tx))
      ∨ (accepts (services (key keccak256 tx)) tx = false
        ∧ write keccak256 (services (key keccak256 tx)) tx = services (key keccak256 tx)
        ∧ ∃ reason, execute keccak256 services tx = .error reason) := by
  cases tx with
  | registerService agentDid name schemaHash timestamp =>
      by_cases hfree : (services (serviceId keccak256 agentDid name)).createdAt = 0
      · refine .inl ⟨decide_eq_true hfree, ?_⟩
        have hwrite : write keccak256 (services (serviceId keccak256 agentDid name))
            (.registerService agentDid name schemaHash timestamp)
            = registration keccak256 agentDid name schemaHash timestamp := if_pos hfree
        show registerService keccak256 services timestamp agentDid name schemaHash = _
        rw [registerService, if_pos hfree, ← hwrite]
        rfl
      · refine .inr ⟨decide_eq_false hfree, if_neg hfree, js "Service already exists", ?_⟩
        exact registerService_taken hfree
  | deactivateService serviceId =>
      cases hactive : (services serviceId).active with
      | true =>
          refine .inl ⟨hactive, ?_⟩
          have hwrite : write keccak256 (services serviceId) (.deactivateService serviceId)
              = { services serviceId with active := false } := if_pos hactive
          show deactivateService services serviceId = _
          rw [deactivateService, if_pos hactive, ← hwrite]
          rfl
      | false =>
          refine .inr ⟨hactive, if_neg (by simp [key, hactive]), js "Service not active", ?_⟩
          show deactivateService services serviceId = _
          rw [deactivateService, hactive, if_neg Bool.false_ne_true]

omit [Inhabited Digest] in
theorem next_eq (services : Services Symbol Digest) (tx : Transaction Symbol Digest) :
    next keccak256 services tx = apply (key keccak256) (write keccak256) services tx := by
  rcases execute_eq keccak256 services tx with ⟨-, hok⟩ | ⟨-, hsame, _, herror⟩
  · rw [next, hok]
  · rw [next, herror, apply, hsame, Function.update_eq_self]

theorem storage_eq (txs : List (Transaction Symbol Digest)) (id : Digest) :
    storage keccak256 txs id
      = (eventsOf (key keccak256) id txs).foldl (write keccak256) .zero := by
  have hnext : next keccak256 = apply (key keccak256) (write keccak256) := by
    funext services tx
    exact next_eq services tx
  rw [storage, hnext, foldl_update_apply]

/-! ### One entry -/

variable (keccak256)

/-- What a single entry emits under a list of its transactions. -/
def entryLog (info : ServiceInfo Symbol Digest) :
    List (Transaction Symbol Digest) → List (ServiceEvent Symbol Digest)
  | [] => []
  | tx :: txs =>
      if accepts info tx then event keccak256 tx :: entryLog (write keccak256 info tx) txs
      else entryLog info txs

/-- The entry that the transactions of an id leave: the first registration, until a deactivation
comes after it. -/
def entryOf (own : List (Transaction Symbol Digest)) : ServiceInfo Symbol Digest :=
  match own.dropWhile isDeactivation with
  | .registerService agentDid name schemaHash timestamp :: rest =>
      { registration keccak256 agentDid name schemaHash timestamp with
        active := !rest.any isDeactivation }
  | _ => .zero

/-- What the transactions of an id emit: the first registration, and the first deactivation after
it. -/
def emittedBy (own : List (Transaction Symbol Digest)) : List (ServiceEvent Symbol Digest) :=
  match own.dropWhile isDeactivation with
  | [] => []
  | first :: rest =>
      event keccak256 first :: ((rest.find? isDeactivation).map (event keccak256)).toList

variable {keccak256}

omit [Inhabited Digest] [DecidableEq Digest] in
theorem event_serviceId (tx : Transaction Symbol Digest) :
    (event keccak256 tx).serviceId = key keccak256 tx := by
  cases tx <;> rfl

omit [Inhabited Digest] in
theorem filter_logFrom (id : Digest) (services : Services Symbol Digest)
    (txs : List (Transaction Symbol Digest)) :
    (logFrom keccak256 services txs).filter (fun e => decide (e.serviceId = id))
      = entryLog keccak256 (services id) (eventsOf (key keccak256) id txs) := by
  induction txs generalizing services with
  | nil => rfl
  | cons tx txs ih =>
      have hcons : eventsOf (key keccak256) id (tx :: txs)
          = eventsOf (key keccak256) id [tx] ++ eventsOf (key keccak256) id txs :=
        eventsOf_append _ id [tx] txs
      rw [hcons, eventsOf_singleton]
      rcases execute_eq keccak256 services tx with
        ⟨haccepts, hok⟩ | ⟨haccepts, -, _, herror⟩
      · have hlog : logFrom keccak256 services (tx :: txs) = event keccak256 tx
            :: logFrom keccak256 (apply (key keccak256) (write keccak256) services tx) txs := by
          rw [logFrom, hok]
        rw [hlog, List.filter_cons, ih, event_serviceId, apply]
        by_cases hkey : key keccak256 tx = id
        · subst hkey
          rw [if_pos (decide_eq_true rfl), if_pos rfl, List.singleton_append, entryLog,
            if_pos haccepts, Function.update_self]
        · rw [if_neg (by simpa using hkey), if_neg hkey, List.nil_append,
            Function.update_of_ne (Ne.symm hkey)]
      · rw [logFrom, herror, ih]
        by_cases hkey : key keccak256 tx = id
        · subst hkey
          rw [if_pos rfl, List.singleton_append, entryLog, if_neg (by simp [haccepts])]
        · rw [if_neg hkey, List.nil_append]

variable (keccak256) in
omit [DecidableEq Digest] in
/-- Nothing can be deactivated before it is registered. -/
theorem skip_deactivations (own : List (Transaction Symbol Digest)) :
    own.foldl (write keccak256) .zero
        = (own.dropWhile isDeactivation).foldl (write keccak256) .zero
      ∧ entryLog keccak256 .zero own = entryLog keccak256 .zero (own.dropWhile isDeactivation) := by
  induction own with
  | nil => exact ⟨rfl, rfl⟩
  | cons tx own ih =>
      cases tx with
      | registerService agentDid name schemaHash timestamp => exact ⟨rfl, rfl⟩
      | deactivateService serviceId => exact ih

variable (keccak256) in
omit [Inhabited Digest] [DecidableEq Digest] in
/-- A registered entry takes no registration any more, and one deactivation. -/
theorem registered_entry {info : ServiceInfo Symbol Digest} (htaken : info.createdAt ≠ 0)
    (rest : List (Transaction Symbol Digest)) :
    rest.foldl (write keccak256) info
        = { info with active := info.active && !rest.any isDeactivation }
      ∧ entryLog keccak256 info rest
        = if info.active then ((rest.find? isDeactivation).map (event keccak256)).toList
          else [] := by
  induction rest generalizing info with
  | nil => simp [entryLog]
  | cons tx rest ih =>
      cases tx with
      | registerService agentDid name schemaHash timestamp =>
          obtain ⟨hfold, hlog⟩ := ih htaken
          have hwrite : write keccak256 info (.registerService agentDid name schemaHash timestamp)
              = info := if_neg htaken
          have haccepts : accepts info (.registerService agentDid name schemaHash timestamp)
              = false := decide_eq_false htaken
          rw [List.foldl_cons, hwrite, hfold, entryLog, haccepts, if_neg Bool.false_ne_true, hlog]
          exact ⟨rfl, rfl⟩
      | deactivateService serviceId =>
          have hany : (Transaction.deactivateService serviceId :: rest).any isDeactivation
              = true := rfl
          have hfind : (Transaction.deactivateService serviceId :: rest).find? isDeactivation
              = some (.deactivateService serviceId) := rfl
          cases hactive : info.active with
          | true =>
              have hwrite : write keccak256 info (.deactivateService serviceId)
                  = { info with active := false } := if_pos hactive
              have haccepts : accepts info (.deactivateService serviceId) = true := hactive
              obtain ⟨hfold, hlog⟩ := @ih { info with active := false } htaken
              rw [List.foldl_cons, hwrite, hfold, entryLog, haccepts, if_pos rfl, hwrite, hlog,
                hany, hfind]
              exact ⟨rfl, rfl⟩
          | false =>
              have hwrite : write keccak256 info (.deactivateService serviceId) = info :=
                if_neg (by simp [hactive])
              have haccepts : accepts info (.deactivateService serviceId) = false := hactive
              obtain ⟨hfold, hlog⟩ := ih htaken
              rw [List.foldl_cons, hwrite, hfold, entryLog, haccepts, if_neg Bool.false_ne_true,
                hlog, hactive]
              exact ⟨rfl, rfl⟩

variable (keccak256) in
omit [DecidableEq Digest] in
theorem own_entry {own : List (Transaction Symbol Digest)} (htimed : ∀ tx ∈ own, Timed tx) :
    own.foldl (write keccak256) .zero = entryOf keccak256 own
      ∧ entryLog keccak256 .zero own = emittedBy keccak256 own := by
  obtain ⟨hfold, hlog⟩ := skip_deactivations keccak256 own
  rw [hfold, hlog, entryOf, emittedBy]
  cases hdrop : own.dropWhile isDeactivation with
  | nil => exact ⟨rfl, rfl⟩
  | cons tx rest =>
      have hmem : tx ∈ own := by
        refine (List.dropWhile_sublist isDeactivation).subset ?_
        rw [hdrop]
        exact List.mem_cons_self
      cases tx with
      | registerService agentDid name schemaHash timestamp =>
          have htaken : (registration keccak256 agentDid name schemaHash timestamp).createdAt ≠ 0 :=
            htimed _ hmem
          obtain ⟨hrest, hrestLog⟩ := registered_entry keccak256 htaken rest
          refine ⟨hrest, ?_⟩
          show event keccak256 _ :: entryLog keccak256 (registration ..) rest = _
          rw [hrestLog]
          rfl
      | deactivateService serviceId =>
          have hfirst := List.head_dropWhile_not isDeactivation
            (l := own) (by rw [hdrop]; exact List.cons_ne_nil _ _)
          simp only [hdrop, List.head_cons] at hfirst
          cases hfirst

/-- **A service is registered once and deactivated once.**  After any history the entry under an id
is its first registration, active until the first deactivation that comes after it, and the log of
the id has these two transactions and no other. -/
theorem service_lives_once {txs : List (Transaction Symbol Digest)}
    (htimed : ∀ tx ∈ txs, Timed tx) (id : Digest) :
    storage keccak256 txs id = entryOf keccak256 (eventsOf (key keccak256) id txs)
      ∧ (log keccak256 txs).filter (fun e => decide (e.serviceId = id))
        = emittedBy keccak256 (eventsOf (key keccak256) id txs) := by
  have hown : ∀ tx ∈ eventsOf (key keccak256) id txs, Timed tx := fun tx htx =>
    htimed tx ((mem_eventsOf _).mp htx).1
  obtain ⟨hentry, hlog⟩ := own_entry keccak256 hown
  rw [storage_eq, hentry, log, filter_logFrom, hlog]
  exact ⟨rfl, rfl⟩

/-- The hash with its values at a DID and at the DID with a name behind it. -/
def ocrKeccak256 : JsString → Recorded CodeUnit :=
  digestOf
    [(js "did:prom:a",
      [0x43, 0xc8, 0x1d, 0x57, 0x06, 0x94, 0xab, 0x20, 0x7e, 0x7c, 0x4f, 0x42, 0x1f, 0xea, 0x66,
     0xe6, 0xb9, 0x65, 0x1d, 0xf6, 0x04, 0x20, 0x52, 0x3f, 0x58, 0x82, 0x48, 0xec, 0x15, 0x9e,
     0xe1, 0x2b]),
     (js "did:prom:aocr",
      [0x11, 0x31, 0x9d, 0x6f, 0x87, 0x49, 0xd0, 0xc9, 0xb6, 0x15, 0x37, 0x33, 0xf5, 0x9b, 0x4b,
     0xab, 0xca, 0x5b, 0x4a, 0x47, 0xf7, 0x49, 0xf9, 0xcf, 0xdc, 0xd3, 0x4a, 0xb9, 0x01, 0x57,
     0x69, 0xcc])]

def ocrId : Recorded CodeUnit := serviceId ocrKeccak256 (js "did:prom:a") (js "ocr")

/-- A deactivation that comes too early, a registration, and two attempts to undo it. -/
def troubledService : List (Transaction CodeUnit (Recorded CodeUnit)) :=
  [ .deactivateService ocrId,
    .registerService (js "did:prom:a") (js "ocr") 7 1715000000,
    .deactivateService ocrId,
    .registerService (js "did:prom:a") (js "ocr") 8 1715000060 ]

theorem service_lives_once_troubled :
    storage ocrKeccak256 troubledService ocrId
        = entryOf ocrKeccak256 (eventsOf (key ocrKeccak256) ocrId troubledService)
      ∧ (log ocrKeccak256 troubledService).filter (fun e => decide (e.serviceId = ocrId))
        = emittedBy ocrKeccak256 (eventsOf (key ocrKeccak256) ocrId troubledService) := by
  refine service_lives_once (fun tx htx => ?_) _
  simp only [troubledService, List.mem_cons, List.not_mem_nil, or_false] at htx
  rcases htx with rfl | rfl | rfl | rfl <;> simp [Timed]

end A2aAgentLayer.Contracts.CatalogLifecycle
