import Mathlib.Data.List.Induction
import Mathlib.Data.List.Nodup
import A2aAgentLayer.Lib.KeyedFold
import A2aAgentLayer.Lib.Utf16

/-!
# The tariff registry contract

`TariffRegistry` files a tariff under the hash of three words packed together: the hash of its
agent's DID, the id of its service and the hash of the tariff.  The words have one size, so that
the packed text gives them back, and a tariff shares its place with another one only where the hash
collides.  The metadata is no part of the identity, and anyone can publish for any agent: the first
publication of a tariff stays as it is, and every later one reverts.
-/

namespace A2aAgentLayer.Contracts.TariffRegistry

open A2aAgentLayer.Lib.Utf16 A2aAgentLayer.Lib.KeyedFold

/-- `bytes32`. -/
structure Bytes32 where
  bytes : List UInt8
  size : bytes.length = 32
  deriving DecidableEq

def Bytes32.zero : Bytes32 := ⟨List.replicate 32 0, rfl⟩

structure TariffInfo where
  agentId : Bytes32
  serviceId : Bytes32
  tariffHash : Bytes32
  metadataUri : List UInt8
  createdAt : ℕ
  deriving DecidableEq

/-- What the mapping holds for a key that was never written. -/
def TariffInfo.zero : TariffInfo := ⟨.zero, .zero, .zero, [], 0⟩

/-- `mapping(bytes32 => TariffInfo) public tariffs`. -/
abbrev Tariffs := Bytes32 → TariffInfo

/-- The event `TariffPublished`. -/
structure TariffPublished where
  tariffId : Bytes32
  agentId : Bytes32
  serviceId : Bytes32
  deriving DecidableEq

/-- A transaction that calls `publishTariff`.  The time of a block is never zero. -/
structure Publication where
  agentDid : List UInt8
  serviceId : Bytes32
  tariffHash : Bytes32
  metadataUri : List UInt8
  timestamp : ℕ
  timestamp_ne_zero : timestamp ≠ 0

/-- `abi.encodePacked` of three words. -/
def encodePacked (agentId serviceId tariffHash : Bytes32) : List UInt8 :=
  agentId.bytes ++ serviceId.bytes ++ tariffHash.bytes

variable (keccak256 : List UInt8 → Bytes32)

def agentId (agentDid : List UInt8) : Bytes32 := keccak256 agentDid

def tariffId (p : Publication) : Bytes32 :=
  keccak256 (encodePacked (agentId keccak256 p.agentDid) p.serviceId p.tariffHash)

/-- The entry a publication writes. -/
def tariffInfo (p : Publication) : TariffInfo where
  agentId := agentId keccak256 p.agentDid
  serviceId := p.serviceId
  tariffHash := p.tariffHash
  metadataUri := p.metadataUri
  createdAt := p.timestamp

def publishTariff (tariffs : Tariffs) (p : Publication) :
    Except JsString (Tariffs × TariffPublished) :=
  if (tariffs (tariffId keccak256 p)).createdAt = 0 then
    .ok (Function.update tariffs (tariffId keccak256 p) (tariffInfo keccak256 p),
      ⟨tariffId keccak256 p, agentId keccak256 p.agentDid, p.serviceId⟩)
  else .error (js "Tariff already exists")

/-- The storage and the log of the chain. -/
structure Chain where
  tariffs : Tariffs
  log : List TariffPublished

/-- A revert leaves storage and log as they were. -/
def next (c : Chain) (p : Publication) : Chain :=
  match publishTariff keccak256 c.tariffs p with
  | .ok (tariffs, event) => ⟨tariffs, c.log ++ [event]⟩
  | .error _ => c

/-- The chain after a history of publications. -/
def chain (ps : List Publication) : Chain := ps.foldl (next keccak256) ⟨fun _ => .zero, []⟩

/-! ### The texts that are hashed -/

/-- What the hash is taken of. -/
def hashed (ps : List Publication) : List (List UInt8) :=
  ps.flatMap fun p =>
    [p.agentDid, encodePacked (agentId keccak256 p.agentDid) p.serviceId p.tariffHash]

/-- Two texts with one hash. -/
def Collision (texts : List (List UInt8)) : Prop :=
  ∃ x ∈ texts, ∃ y ∈ texts, x ≠ y ∧ keccak256 x = keccak256 y

/-- One tariff of one agent for one service. -/
def SameTariff (p q : Publication) : Prop :=
  p.agentDid = q.agentDid ∧ p.serviceId = q.serviceId ∧ p.tariffHash = q.tariffHash

instance (p q : Publication) : Decidable (SameTariff p q) := inferInstanceAs (Decidable (_ ∧ _ ∧ _))

theorem bytes_inj {a b : Bytes32} (h : a.bytes = b.bytes) : a = b := by
  cases a
  cases b
  cases h
  rfl

/-- **Words of one size are packed without loss.** -/
theorem encodePacked_inj {a b c a' b' c' : Bytes32}
    (h : encodePacked a b c = encodePacked a' b' c') : a = a' ∧ b = b' ∧ c = c' := by
  rw [encodePacked, encodePacked, List.append_assoc, List.append_assoc] at h
  obtain ⟨ha, h⟩ := List.append_inj h (a.size.trans a'.size.symm)
  obtain ⟨hb, hc⟩ := List.append_inj h (b.size.trans b'.size.symm)
  exact ⟨bytes_inj ha, bytes_inj hb, bytes_inj hc⟩

variable {keccak256}

/-- Without a collision the id of a tariff tells the tariff. -/
theorem tariffId_eq_iff {ps : List Publication} {p q : Publication} (hp : p ∈ ps) (hq : q ∈ ps)
    (hno : ¬ Collision keccak256 (hashed keccak256 ps)) :
    tariffId keccak256 p = tariffId keccak256 q ↔ SameTariff p q := by
  have hmem : ∀ r ∈ ps, r.agentDid ∈ hashed keccak256 ps
      ∧ encodePacked (agentId keccak256 r.agentDid) r.serviceId r.tariffHash
        ∈ hashed keccak256 ps := fun r hr =>
    ⟨List.mem_flatMap.mpr ⟨r, hr, List.mem_cons_self⟩,
      List.mem_flatMap.mpr ⟨r, hr, List.mem_cons_of_mem _ (List.mem_singleton_self _)⟩⟩
  have hinj : ∀ x ∈ hashed keccak256 ps, ∀ y ∈ hashed keccak256 ps,
      keccak256 x = keccak256 y → x = y := by
    intro x hx y hy heq
    by_contra hne
    exact hno ⟨x, hx, y, hy, hne, heq⟩
  constructor
  · intro h
    obtain ⟨hagent, hservice, hhash⟩ :=
      encodePacked_inj (hinj _ (hmem p hp).2 _ (hmem q hq).2 h)
    exact ⟨hinj _ (hmem p hp).1 _ (hmem q hq).1 hagent, hservice, hhash⟩
  · rintro ⟨hagent, hservice, hhash⟩
    rw [tariffId, tariffId, hagent, hservice, hhash]

/-! ### Histories -/

variable (keccak256)

/-- What a publication makes of the entry under its id. -/
def publish (info : TariffInfo) (p : Publication) : TariffInfo :=
  if info.createdAt = 0 then tariffInfo keccak256 p else info

/-- The first publication of a history under an id. -/
def firstPublication (ps : List Publication) (id : Bytes32) : Option Publication :=
  (eventsOf (tariffId keccak256) id ps).head?

def published (p : Publication) : TariffPublished :=
  ⟨tariffId keccak256 p, agentId keccak256 p.agentDid, p.serviceId⟩

variable {keccak256}

variable (keccak256) in
theorem next_cases (c : Chain) (p : Publication) :
    (c.tariffs (tariffId keccak256 p)).createdAt = 0
        ∧ next keccak256 c p = ⟨apply (tariffId keccak256) (publish keccak256) c.tariffs p,
          c.log ++ [published keccak256 p]⟩
      ∨ (c.tariffs (tariffId keccak256 p)).createdAt ≠ 0 ∧ next keccak256 c p = c := by
  by_cases hfree : (c.tariffs (tariffId keccak256 p)).createdAt = 0
  · refine .inl ⟨hfree, ?_⟩
    rw [next, publishTariff, if_pos hfree, apply, publish, if_pos hfree]
    rfl
  · refine .inr ⟨hfree, ?_⟩
    rw [next, publishTariff, if_neg hfree]

theorem next_tariffs (c : Chain) (p : Publication) :
    (next keccak256 c p).tariffs = apply (tariffId keccak256) (publish keccak256) c.tariffs p := by
  rcases next_cases keccak256 c p with ⟨-, hnext⟩ | ⟨htaken, hnext⟩
  · rw [hnext]
  · rw [hnext, apply, publish, if_neg htaken, Function.update_eq_self]

theorem chain_snoc (ps : List Publication) (p : Publication) :
    chain keccak256 (ps ++ [p]) = next keccak256 (chain keccak256 ps) p := by
  rw [chain, List.foldl_append]
  rfl

theorem chain_tariffs (ps : List Publication) :
    (chain keccak256 ps).tariffs
      = ps.foldl (apply (tariffId keccak256) (publish keccak256)) fun _ => .zero := by
  induction ps using List.reverseRecOn with
  | nil => rfl
  | append_singleton ps p ih =>
      rw [chain_snoc, next_tariffs, ih, List.foldl_append]
      rfl

/-- **An entry is what the first publication under its id wrote.** -/
theorem tariffs_eq (ps : List Publication) (id : Bytes32) :
    (chain keccak256 ps).tariffs id
      = ((firstPublication keccak256 ps id).map (tariffInfo keccak256)).getD .zero := by
  rw [chain_tariffs, foldl_update_apply, firstPublication]
  refine foldl_eq_of_first (P := fun info => info.createdAt ≠ 0) (fun info p htaken => ?_)
    (fun p => ?_) _
  · rw [publish, if_neg htaken]
  · exact p.timestamp_ne_zero

theorem firstPublication_eq_none {ps : List Publication} {id : Bytes32} :
    firstPublication keccak256 ps id = none ↔ ∀ p ∈ ps, tariffId keccak256 p ≠ id := by
  rw [firstPublication, List.head?_eq_none_iff, List.eq_nil_iff_forall_not_mem]
  exact forall_congr' fun p => by rw [mem_eventsOf, not_and]

variable (keccak256) in
theorem firstPublication_snoc (ps : List Publication) (p : Publication) (id : Bytes32) :
    firstPublication keccak256 (ps ++ [p]) id
      = (firstPublication keccak256 ps id).or
        (if tariffId keccak256 p = id then some p else none) := by
  rw [firstPublication, eventsOf_append, List.head?_append, eventsOf_singleton, firstPublication]
  split_ifs <;> rfl

theorem createdAt_eq_zero_iff (ps : List Publication) (id : Bytes32) :
    ((chain keccak256 ps).tariffs id).createdAt = 0 ↔ ∀ p ∈ ps, tariffId keccak256 p ≠ id := by
  rw [tariffs_eq, ← firstPublication_eq_none]
  cases firstPublication keccak256 ps id with
  | none => exact iff_of_true rfl rfl
  | some p => exact iff_of_false p.timestamp_ne_zero nofun

variable (keccak256) in
/-- The log has one event for each id that was published, with the words of the first publication.
-/
structure Logged (ps : List Publication) (log : List TariffPublished) : Prop where
  once : (log.map (·.tariffId)).Nodup
  events : ∀ e, e ∈ log ↔ ∃ p, firstPublication keccak256 ps e.tariffId = some p
    ∧ e = published keccak256 p

theorem logged (ps : List Publication) :
    Logged keccak256 ps (chain keccak256 ps).log := by
  induction ps using List.reverseRecOn with
  | nil => exact ⟨.nil, fun e => ⟨nofun, nofun⟩⟩
  | append_singleton ps p ih =>
      have hfirst := firstPublication_snoc keccak256 ps p
      rw [chain_snoc]
      rcases next_cases keccak256 (chain keccak256 ps) p with
        ⟨hfree, hnext⟩ | ⟨htaken, hnext⟩
      · rw [hnext]
        have hnone : firstPublication keccak256 ps (tariffId keccak256 p) = none :=
          firstPublication_eq_none.mpr ((createdAt_eq_zero_iff ps _).mp hfree)
        have hnew : ∀ e ∈ (chain keccak256 ps).log, e.tariffId ≠ tariffId keccak256 p := by
          intro e he heq
          obtain ⟨q, hq, -⟩ := (ih.events e).mp he
          rw [heq, hnone] at hq
          cases hq
        constructor
        · rw [List.map_append, List.nodup_append]
          refine ⟨ih.once, List.nodup_singleton _, ?_⟩
          rintro _ hid _ hp rfl
          obtain ⟨e, he, rfl⟩ := List.mem_map.mp hid
          exact hnew e he (List.mem_singleton.mp hp)
        · intro e
          rw [List.mem_append, List.mem_singleton, ih.events, hfirst]
          by_cases heq : tariffId keccak256 p = e.tariffId
          · rw [← heq, hnone, if_pos rfl, Option.none_or]
            constructor
            · rintro (⟨q, hq, -⟩ | he)
              · cases hq
              · exact ⟨p, rfl, he⟩
            · rintro ⟨q, hq, he⟩
              exact .inr (Option.some.inj hq ▸ he)
          · rw [if_neg heq, Option.or_none]
            refine or_iff_left fun he => heq ?_
            rw [he]
            rfl
      · rw [hnext]
        refine ⟨ih.once, fun e => ?_⟩
        rw [ih.events, hfirst]
        by_cases heq : tariffId keccak256 p = e.tariffId
        · obtain ⟨q, hq⟩ : ∃ q, firstPublication keccak256 ps e.tariffId = some q := by
            refine Option.ne_none_iff_exists'.mp fun hnone => htaken ?_
            rw [createdAt_eq_zero_iff, heq]
            exact firstPublication_eq_none.mp hnone
          rw [hq, Option.some_or]
        · rw [if_neg heq, Option.or_none]

/-- **The first publication of a tariff stays, and every later one reverts.**  After any history an
entry is what the first publication under its id wrote, the log has that publication once, and a
further publication reverts exactly if the same tariff of the same agent and service was published
before, unless two texts hashed on the way collide. -/
theorem first_publication_stays (ps : List Publication) :
    (∀ id, (chain keccak256 ps).tariffs id
        = ((firstPublication keccak256 ps id).map (tariffInfo keccak256)).getD .zero)
      ∧ Logged keccak256 ps (chain keccak256 ps).log
      ∧ ∀ p, Collision keccak256 (hashed keccak256 (ps ++ [p]))
        ∨ ((∃ reason, publishTariff keccak256 (chain keccak256 ps).tariffs p = .error reason)
          ↔ ∃ q ∈ ps, SameTariff q p) := by
  refine ⟨tariffs_eq ps, logged ps, fun p => or_iff_not_imp_left.mpr fun hno => ?_⟩
  have hreverts : (∃ reason, publishTariff keccak256 (chain keccak256 ps).tariffs p = .error reason)
      ↔ ((chain keccak256 ps).tariffs (tariffId keccak256 p)).createdAt ≠ 0 := by
    rw [publishTariff]
    split_ifs with hfree
    · exact iff_of_false nofun fun h => h hfree
    · exact iff_of_true ⟨_, rfl⟩ hfree
  rw [hreverts, Ne, createdAt_eq_zero_iff]
  simp only [not_forall, not_not, exists_prop]
  refine exists_congr fun q => and_congr_right fun hq => ?_
  exact tariffId_eq_iff (List.mem_append_left _ hq)
    (List.mem_append_right _ (List.mem_singleton_self p)) hno

/-! ### A tariff that is published again -/

instance (texts : List (List UInt8)) : Decidable (Collision keccak256 texts) :=
  inferInstanceAs (Decidable (∃ x ∈ texts, ∃ y ∈ texts, x ≠ y ∧ keccak256 x = keccak256 y))

def ocrDid : List UInt8 := [0x64, 0x69, 0x64, 0x3a, 0x70, 0x72, 0x6f, 0x6d, 0x3a, 0x61]

def ocrAgentId : Bytes32 where
  bytes :=
    [0x43, 0xc8, 0x1d, 0x57, 0x06, 0x94, 0xab, 0x20, 0x7e, 0x7c, 0x4f, 0x42, 0x1f, 0xea, 0x66,
    0xe6, 0xb9, 0x65, 0x1d, 0xf6, 0x04, 0x20, 0x52, 0x3f, 0x58, 0x82, 0x48, 0xec, 0x15, 0x9e,
    0xe1, 0x2b]
  size := rfl

def ocrServiceId : Bytes32 where
  bytes :=
    [0x11, 0x31, 0x9d, 0x6f, 0x87, 0x49, 0xd0, 0xc9, 0xb6, 0x15, 0x37, 0x33, 0xf5, 0x9b, 0x4b,
    0xab, 0xca, 0x5b, 0x4a, 0x47, 0xf7, 0x49, 0xf9, 0xcf, 0xdc, 0xd3, 0x4a, 0xb9, 0x01, 0x57,
    0x69, 0xcc]
  size := rfl

def ocrTariffHash : Bytes32 where
  bytes :=
    [0x9c, 0x81, 0x8e, 0xc9, 0xc7, 0x26, 0x1f, 0x5b, 0x3a, 0xe0, 0xe2, 0x18, 0x30, 0x7d, 0x58,
    0x03, 0x6d, 0x64, 0x4b, 0x0b, 0xc8, 0xc2, 0x4d, 0x61, 0x19, 0xc8, 0x07, 0xd8, 0xfc, 0x33,
    0xee, 0xb0]
  size := rfl

def ocrTariffId : Bytes32 where
  bytes :=
    [0xf2, 0xe9, 0xf9, 0xb0, 0xa7, 0x90, 0x6c, 0x15, 0xad, 0xa9, 0x75, 0x80, 0x7c, 0xf0, 0xe3,
    0x01, 0xf1, 0xbf, 0x2e, 0x90, 0xf0, 0x9c, 0xc7, 0x68, 0x8e, 0x6e, 0xc3, 0xa5, 0xb3, 0x26,
    0x88, 0x1f]
  size := rfl

/-- The hash with its values at the DID and at the packed words, and zero elsewhere. -/
def tariffKeccak256 (text : List UInt8) : Bytes32 :=
  if text = ocrDid then ocrAgentId
  else if text = encodePacked ocrAgentId ocrServiceId ocrTariffHash then ocrTariffId
  else .zero

/-- The tariff of the service, with the given metadata. -/
def ocrPublication (metadataUri : List UInt8) (minute : ℕ) : Publication where
  agentDid := ocrDid
  serviceId := ocrServiceId
  tariffHash := ocrTariffHash
  metadataUri := metadataUri
  timestamp := 1715000000 + 60 * minute
  timestamp_ne_zero := Nat.ne_of_gt (Nat.add_pos_left (Nat.zero_lt_succ _) _)

/-- The second publication reverts and leaves the metadata of the first one; so does any other. -/
theorem first_publication_stays_repeated :
    (chain tariffKeccak256 [ocrPublication [1] 0, ocrPublication [2] 1]).tariffs ocrTariffId
        = ⟨ocrAgentId, ocrServiceId, ocrTariffHash, [1], 1715000000⟩
      ∧ (chain tariffKeccak256 [ocrPublication [1] 0, ocrPublication [2] 1]).log
        = [⟨ocrTariffId, ocrAgentId, ocrServiceId⟩]
      ∧ ∀ metadataUri minute, ∃ reason, publishTariff tariffKeccak256
        (chain tariffKeccak256 [ocrPublication [1] 0, ocrPublication [2] 1]).tariffs
        (ocrPublication metadataUri minute) = .error reason := by
  obtain ⟨hentry, -, hrepeats⟩ := @first_publication_stays tariffKeccak256
    [ocrPublication [1] 0, ocrPublication [2] 1]
  refine ⟨?_, by decide +kernel, fun metadataUri minute => ?_⟩
  · rw [hentry]
    decide +kernel
  · -- the texts that are hashed hold neither metadata nor time
    have hapart : ¬ Collision tariffKeccak256 (hashed tariffKeccak256
        [ocrPublication [1] 0, ocrPublication [2] 1, ocrPublication [3] 2]) := by decide +kernel
    rcases hrepeats (ocrPublication metadataUri minute) with hcollision | hreverts
    · exact absurd hcollision hapart
    · exact hreverts.mpr ⟨_, List.mem_cons_self .., rfl, rfl, rfl⟩

end A2aAgentLayer.Contracts.TariffRegistry
