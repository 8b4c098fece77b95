import A2aAgentLayer.Lib.Ddl
import A2aAgentLayer.Lib.HexText
import A2aAgentLayer.Lib.Migrations

/-!
# The schema and its migrations

The three migrations of the service, statement by statement, on a database with rows.  The last one
turns five identifier columns from `uuid` into `varchar`, and its way down turns them back.

Defaults, names of constraints and the referential actions of foreign keys are left out.  Of the
types that no migration casts, only which value is which is kept.
-/

namespace A2aAgentLayer.Migrations.SchemaHistory

open A2aAgentLayer.Lib.Utf16 A2aAgentLayer.Lib.HexText A2aAgentLayer.Lib.Ddl
open A2aAgentLayer.Lib.Migrations

/-! ### Names and values -/

inductive TableName where
  | agents
  | services
  | tariffs
  | usageRecords
  | receipts
  | policies
  | usageRollups
  deriving DecidableEq

inductive ColumnName where
  | id | createdAt | updatedAt
  | agentDid | owner | publicKey | endpoint | status
  | agentId | name | description | inputSchema | outputSchema | slaHints
  | serviceId | type | basePrice | variablePrice | currency | metadataUri | metadataHash
  | sessionId | tokensUsed | cpuMs | bytesIn | bytesOut | modelId | toolCallsCount
  | requestHash | resultHash | usageMetrics | priceComputed | nonce | signature
  | rules | isActive
  | hourBucket | requestCount
  deriving DecidableEq

inductive IndexName where
  | agentsOwner
  | servicesAgent
  | tariffsService
  | usageSession
  | receiptsSession
  | policiesAgent
  | usageRollupsHour
  deriving DecidableEq

inductive EnumName where
  | agentStatus
  | tariffType
  deriving DecidableEq

/-- A value that is not NULL. -/
inductive Value where
  | uuid (u : Uuid)
  | text (s : JsString)
  | other (code : ℕ)
  deriving DecidableEq

/-- Which values a column can hold. -/
def admits : SqlType EnumName → Value → Bool
  | .uuid, .uuid _ => true
  | .uuid, _ => false
  | .varchar, .text _ => true
  | .varchar, _ => false
  | .text, .text _ => true
  | .text, _ => false
  | _, .other _ => true
  | _, _ => false

/-- `::text` on an identifier. -/
def asText : Value → Option Value
  | .uuid u => some (.text u.text)
  | .text s => some (.text s)
  | .other _ => none

/-- `::uuid` on an identifier. -/
def asUuid : Value → Option Value
  | .uuid u => some (.uuid u)
  | .text s => (ofText s).map .uuid
  | .other _ => none

/-! ### The migrations -/

abbrev Sql := Statement TableName ColumnName IndexName EnumName Value

abbrev Database := Db TableName ColumnName IndexName EnumName Value

def required (column : ColumnName) (type : SqlType EnumName) : Column ColumnName EnumName :=
  ⟨column, type, true⟩

def nullable (column : ColumnName) (type : SqlType EnumName) : Column ColumnName EnumName :=
  ⟨column, type, false⟩

def createAgents : Sql := .createTable
  { name := .agents
    columns :=
      [ required .id .uuid, required .agentDid .varchar, required .owner .varchar,
        required .publicKey .varchar, required .endpoint .varchar,
        required .status (.enum .agentStatus), required .createdAt .timestamp,
        required .updatedAt .timestamp ]
    keys := [[.id], [.agentDid]]
    references := [] }

def createServices : Sql := .createTable
  { name := .services
    columns :=
      [ required .id .uuid, required .agentId .uuid, required .name .varchar,
        required .description .text, nullable .inputSchema .jsonb, nullable .outputSchema .jsonb,
        nullable .slaHints .jsonb, required .createdAt .timestamp ]
    keys := [[.id]]
    references := [(.agentId, .agents)] }

def createTariffs : Sql := .createTable
  { name := .tariffs
    columns :=
      [ required .id .uuid, required .agentId .uuid, required .serviceId .uuid,
        required .type (.enum .tariffType), required .basePrice (.decimal 18 8),
        nullable .variablePrice (.decimal 18 8), required .currency .varchar,
        nullable .metadataUri .varchar, nullable .metadataHash .varchar,
        required .createdAt .timestamp ]
    keys := [[.id]]
    references := [] }

def createUsageRecords : Sql := .createTable
  { name := .usageRecords
    columns :=
      [ required .id .uuid, required .sessionId .uuid, required .agentId .uuid,
        required .tokensUsed .int, required .cpuMs .int, required .bytesIn .bigint,
        required .bytesOut .bigint, nullable .modelId .varchar, required .toolCallsCount .int,
        required .createdAt .timestamp ]
    keys := [[.id]]
    references := [] }

def createReceipts : Sql := .createTable
  { name := .receipts
    columns :=
      [ required .id .uuid, required .sessionId .uuid, required .requestHash .varchar,
        nullable .resultHash .varchar, required .usageMetrics .jsonb,
        required .priceComputed (.decimal 18 8), required .nonce .varchar,
        required .signature .varchar, required .createdAt .timestamp ]
    keys := [[.id]]
    references := [] }

def createPolicies : Sql := .createTable
  { name := .policies
    columns :=
      [ required .id .uuid, required .agentId .uuid, required .name .varchar,
        required .rules .jsonb, nullable .signature .varchar, required .isActive .boolean,
        required .createdAt .timestamp, required .updatedAt .timestamp ]
    keys := [[.id]]
    references := [] }

def createUsageRollups : Sql := .createTable
  { name := .usageRollups
    columns :=
      [ required .id .uuid, required .agentId .uuid, required .hourBucket .timestamptz,
        required .requestCount .int, required .tokensUsed .bigint, required .bytesIn .bigint,
        required .bytesOut .bigint, required .cpuMs .int, required .createdAt .timestamp,
        required .updatedAt .timestamp ]
    keys := [[.id], [.agentId, .hourBucket]]
    references := [] }

/-- `InitSchema1715000000000`. -/
def initSchemaUp : List Sql :=
  [ .createType .agentStatus [js "active", js "inactive"],
    .createType .tariffType
      [js "per_request", js "per_token", js "per_second", js "fixed_variable"],
    createAgents, .createIndex .agentsOwner .agents .owner,
    createServices, .createIndex .servicesAgent .services .agentId,
    createTariffs, .createIndex .tariffsService .tariffs .serviceId,
    createUsageRecords, .createIndex .usageSession .usageRecords .sessionId,
    createReceipts, .createIndex .receiptsSession .receipts .sessionId,
    createPolicies, .createIndex .policiesAgent .policies .agentId ]

def initSchemaDown : List Sql :=
  [ .dropTable .policies true, .dropTable .receipts true, .dropTable .usageRecords true,
    .dropTable .tariffs true, .dropTable .services true, .dropTable .agents true,
    .dropType .tariffType true, .dropType .agentStatus true ]

/-- `AddUsageRollups1716000000000`. -/
def addUsageRollupsUp : List Sql :=
  [ createUsageRollups, .createIndex .usageRollupsHour .usageRollups .hourBucket ]

def addUsageRollupsDown : List Sql :=
  [ .dropIndex .usageRollupsHour, .dropTable .usageRollups false ]

/-- `COLUMNS`. -/
def identifierColumns : List (TableName × ColumnName) :=
  [ (.usageRecords, .sessionId), (.usageRecords, .agentId), (.usageRollups, .agentId),
    (.receipts, .sessionId), (.policies, .agentId) ]

/-- `AlignIdentifierColumnTypes1717000000000`. -/
def alignIdentifierColumnTypesUp : List Sql := alterColumns .varchar asText identifierColumns

def alignIdentifierColumnTypesDown : List Sql :=
  alterColumns .uuid asUuid identifierColumns.reverse

inductive MigrationName where
  | initSchema1715000000000
  | addUsageRollups1716000000000
  | alignIdentifierColumnTypes1717000000000
  deriving DecidableEq

/-- The migrations in the order of their timestamps. -/
def migrations : List (Migration MigrationName Database) :=
  [ ⟨.initSchema1715000000000, execAll initSchemaUp, execAll initSchemaDown⟩,
    ⟨.addUsageRollups1716000000000, execAll addUsageRollupsUp, execAll addUsageRollupsDown⟩,
    ⟨.alignIdentifierColumnTypes1717000000000, execAll alignIdentifierColumnTypesUp,
      execAll alignIdentifierColumnTypesDown⟩ ]

def ups : List (List Sql) := [initSchemaUp, addUsageRollupsUp, alignIdentifierColumnTypesUp]

def emptyDatabase : Database := ⟨Schema.empty, fun _ => []⟩

/-- The schema after the first `k` migrations. -/
def schemaAt (k : ℕ) : Option (Schema TableName ColumnName IndexName EnumName) :=
  schemaAfter (ups.take k).flatten Schema.empty

def schema (k : ℕ) : Schema TableName ColumnName IndexName EnumName :=
  (schemaAt k).getD Schema.empty

/-- A write puts rows in the place of those of a table.  The database refuses rows that do not
fit. -/
def writeRows (db : Database) (w : TableName × List (Row ColumnName Value)) : Database :=
  if (∃ t ∈ db.schema.tables, t.name = w.1) ∧ ∀ t ∈ db.schema.tables, t.name = w.1 →
      (∀ r ∈ w.2, ∀ c ∈ t.columns, c.accepts admits (r c.name) = true)
        ∧ ∀ key ∈ t.keys, Distinct key w.2 then
    { db with rows := Function.update db.rows w.1 w.2 }
  else db

/-- A database after the first `k` migrations. -/
structure Level (k : ℕ) (db : Database) : Prop where
  schema : schemaAt k = some db.schema
  rows : db.WellFormed admits

/-! ### What the migrations do to the schema -/

theorem schemaAt_eq {k : ℕ} (hk : k ≤ 3) : schemaAt k = some (schema k) := by
  have hall : ∀ k : Fin 4, (schemaAt k.val).isSome = true := by decide
  obtain ⟨s, hs⟩ := Option.isSome_iff_exists.mp (hall ⟨k, by omega⟩)
  rw [schema, hs]
  rfl

theorem schema_up : schemaAfter initSchemaUp (schema 0) = schemaAt 1
    ∧ schemaAfter addUsageRollupsUp (schema 1) = schemaAt 2
    ∧ schemaAfter alignIdentifierColumnTypesUp (schema 2) = schemaAt 3 := by decide

theorem schema_down : schemaAfter initSchemaDown (schema 1) = schemaAt 0
    ∧ schemaAfter addUsageRollupsDown (schema 2) = schemaAt 1
    ∧ schemaAfter alignIdentifierColumnTypesDown (schema 3) = schemaAt 2 := by decide

/-- The identifier columns before the last migration and after it. -/
theorem identifierColumns_typed :
    (∀ p ∈ identifierColumns, ∃ t ∈ (schema 2).tables, t.name = p.1
        ∧ (⟨p.2, .uuid, true⟩ : Column ColumnName EnumName) ∈ t.columns)
      ∧ ∀ p ∈ identifierColumns, ∃ t ∈ (schema 3).tables, t.name = p.1
        ∧ (⟨p.2, .varchar, true⟩ : Column ColumnName EnumName) ∈ t.columns := by decide

theorem identifierColumns_separate :
    identifierColumns.Nodup ∧ Separate (schema 2) identifierColumns
      ∧ Separate (schema 3) identifierColumns.reverse := by decide

theorem has_identifierColumns :
    (∀ p ∈ identifierColumns, (schema 2).has p.1 p.2 = true)
      ∧ ∀ p ∈ identifierColumns.reverse, (schema 3).has p.1 p.2 = true := by decide

/-- The only key with an identifier column in it is that of the rollups. -/
theorem identifier_keys : ∀ t ∈ (schema 2).tables ++ (schema 3).tables, ∀ key ∈ t.keys,
    ∀ p ∈ identifierColumns, t.name = p.1 → p.2 ∈ key →
      p = (.usageRollups, .agentId) ∧ key = [.agentId, .hourBucket] := by decide

theorem rollups_key (k : ℕ) (hk : k = 2 ∨ k = 3) :
    ∃ t ∈ (schema k).tables, t.name = .usageRollups
      ∧ [ColumnName.agentId, .hourBucket] ∈ t.keys
      ∧ (⟨.hourBucket, .timestamptz, true⟩ : Column ColumnName EnumName) ∈ t.columns := by
  rcases hk with rfl | rfl <;> decide

theorem Level.schema_eq {k : ℕ} {db : Database} (h : Level k db) (hk : k ≤ 3) :
    db.schema = SchemaHistory.schema k :=
  Option.some.inj (h.schema.symm.trans (schemaAt_eq hk))

/-! ### The identifiers -/

theorem asText_sound (v w : Value) (h : asText v = some w) : admits .varchar w = true := by
  cases v with
  | uuid u => exact Option.some.inj h ▸ rfl
  | text s => exact Option.some.inj h ▸ rfl
  | other code => cases h

theorem asUuid_sound (v w : Value) (h : asUuid v = some w) : admits .uuid w = true := by
  cases v with
  | uuid u => exact Option.some.inj h ▸ rfl
  | text s =>
      obtain ⟨u, -, rfl⟩ := Option.map_eq_some_iff.mp h
      rfl
  | other code => cases h

theorem Level.uuid_cell {db : Database} (h : Level 2 db) {p : TableName × ColumnName}
    (hp : p ∈ identifierColumns) {r : Row ColumnName Value} (hr : r ∈ db.rows p.1) :
    ∃ u, r p.2 = some (.uuid u) := by
  obtain ⟨t, ht, hname, hc⟩ := identifierColumns_typed.1 p hp
  rw [← h.schema_eq (by omega)] at ht
  have hfits := h.rows.typed t ht r (hname ▸ hr) _ hc
  cases hcell : r p.2 with
  | none => simp [Column.accepts, hcell] at hfits
  | some v =>
      cases v with
      | uuid u => exact ⟨u, rfl⟩
      | text s => simp [Column.accepts, hcell, admits] at hfits
      | other code => simp [Column.accepts, hcell, admits] at hfits

theorem Level.text_cell {db : Database} (h : Level 3 db) {p : TableName × ColumnName}
    (hp : p ∈ identifierColumns) {r : Row ColumnName Value} (hr : r ∈ db.rows p.1) :
    ∃ s, r p.2 = some (.text s) := by
  obtain ⟨t, ht, hname, hc⟩ := identifierColumns_typed.2 p hp
  rw [← h.schema_eq (by omega)] at ht
  have hfits := h.rows.typed t ht r (hname ▸ hr) _ hc
  cases hcell : r p.2 with
  | none => simp [Column.accepts, hcell] at hfits
  | some v =>
      cases v with
      | uuid u => simp [Column.accepts, hcell, admits] at hfits
      | text s => exact ⟨s, rfl⟩
      | other code => simp [Column.accepts, hcell, admits] at hfits

theorem Level.hourBucket_ne {k : ℕ} {db : Database} (h : Level k db) (hk : k = 2 ∨ k = 3)
    {r : Row ColumnName Value} (hr : r ∈ db.rows .usageRollups) : r .hourBucket ≠ none := by
  obtain ⟨t, ht, hname, -, hc⟩ := rollups_key k hk
  rw [← h.schema_eq (by omega)] at ht
  intro hnone
  have hfits := h.rows.typed t ht r (hname ▸ hr) _ hc
  simp [Column.accepts, hnone] at hfits

theorem sound_alterColumns {type : SqlType EnumName} {cast : Value → Option Value}
    {columns : List (TableName × ColumnName)}
    (h : ∀ v w, cast v = some w → admits type w = true) :
    ∀ st ∈ (alterColumns type cast columns : List Sql), st.Sound admits := by
  intro st hst
  obtain ⟨p, -, rfl⟩ := List.mem_map.mp hst
  exact h

/-- Every identifier can be turned into its text. -/
theorem Level.ready_asText {db : Database} (h : Level 2 db) {p : TableName × ColumnName}
    (hp : p ∈ identifierColumns) : Ready asText db.schema db.rows p := by
  constructor
  · intro r hr _
    obtain ⟨u, hu⟩ := h.uuid_cell hp hr
    rw [hu]
    rfl
  · intro t ht hname key hkey hcolumn
    have htables := h.schema_eq (by omega)
    obtain ⟨rfl, rfl⟩ := identifier_keys t
      (List.mem_append_left _ (htables ▸ ht)) key hkey p hp hname hcolumn
    rw [Distinct, List.pairwise_map]
    have hdistinct := h.rows.distinct t ht _ hkey
    rw [hname] at hdistinct
    refine hdistinct.imp_of_mem fun {r r'} hr hr' hne hsame => hne fun c hc => ?_
    obtain ⟨hsome, heq⟩ := hsame c hc
    by_cases hagent : c = .agentId
    · subst hagent
      obtain ⟨u, hu⟩ := h.uuid_cell hp hr
      obtain ⟨u', hu'⟩ := h.uuid_cell hp hr'
      have hu : r .agentId = some (.uuid u) := hu
      have hu' : r' .agentId = some (.uuid u') := hu'
      rw [recast_self, recast_self, hu, hu'] at heq
      rw [hu, hu', text_injective (Value.text.inj (Option.some.inj heq))]
      exact ⟨Option.some_ne_none _, rfl⟩
    · rw [recast_of_ne hagent] at hsome heq
      rw [recast_of_ne hagent] at heq
      exact ⟨hsome, heq⟩

/-- What reverting the last migration takes: every stored identifier reads as a UUID, and no two
rollups of an hour have agent ids that read as the same one. -/
structure Revertible (db : Database) : Prop where
  uuids : ∀ p ∈ identifierColumns, ∀ r ∈ db.rows p.1, ∀ s, r p.2 = some (.text s) →
    (ofText s).isSome = true
  rollups : (db.rows .usageRollups).Pairwise fun r r' => r .hourBucket = r' .hourBucket →
    (r .agentId).bind asUuid ≠ (r' .agentId).bind asUuid

theorem Level.castable_asUuid_iff {db : Database} (h : Level 3 db) {p : TableName × ColumnName}
    (hp : p ∈ identifierColumns) : Castable asUuid p.2 (db.rows p.1) ↔
      ∀ r ∈ db.rows p.1, ∀ s, r p.2 = some (.text s) → (ofText s).isSome = true := by
  refine forall₂_congr fun r hr => ?_
  obtain ⟨s, hs⟩ := h.text_cell hp hr
  rw [hs]
  constructor
  · intro hcast s' hs'
    obtain rfl := Value.text.inj (Option.some.inj hs')
    have hsome := hcast rfl
    rwa [Option.bind_some, asUuid, Option.isSome_map] at hsome
  · intro hread _
    rw [Option.bind_some, asUuid, Option.isSome_map]
    exact hread s rfl

theorem Level.ready_asUuid_iff {db : Database} (h : Level 3 db) :
    (∀ p ∈ identifierColumns, Ready asUuid db.schema db.rows p) ↔ Revertible db := by
  have htables := h.schema_eq (by omega)
  have hrollups : (TableName.usageRollups, ColumnName.agentId) ∈ identifierColumns := by decide
  obtain ⟨t₀, ht₀, hname₀, hkey₀, -⟩ := rollups_key 3 (.inr rfl)
  rw [← htables] at ht₀
  have hdistinct : Castable asUuid .agentId (db.rows .usageRollups) →
      (Distinct [.agentId, .hourBucket] ((db.rows .usageRollups).map (recast asUuid .agentId))
        ↔ (db.rows .usageRollups).Pairwise fun r r' => r .hourBucket = r' .hourBucket →
          (r .agentId).bind asUuid ≠ (r' .agentId).bind asUuid) := by
    intro hcast
    rw [Distinct, List.pairwise_map]
    refine List.Pairwise.iff_of_mem fun {r r'} hr _ => ?_
    have hread : (r .agentId).bind asUuid ≠ none := by
      obtain ⟨s, hs⟩ := h.text_cell hrollups hr
      have hs : r .agentId = some (.text s) := hs
      exact Option.isSome_iff_ne_none.mp (hcast r hr (by rw [hs]; rfl))
    have hne : ColumnName.hourBucket ≠ .agentId := by decide
    simp only [List.forall_mem_cons, List.not_mem_nil, false_implies, implies_true, and_true,
      recast_self, recast_of_ne hne, not_and]
    constructor
    · intro hkey hsame heq
      exact hkey ⟨hread, heq⟩ (h.hourBucket_ne (.inr rfl) hr) hsame
    · intro hkey hagent _ hsame
      exact hkey hsame hagent.2
  constructor
  · intro hready
    refine ⟨fun p hp => (h.castable_asUuid_iff hp).mp (hready p hp).1, ?_⟩
    obtain ⟨hcast, hkeys⟩ := hready _ hrollups
    exact (hdistinct hcast).mp (hkeys t₀ ht₀ hname₀ _ hkey₀ (by decide))
  · intro hrevertible p hp
    have hcast := (h.castable_asUuid_iff hp).mpr (hrevertible.uuids p hp)
    refine ⟨hcast, fun t ht hname key hkey hcolumn => ?_⟩
    obtain ⟨rfl, rfl⟩ := identifier_keys t
      (List.mem_append_right _ (htables ▸ ht)) key hkey p hp hname hcolumn
    exact (hdistinct hcast).mpr hrevertible.rollups

/-! ### Levels -/

theorem alignUp_eq {db : Database} (h : Level 2 db) :
    ∃ after, execAll alignIdentifierColumnTypesUp db = some after
      ∧ after.rows = castRows asText identifierColumns db.rows := by
  have htables := h.schema_eq (by omega)
  obtain ⟨hsome, hrows⟩ := execAll_alterColumns SqlType.varchar asText
    identifierColumns_separate.1 db (htables ▸ has_identifierColumns.1)
    (htables ▸ identifierColumns_separate.2.1)
  obtain ⟨after, hafter⟩ := hsome.mpr fun p hp => h.ready_asText hp
  exact ⟨after, hafter, hrows after hafter⟩

theorem alignDown_eq {db : Database} (h : Level 3 db) :
    ((∃ after, execAll alignIdentifierColumnTypesDown db = some after) ↔ Revertible db)
      ∧ ∀ after, execAll alignIdentifierColumnTypesDown db = some after →
        after.rows = castRows asUuid identifierColumns.reverse db.rows := by
  have htables := h.schema_eq (by omega)
  obtain ⟨hsome, hrows⟩ := execAll_alterColumns SqlType.uuid asUuid
    (List.nodup_reverse.mpr identifierColumns_separate.1) db
    (htables ▸ has_identifierColumns.2) (htables ▸ identifierColumns_separate.2.2)
  refine ⟨hsome.trans ?_, hrows⟩
  rw [← h.ready_asUuid_iff]
  simp only [List.mem_reverse]

/-- Statements that do not look at the rows lead to the next level. -/
theorem level_of_structural {k j : ℕ} {db : Database} (h : Level k db) (hk : k ≤ 3) {sts : List Sql}
    (hstructural : ∀ st ∈ sts, st.structural = true) (hj : j ≤ 3)
    (hschema : schemaAfter sts (schema k) = schemaAt j) :
    ∃ after, execAll sts db = some after ∧ Level j after := by
  rw [← h.schema_eq hk, schemaAt_eq hj] at hschema
  obtain ⟨after, hafter, heq⟩ := execAll_of_structural hstructural hschema
  refine ⟨after, hafter, by rw [schemaAt_eq hj, heq], wellFormed_execAll h.rows ?_ hafter⟩
  intro st hst
  have hst := hstructural st hst
  cases st with
  | alterColumnType table column type cast => cases hst
  | _ => exact trivial

theorem levels : Levels migrations Level where
  names := by decide
  up := by
    intro k m db hm h
    match k, hm with
    | 0, hm =>
        obtain rfl := Option.some.inj hm
        exact level_of_structural h (by omega) (by decide) (by omega) schema_up.1
    | 1, hm =>
        obtain rfl := Option.some.inj hm
        exact level_of_structural h (by omega) (by decide) (by omega) schema_up.2.1
    | 2, hm =>
        obtain rfl := Option.some.inj hm
        obtain ⟨after, hafter, -⟩ := alignUp_eq h
        refine ⟨after, hafter, ?_,
          wellFormed_execAll h.rows (sound_alterColumns asText_sound) hafter⟩
        rw [← schema_up.2.2, ← h.schema_eq (by omega)]
        exact schemaAfter_of_execAll hafter
  down := by
    intro k m db after hm h hdown
    match k, hm with
    | 0, hm =>
        obtain rfl := Option.some.inj hm
        obtain ⟨_, hafter, hlevel⟩ :=
          level_of_structural h (by omega) (by decide) (by omega) schema_down.1
        exact Option.some.inj (hafter.symm.trans hdown) ▸ hlevel
    | 1, hm =>
        obtain rfl := Option.some.inj hm
        obtain ⟨_, hafter, hlevel⟩ :=
          level_of_structural h (by omega) (by decide) (by omega) schema_down.2.1
        exact Option.some.inj (hafter.symm.trans hdown) ▸ hlevel
    | 2, hm =>
        obtain rfl := Option.some.inj hm
        refine ⟨?_, wellFormed_execAll h.rows (sound_alterColumns asUuid_sound) hdown⟩
        rw [← schema_down.2.2, ← h.schema_eq (by omega)]
        exact schemaAfter_of_execAll hdown

theorem level_writeRows (k : ℕ) (db : Database) (w : TableName × List (Row ColumnName Value))
    (h : Level k db) : Level k (writeRows db w) := by
  rw [writeRows]
  split_ifs with hfits
  · obtain ⟨-, hfits⟩ := hfits
    refine ⟨h.schema, ?_⟩
    show RowsFit admits db.schema.tables (Function.update db.rows w.1 w.2)
    constructor
    · intro t ht r hr
      by_cases hname : t.name = w.1
      · rw [hname, Function.update_self] at hr
        exact (hfits t ht hname).1 r hr
      · rw [Function.update_of_ne hname] at hr
        exact h.rows.typed t ht r hr
    · intro t ht key hkey
      by_cases hname : t.name = w.1
      · rw [hname, Function.update_self]
        exact (hfits t ht hname).2 key hkey
      · rw [Function.update_of_ne hname]
        exact h.rows.distinct t ht key hkey
  · exact h

/-! ### Histories -/

/-- A database, a process that migrates it, and writes in between. -/
abbrev historyOf (es : List (Event (TableName × List (Row ColumnName Value)))) :
    Migrated MigrationName Database :=
  history migrations writeRows emptyDatabase es

theorem level_empty : Level 0 emptyDatabase where
  schema := rfl
  rows := ⟨fun _ ht => absurd ht List.not_mem_nil, fun _ ht => absurd ht List.not_mem_nil⟩

theorem historyOf_atLevel (es : List (Event (TableName × List (Row ColumnName Value)))) :
    ∃ k, AtLevel migrations Level k (historyOf es) :=
  history_atLevel levels level_writeRows level_empty es

/-- The names of the first `k` migrations. -/
def executedAt (k : ℕ) : List MigrationName := (migrations.take k).map Migration.name

/-- **The schema is what the recorded migrations make it.**  After any history of runs, reverts and
writes the executed migrations are the first `k`, the schema is that of their statements, and every
row fits it.  A run brings the schema to the last one from anywhere, and a revert fails only at the
last one, exactly if an identifier there does not read as a UUID or two rollups of an hour have
agent ids that read as the same one. -/
theorem schema_follows (es : List (Event (TableName × List (Row ColumnName Value)))) :
    ∃ k ≤ 3, (historyOf es).executed = executedAt k ∧ schemaAt k = some (historyOf es).db.schema
      ∧ (historyOf es).db.WellFormed admits
      ∧ (∃ t, runPending migrations (historyOf es) = some t ∧ t.executed = executedAt 3
        ∧ schemaAt 3 = some t.db.schema)
      ∧ ((∃ t, revertLast migrations (historyOf es) = some t)
        ↔ (k = 3 → Revertible (historyOf es).db)) := by
  obtain ⟨k, hat⟩ := historyOf_atLevel es
  refine ⟨k, hat.le, hat.executed, hat.level.schema, hat.level.rows, ?_, ?_⟩
  · obtain ⟨t, ht, hlast⟩ := runPending_atLevel levels hat
    exact ⟨t, ht, hlast.executed, hlast.level.schema⟩
  · cases k with
    | zero => exact iff_of_true ⟨_, revertLast_zero hat⟩ nofun
    | succ k =>
        obtain ⟨m, hm, hrevert⟩ := revertLast_succ levels hat
        rw [hrevert]
        have hmap : ∀ after : Option Database,
            (∃ t, (after.map fun db =>
              (⟨(migrations.take k).map Migration.name, db⟩ : Migrated MigrationName Database))
                = some t) ↔ ∃ db, after = some db := by
          intro after
          cases after <;> simp
        rw [hmap]
        match k, hm with
        | 0, hm =>
            obtain rfl := Option.some.inj hm
            obtain ⟨db, hdb, -⟩ :=
              level_of_structural hat.level (by omega) (by decide) (by omega) schema_down.1
            exact iff_of_true ⟨db, hdb⟩ (by omega)
        | 1, hm =>
            obtain rfl := Option.some.inj hm
            obtain ⟨db, hdb, -⟩ :=
              level_of_structural hat.level (by omega) (by decide) (by omega) schema_down.2.1
            exact iff_of_true ⟨db, hdb⟩ (by omega)
        | 2, hm =>
            obtain rfl := Option.some.inj hm
            rw [forall_prop_of_true rfl]
            exact (alignDown_eq hat.level).1

/-- A policy for a DID. -/
def didPolicy : Row ColumnName Value
  | .id => some (.uuid ⟨List.replicate 16 7, rfl⟩)
  | .agentId => some (.text (js "did:prom:a"))
  | .name => some (.text (js "closed"))
  | .rules | .isActive | .createdAt | .updatedAt => some (.other 0)
  | _ => none

example : revertLast migrations (historyOf [.run, .write (.policies, [didPolicy])]) = none := by
  rfl

theorem atLevel_of_executed {s : Migrated MigrationName Database} {j k : ℕ} (hj : j ≤ 3)
    (hat : AtLevel migrations Level k s) (h : s.executed = executedAt j) : k = j := by
  have hlength := congrArg List.length (hat.executed.symm.trans h)
  simp only [executedAt, List.length_map, List.length_take] at hlength
  have hk := hat.le
  have : migrations.length = 3 := rfl
  omega

/-- The last migration can be reverted right after it was run. -/
theorem revertible_castRows {db after : Database} (h : Level 2 db)
    (hrows : after.rows = castRows asText identifierColumns db.rows) : Revertible after := by
  have hrollups : (TableName.usageRollups, ColumnName.agentId) ∈ identifierColumns := by decide
  constructor
  · intro p hp r hr s hs
    rw [hrows] at hr
    obtain ⟨row, hrow, rfl⟩ := List.mem_map.mp hr
    obtain ⟨u, hu⟩ := h.uuid_cell hp hrow
    rw [castRow_of_mem hp, hu] at hs
    obtain rfl := Value.text.inj (Option.some.inj hs)
    rw [ofText_text]
    rfl
  · obtain ⟨t, ht, hname, hkey, -⟩ := rollups_key 2 (.inl rfl)
    rw [← h.schema_eq (by omega)] at ht
    have hdistinct := h.rows.distinct t ht _ hkey
    rw [hname] at hdistinct
    have hhour : (TableName.usageRollups, ColumnName.hourBucket) ∉ identifierColumns := by decide
    rw [hrows, castRows, List.pairwise_map]
    refine hdistinct.imp_of_mem fun {r r'} hr hr' hne hsame heq => hne fun c hc => ?_
    rw [castRow_of_not_mem hhour, castRow_of_not_mem hhour] at hsame
    obtain ⟨u, hu⟩ := h.uuid_cell hrollups hr
    obtain ⟨u', hu'⟩ := h.uuid_cell hrollups hr'
    have hu : r .agentId = some (.uuid u) := hu
    have hu' : r' .agentId = some (.uuid u') := hu'
    rw [castRow_of_mem hrollups, castRow_of_mem hrollups, hu, hu'] at heq
    simp only [asText, Option.bind_some, asUuid, ofText_text, Option.map_some, Option.some.injEq,
      Value.uuid.injEq] at heq
    have hnotNull : r .hourBucket ≠ none := h.hourBucket_ne (.inl rfl) hr
    simp only [List.mem_cons, List.not_mem_nil, or_false] at hc
    rcases hc with rfl | rfl
    · rw [hu, hu', heq]
      exact ⟨Option.some_ne_none _, rfl⟩
    · exact ⟨hnotNull, hsame⟩

theorem runPending_two {s : Migrated MigrationName Database} (hat : AtLevel migrations Level 2 s) :
    runPending migrations s = (execAll alignIdentifierColumnTypesUp s.db).map fun db =>
      ⟨executedAt 3, db⟩ := by
  rw [runPending_last levels.names hat rfl rfl, hat.executed]
  rfl

theorem revertLast_three {s : Migrated MigrationName Database}
    (hat : AtLevel migrations Level 3 s) :
    revertLast migrations s = (execAll alignIdentifierColumnTypesDown s.db).map fun db =>
      ⟨executedAt 2, db⟩ := by
  obtain ⟨m, hm, h⟩ := revertLast_succ levels hat
  obtain rfl := Option.some.inj hm
  exact h

/-- **Run and revert.**  Every identifier is read back from the text it was printed as. -/
theorem revertLast_runPending {s : Migrated MigrationName Database}
    (hat : AtLevel migrations Level 2 s) :
    ∃ t, runPending migrations s = some t ∧ revertLast migrations t = some s := by
  obtain ⟨after, hafter, hrows⟩ := alignUp_eq hat.level
  obtain ⟨t, ht, hat₃⟩ := runPending_atLevel levels hat
  refine ⟨t, ht, ?_⟩
  rw [runPending_two hat, hafter, Option.map_some] at ht
  obtain rfl := Option.some.inj ht
  have hlevel : Level 3 after := hat₃.level
  obtain ⟨hsome, hdown⟩ := alignDown_eq hlevel
  obtain ⟨db, hdb⟩ := hsome.mpr (revertible_castRows hat.level hrows)
  have hdbrows : db.rows = s.db.rows := by
    rw [hdown db hdb, castRows_reverse, hrows, castRows_castRows, castRows_eq_self_iff]
    intro p hp r hr
    obtain ⟨u, hu⟩ := hat.level.uuid_cell hp hr
    simp only [hu, Option.bind_some, asText, asUuid, ofText_text, Option.map_some]
  have hschema : db.schema = s.db.schema := by
    have hlevel₂ := levels.down 2 _ after db rfl hlevel hdb
    rw [hlevel₂.schema_eq (by omega), hat.level.schema_eq (by omega)]
  have hexecuted : executedAt 2 = s.executed := hat.executed.symm
  rw [revertLast_three hat₃, hdb, Option.map_some, hexecuted]
  exact congrArg some (congrArg (Migrated.mk s.executed) (Db.ext hschema hdbrows))

/-- A text as PostgreSQL prints the identifier it spells. -/
def respelled (s : JsString) : JsString :=
  match ofText s with
  | some u => u.text
  | none => s

theorem ofText_respelled (s : JsString) : ofText (respelled s) = ofText s := by
  rw [respelled]
  cases hs : ofText s with
  | none => exact hs
  | some u => exact ofText_text u

def Value.respell : Value → Option Value
  | .text s => some (.text (respelled s))
  | value => some value

/-- **Revert and run.**  The identifiers come back respelled, and nothing else changes. -/
theorem runPending_revertLast {s t : Migrated MigrationName Database}
    (hat : AtLevel migrations Level 3 s) (ht : revertLast migrations s = some t) :
    ∃ u, runPending migrations t = some u ∧ u.executed = s.executed ∧ u.db.schema = s.db.schema
      ∧ u.db.rows = castRows Value.respell identifierColumns s.db.rows
      ∧ ∀ p ∈ identifierColumns, ∀ r ∈ s.db.rows p.1,
        ∃ text id, r p.2 = some (.text text) ∧ ofText text = some id := by
  rw [revertLast_three hat] at ht
  obtain ⟨mid, hmid, rfl⟩ := Option.map_eq_some_iff.mp ht
  have hat₂ : AtLevel migrations Level 2 ⟨executedAt 2, mid⟩ :=
    ⟨by decide, rfl, levels.down 2 _ s.db mid rfl hat.level hmid⟩
  obtain ⟨after, hafter, hrows⟩ := alignUp_eq hat₂.level
  obtain ⟨u, hu, hat₃⟩ := runPending_atLevel levels hat₂
  refine ⟨u, hu, hat₃.executed.trans hat.executed.symm, ?_, ?_⟩
  · have hlevel : Level 3 u.db := hat₃.level
    rw [hlevel.schema_eq (by omega), hat.level.schema_eq (by omega)]
  rw [runPending_two hat₂, hafter, Option.map_some] at hu
  obtain rfl := Option.some.inj hu
  have hread := ((alignDown_eq hat.level).1.mp ⟨mid, hmid⟩).uuids
  have hcell : ∀ p ∈ identifierColumns, ∀ r ∈ s.db.rows p.1,
      ∃ text id, r p.2 = some (.text text) ∧ ofText text = some id := by
    intro p hp r hr
    obtain ⟨text, htext⟩ := hat.level.text_cell hp hr
    obtain ⟨id, hid⟩ := Option.isSome_iff_exists.mp (hread p hp r hr text htext)
    exact ⟨text, id, htext, hid⟩
  refine ⟨?_, hcell⟩
  rw [hrows, (alignDown_eq hat.level).2 mid hmid, castRows_reverse, castRows_castRows]
  refine castRows_congr fun p hp r hr => ?_
  obtain ⟨text, id, htext, hid⟩ := hcell p hp r hr
  simp only [htext, Option.bind_some, asUuid, hid, Option.map_some, asText, Value.respell,
    respelled]

/-- **What the last migration and its way down make of the stored identifiers.**  Running it and
reverting it at once gives the database back.  Reverting it and running it again keeps everything
but the spelling: each identifier comes back as PostgreSQL prints it, so nothing changes exactly if
each was spelled so. -/
theorem identifiers_roundtrip (es : List (Event (TableName × List (Row ColumnName Value)))) :
    ((historyOf es).executed = executedAt 2 →
        ∃ t, runPending migrations (historyOf es) = some t
          ∧ revertLast migrations t = some (historyOf es))
      ∧ ((historyOf es).executed = executedAt 3 →
        ∀ t, revertLast migrations (historyOf es) = some t →
          ∃ u, runPending migrations t = some u ∧ u.executed = (historyOf es).executed
            ∧ u.db.schema = (historyOf es).db.schema
            ∧ u.db.rows = castRows Value.respell identifierColumns (historyOf es).db.rows
            ∧ (u = historyOf es ↔ ∀ p ∈ identifierColumns, ∀ r ∈ (historyOf es).db.rows p.1,
              ∀ s, r p.2 = some (.text s) → Canonical s)) := by
  obtain ⟨k, hat⟩ := historyOf_atLevel es
  generalize historyOf es = s at hat
  constructor
  · intro hexecuted
    obtain rfl := atLevel_of_executed (by omega) hat hexecuted
    exact revertLast_runPending hat
  · intro hexecuted t ht
    obtain rfl := atLevel_of_executed (by omega) hat hexecuted
    obtain ⟨u, hu, hsameExecuted, hschema, hrows, hcell⟩ := runPending_revertLast hat ht
    refine ⟨u, hu, hsameExecuted, hschema, hrows, ?_⟩
    have hsame : u = s ↔ u.db.rows = s.db.rows :=
      ⟨fun h => h ▸ rfl, fun h => Migrated.ext hsameExecuted (Db.ext hschema h)⟩
    rw [hsame, hrows, castRows_eq_self_iff]
    refine forall₂_congr fun p hp => forall₂_congr fun r hr => ?_
    obtain ⟨text, id, htext, hid⟩ := hcell p hp r hr
    simp only [htext, Option.bind_some, Value.respell, respelled, hid, Option.some.injEq,
      Value.text.injEq, forall_eq']
    exact (canonical_iff hid).symm

end A2aAgentLayer.Migrations.SchemaHistory
