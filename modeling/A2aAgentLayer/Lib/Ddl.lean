import Mathlib.Data.List.Nodup
import Mathlib.Logic.Function.Basic
import A2aAgentLayer.Lib.Utf16

/-!
# Changing the schema of a database

Tables with typed columns, primary and unique keys and foreign keys, the rows in them, and the
statements that create, drop and alter them.  What a statement does to the schema does not depend on
the rows; whether it goes through does, for the one that changes the type of a column: every value
has to be cast, and the rows have to stay distinct under every key with that column.

Names and values are parameters.  Foreign keys only keep a table from being dropped.
-/

namespace A2aAgentLayer.Lib.Ddl

open A2aAgentLayer.Lib.Utf16

/-! ### Schemas and rows -/

inductive SqlType (η : Type) where
  | uuid
  | varchar
  | text
  | int
  | bigint
  | boolean
  | jsonb
  | decimal (precision scale : ℕ)
  | timestamp
  | timestamptz
  | enum (name : η)
  deriving DecidableEq

structure Column (κ η : Type) where
  name : κ
  type : SqlType η
  notNull : Bool
  deriving DecidableEq

/-- `keys` are the primary key and the unique constraints; a reference is a column and the table it
refers to. -/
structure Table (τ κ η : Type) where
  name : τ
  columns : List (Column κ η)
  keys : List (List κ)
  references : List (κ × τ)
  deriving DecidableEq

structure Schema (τ κ ι η : Type) where
  enums : List (η × List JsString)
  tables : List (Table τ κ η)
  indexes : List (ι × τ × κ)
  deriving DecidableEq

def Schema.empty {τ κ ι η : Type} : Schema τ κ ι η := ⟨[], [], []⟩

/-- `none` is NULL. -/
abbrev Row (κ V : Type) := κ → Option V

@[ext]
structure Db (τ κ ι η V : Type) where
  schema : Schema τ κ ι η
  rows : τ → List (Row κ V)

inductive Statement (τ κ ι η V : Type) where
  | createType (name : η) (labels : List JsString)
  | createTable (table : Table τ κ η)
  | createIndex (name : ι) (table : τ) (column : κ)
  | dropTable (name : τ) (ifExists : Bool)
  | dropType (name : η) (ifExists : Bool)
  | dropIndex (name : ι)
  | alterColumnType (table : τ) (column : κ) (type : SqlType η) (cast : V → Option V)

variable {τ κ ι η V : Type} [DecidableEq τ] [DecidableEq κ] [DecidableEq ι] [DecidableEq η]
  [DecidableEq V]

def Schema.has (s : Schema τ κ ι η) (table : τ) (column : κ) : Bool :=
  s.tables.any fun t => decide (t.name = table) && t.columns.any fun c => decide (c.name = column)

def Table.alter (column : κ) (type : SqlType η) (t : Table τ κ η) : Table τ κ η :=
  { t with
    columns := t.columns.map fun c => if c.name = column then { c with type := type } else c }

/-- Whether the types and the tables that a table names are there; it may name itself. -/
def Schema.knows (s : Schema τ κ ι η) (t : Table τ κ η) : Bool :=
  (t.columns.all fun c =>
    match c.type with
    | .enum name => s.enums.any fun e => decide (e.1 = name)
    | _ => true)
    && t.references.all fun r =>
      decide (r.2 = t.name) || s.tables.any fun x => decide (x.name = r.2)

def Schema.uses (s : Schema τ κ ι η) (name : η) : Bool :=
  s.tables.any fun t => t.columns.any fun c => decide (c.type = .enum name)

def Statement.onSchema (s : Schema τ κ ι η) : Statement τ κ ι η V → Option (Schema τ κ ι η)
  | .createType name labels =>
      if s.enums.any fun e => decide (e.1 = name) then none
      else some { s with enums := s.enums ++ [(name, labels)] }
  | .createTable t =>
      if s.tables.any fun x => decide (x.name = t.name) then none
      else if s.knows t then some { s with tables := s.tables ++ [t] }
      else none
  | .createIndex name table column =>
      if s.indexes.any fun i => decide (i.1 = name) then none
      else if s.has table column then
        some { s with indexes := s.indexes ++ [(name, table, column)] }
      else none
  | .dropTable name ifExists =>
      if s.tables.any fun x => decide (x.name = name) then
        if s.tables.any fun x => decide (x.name ≠ name)
            && x.references.any fun r => decide (r.2 = name) then none
        else some { s with
          tables := s.tables.filter fun x => decide (x.name ≠ name)
          indexes := s.indexes.filter fun i => decide (i.2.1 ≠ name) }
      else if ifExists then some s
      else none
  | .dropType name ifExists =>
      if s.enums.any fun e => decide (e.1 = name) then
        if s.uses name then none
        else some { s with enums := s.enums.filter fun e => decide (e.1 ≠ name) }
      else if ifExists then some s
      else none
  | .dropIndex name =>
      if s.indexes.any fun i => decide (i.1 = name) then
        some { s with indexes := s.indexes.filter fun i => decide (i.1 ≠ name) }
      else none
  | .alterColumnType table column type _ =>
      if s.has table column then
        some { s with
          tables := s.tables.map fun t => if t.name = table then t.alter column type else t }
      else none

/-- No two rows have the same key; a key with a NULL is no other's. -/
def Distinct (key : List κ) (rows : List (Row κ V)) : Prop :=
  rows.Pairwise fun r r' => ¬ ∀ c ∈ key, r c ≠ none ∧ r c = r' c

instance (key : List κ) (rows : List (Row κ V)) : Decidable (Distinct key rows) :=
  inferInstanceAs (Decidable (List.Pairwise _ rows))

/-- A row with one column cast. -/
def recast (cast : V → Option V) (column : κ) (row : Row κ V) : Row κ V :=
  Function.update row column ((row column).bind cast)

/-- Every value of a column can be cast. -/
def Castable (cast : V → Option V) (column : κ) (rows : List (Row κ V)) : Prop :=
  ∀ r ∈ rows, (r column).isSome = true → ((r column).bind cast).isSome = true

instance (cast : V → Option V) (column : κ) (rows : List (Row κ V)) :
    Decidable (Castable cast column rows) :=
  inferInstanceAs (Decidable (∀ r ∈ rows, _ → _))

/-- The rows are distinct under every key of a table that has a column in it. -/
def KeysHold (s : Schema τ κ ι η) (table : τ) (column : κ) (rows : List (Row κ V)) : Prop :=
  ∀ t ∈ s.tables, t.name = table → ∀ key ∈ t.keys, column ∈ key → Distinct key rows

instance (s : Schema τ κ ι η) (table : τ) (column : κ) (rows : List (Row κ V)) :
    Decidable (KeysHold s table column rows) :=
  inferInstanceAs (Decidable (∀ t ∈ s.tables, _ → ∀ key ∈ t.keys, _ → _))

def Statement.onRows (s : Schema τ κ ι η) (rows : τ → List (Row κ V)) :
    Statement τ κ ι η V → Option (τ → List (Row κ V))
  | .createTable t => some (Function.update rows t.name [])
  | .dropTable name _ => some (Function.update rows name [])
  | .alterColumnType table column _ cast =>
      let after := (rows table).map (recast cast column)
      if Castable cast column (rows table) ∧ KeysHold s table column after then
        some (Function.update rows table after)
      else none
  | _ => some rows

def Statement.exec (db : Db τ κ ι η V) (st : Statement τ κ ι η V) : Option (Db τ κ ι η V) :=
  (st.onSchema db.schema).bind fun schema =>
    (st.onRows db.schema db.rows).map fun rows => ⟨schema, rows⟩

def execAll (sts : List (Statement τ κ ι η V)) (db : Db τ κ ι η V) : Option (Db τ κ ι η V) :=
  sts.foldlM Statement.exec db

/-- What a list of statements makes of a schema. -/
def schemaAfter (sts : List (Statement τ κ ι η V)) (s : Schema τ κ ι η) :
    Option (Schema τ κ ι η) :=
  sts.foldlM Statement.onSchema s

theorem exec_eq_some {db after : Db τ κ ι η V} {st : Statement τ κ ι η V} :
    st.exec db = some after ↔ st.onSchema db.schema = some after.schema
      ∧ st.onRows db.schema db.rows = some after.rows := by
  simp only [Statement.exec, Option.bind_eq_some_iff, Option.map_eq_some_iff]
  constructor
  · rintro ⟨schema, hschema, rows, hrows, rfl⟩
    exact ⟨hschema, hrows⟩
  · rintro ⟨hschema, hrows⟩
    exact ⟨_, hschema, _, hrows, rfl⟩

theorem execAll_cons (st : Statement τ κ ι η V) (sts : List (Statement τ κ ι η V))
    (db : Db τ κ ι η V) : execAll (st :: sts) db = (st.exec db).bind (execAll sts) := by
  rw [execAll, List.foldlM_cons]
  rfl

/-- The schema does not depend on the rows. -/
theorem schemaAfter_of_execAll {sts : List (Statement τ κ ι η V)} {db after : Db τ κ ι η V}
    (h : execAll sts db = some after) : schemaAfter sts db.schema = some after.schema := by
  induction sts generalizing db with
  | nil => exact congrArg (fun db => some db.schema) (Option.some.inj h)
  | cons st sts ih =>
      rw [execAll_cons] at h
      obtain ⟨mid, hmid, h⟩ := Option.bind_eq_some_iff.mp h
      rw [schemaAfter, List.foldlM_cons, (exec_eq_some.mp hmid).1]
      exact ih h

/-- A statement that goes through or not by the schema alone. -/
def Statement.structural : Statement τ κ ι η V → Bool
  | .alterColumnType .. => false
  | _ => true

omit [DecidableEq ι] [DecidableEq η] in
theorem onRows_of_structural {st : Statement τ κ ι η V} (h : st.structural = true)
    (s : Schema τ κ ι η) (rows : τ → List (Row κ V)) : ∃ after, st.onRows s rows = some after := by
  cases st with
  | alterColumnType table column type cast => cases h
  | _ => exact ⟨_, rfl⟩

theorem execAll_of_structural {sts : List (Statement τ κ ι η V)}
    (h : ∀ st ∈ sts, st.structural = true) {db : Db τ κ ι η V} {s : Schema τ κ ι η}
    (hs : schemaAfter sts db.schema = some s) :
    ∃ after, execAll sts db = some after ∧ after.schema = s := by
  induction sts generalizing db with
  | nil => exact ⟨db, rfl, Option.some.inj hs⟩
  | cons st sts ih =>
      rw [schemaAfter, List.foldlM_cons] at hs
      obtain ⟨mid, hmid, hs⟩ := Option.bind_eq_some_iff.mp hs
      obtain ⟨rows, hrows⟩ := onRows_of_structural (h st List.mem_cons_self) db.schema db.rows
      obtain ⟨after, hafter, hschema⟩ := ih
        (fun st' hst' => h st' (List.mem_cons_of_mem st hst'))
        (show schemaAfter sts (⟨mid, rows⟩ : Db τ κ ι η V).schema = some s from hs)
      have hexec : st.exec db = some ⟨mid, rows⟩ := exec_eq_some.mpr ⟨hmid, hrows⟩
      refine ⟨after, ?_, hschema⟩
      rw [execAll_cons, hexec, Option.bind_some, hafter]

/-! ### Rows that fit -/

omit [DecidableEq κ] [DecidableEq V] in
/-- Only the columns of a key matter. -/
theorem distinct_map_iff {key : List κ} {rows : List (Row κ V)} {f g : Row κ V → Row κ V}
    (h : ∀ r, ∀ c ∈ key, f r c = g r c) :
    Distinct key (rows.map f) ↔ Distinct key (rows.map g) := by
  rw [Distinct, Distinct, List.pairwise_map, List.pairwise_map]
  refine iff_of_eq (congrArg (fun R => List.Pairwise R rows) ?_)
  funext r r'
  refine propext (not_congr (forall₂_congr fun c hc => ?_))
  rw [h r c hc, h r' c hc]

omit [DecidableEq V] in
theorem recast_of_ne {cast : V → Option V} {column c : κ} (h : c ≠ column) (row : Row κ V) :
    recast cast column row c = row c := Function.update_of_ne h _ _

omit [DecidableEq V] in
theorem recast_self (cast : V → Option V) (column : κ) (row : Row κ V) :
    recast cast column row column = (row column).bind cast := Function.update_self ..

omit [DecidableEq V] in
theorem distinct_recast {key : List κ} {rows : List (Row κ V)} {cast : V → Option V} {column : κ}
    (h : column ∉ key) : Distinct key (rows.map (recast cast column)) ↔ Distinct key rows := by
  have hsame : Distinct key (rows.map (recast cast column)) ↔ Distinct key (rows.map id) :=
    distinct_map_iff fun r c hc => recast_of_ne (fun heq : c = column => h (heq ▸ hc)) r
  rwa [List.map_id] at hsame

variable (admits : SqlType η → V → Bool)

/-- A cell fits its column. -/
def Column.accepts (c : Column κ η) : Option V → Bool
  | none => !c.notNull
  | some v => admits c.type v

/-- Every row fits its table, and keys are unique. -/
structure RowsFit (tables : List (Table τ κ η)) (rows : τ → List (Row κ V)) : Prop where
  typed : ∀ t ∈ tables, ∀ r ∈ rows t.name, ∀ c ∈ t.columns, c.accepts admits (r c.name) = true
  distinct : ∀ t ∈ tables, ∀ key ∈ t.keys, Distinct key (rows t.name)

/-- The rows of a database fit its schema. -/
def Db.WellFormed (db : Db τ κ ι η V) : Prop := RowsFit admits db.schema.tables db.rows

/-- What a statement casts to fits the new type. -/
def Statement.Sound : Statement τ κ ι η V → Prop
  | .alterColumnType _ _ type cast => ∀ v w, cast v = some w → admits type w = true
  | _ => True

variable {admits}

omit [DecidableEq η] [DecidableEq V] in
theorem accepts_alter {column : κ} {type : SqlType η} {c : Column κ η} {cast : V → Option V}
    (hsound : ∀ v w, cast v = some w → admits type w = true) {row : Row κ V}
    (hcast : (row column).isSome = true → ((row column).bind cast).isSome = true)
    (h : c.accepts admits (row c.name) = true) :
    (if c.name = column then { c with type := type } else c).accepts admits
      (recast cast column row (if c.name = column then { c with type := type } else c).name)
        = true := by
  by_cases hc : c.name = column
  · subst hc
    rw [if_pos rfl]
    show Column.accepts admits { c with type := type } (recast cast c.name row c.name) = true
    rw [recast_self]
    cases hcell : row c.name with
    | none =>
        rw [hcell] at h
        exact h
    | some v =>
        rw [hcell] at hcast
        obtain ⟨w, hw⟩ := Option.isSome_iff_exists.mp (hcast rfl)
        rw [hw]
        exact hsound v w hw
  · rw [if_neg hc, recast_of_ne hc]
    exact h

omit [DecidableEq τ] [DecidableEq κ] [DecidableEq η] [DecidableEq V] in
/-- Tables with the rows they had, and tables without rows. -/
theorem RowsFit.of_rows {tables tables' : List (Table τ κ η)} {rows rows' : τ → List (Row κ V)}
    (h : RowsFit admits tables rows)
    (hrows : ∀ t ∈ tables', rows' t.name = [] ∨ t ∈ tables ∧ rows' t.name = rows t.name) :
    RowsFit admits tables' rows' := by
  constructor
  · intro t ht
    rcases hrows t ht with hnil | ⟨hmem, heq⟩
    · rw [hnil]
      exact fun r hr => absurd hr List.not_mem_nil
    · rw [heq]
      exact h.typed t hmem
  · intro t ht key hkey
    rcases hrows t ht with hnil | ⟨hmem, heq⟩
    · rw [hnil]
      exact List.Pairwise.nil
    · rw [heq]
      exact h.distinct t hmem key hkey

omit [DecidableEq η] [DecidableEq V] in
theorem RowsFit.alter {tables : List (Table τ κ η)} {rows : τ → List (Row κ V)}
    (h : RowsFit admits tables rows) {table : τ} {column : κ} {type : SqlType η}
    {cast : V → Option V} (hsound : ∀ v w, cast v = some w → admits type w = true)
    (hcast : Castable cast column (rows table))
    (hkeys : ∀ t ∈ tables, t.name = table → ∀ key ∈ t.keys, column ∈ key →
      Distinct key ((rows table).map (recast cast column))) :
    RowsFit admits (tables.map fun t => if t.name = table then t.alter column type else t)
      (Function.update rows table ((rows table).map (recast cast column))) := by
  constructor
  · intro t' ht' r hr c' hc'
    obtain ⟨t, ht, rfl⟩ := List.mem_map.mp ht'
    by_cases htable : t.name = table
    · rw [if_pos htable] at hr hc'
      obtain ⟨c, hc, rfl⟩ := List.mem_map.mp hc'
      rw [Table.alter, htable, Function.update_self] at hr
      obtain ⟨row, hrow, rfl⟩ := List.mem_map.mp hr
      exact accepts_alter hsound (hcast row hrow) (h.typed t ht row (htable ▸ hrow) c hc)
    · rw [if_neg htable] at hr hc'
      rw [Function.update_of_ne htable] at hr
      exact h.typed t ht r hr c' hc'
  · intro t' ht' key hkey
    obtain ⟨t, ht, rfl⟩ := List.mem_map.mp ht'
    by_cases htable : t.name = table
    · rw [if_pos htable] at hkey ⊢
      rw [Table.alter, htable, Function.update_self]
      by_cases hcolumn : column ∈ key
      · exact hkeys t ht htable key hkey hcolumn
      · exact (distinct_recast hcolumn).mpr (htable ▸ h.distinct t ht key hkey)
    · rw [if_neg htable] at hkey ⊢
      rw [Function.update_of_ne htable]
      exact h.distinct t ht key hkey

/-- **A statement keeps the rows well formed.** -/
theorem wellFormed_exec {db after : Db τ κ ι η V} (h : db.WellFormed admits)
    {st : Statement τ κ ι η V} (hsound : st.Sound admits) (hexec : st.exec db = some after) :
    after.WellFormed admits := by
  obtain ⟨hschema, hrows⟩ := exec_eq_some.mp hexec
  rw [Db.WellFormed]
  have hsame : after.schema.tables = db.schema.tables → after.rows = db.rows →
      RowsFit admits after.schema.tables after.rows := by
    intro htables hrows
    rw [htables, hrows]
    exact h
  cases st with
  | createType name labels =>
      simp only [Statement.onSchema] at hschema
      split_ifs at hschema
      exact hsame (by rw [← Option.some.inj hschema]) (Option.some.inj hrows).symm
  | createIndex name table column =>
      simp only [Statement.onSchema] at hschema
      split_ifs at hschema
      exact hsame (by rw [← Option.some.inj hschema]) (Option.some.inj hrows).symm
  | dropType name ifExists =>
      simp only [Statement.onSchema] at hschema
      split_ifs at hschema <;>
        exact hsame (by rw [← Option.some.inj hschema]) (Option.some.inj hrows).symm
  | dropIndex name =>
      simp only [Statement.onSchema] at hschema
      split_ifs at hschema
      exact hsame (by rw [← Option.some.inj hschema]) (Option.some.inj hrows).symm
  | createTable new =>
      simp only [Statement.onSchema] at hschema
      split_ifs at hschema with hfree hknown
      rw [← Option.some.inj hschema, ← Option.some.inj hrows]
      refine h.of_rows fun t ht => ?_
      by_cases hname : t.name = new.name
      · exact .inl (by rw [hname, Function.update_self])
      · refine .inr ⟨?_, Function.update_of_ne hname _ _⟩
        rcases List.mem_append.mp ht with ht | ht
        · exact ht
        · exact absurd (congrArg Table.name (List.mem_singleton.mp ht)) hname
  | dropTable name ifExists =>
      have hsub : ∀ t ∈ after.schema.tables, t ∈ db.schema.tables := by
        simp only [Statement.onSchema] at hschema
        split_ifs at hschema with htable hused hif
        · rw [← Option.some.inj hschema]
          exact fun t ht => List.mem_of_mem_filter ht
        · rw [← Option.some.inj hschema]
          exact fun t ht => ht
      rw [← Option.some.inj hrows]
      refine h.of_rows fun t ht => ?_
      by_cases hname : t.name = name
      · exact .inl (by rw [hname, Function.update_self])
      · exact .inr ⟨hsub t ht, Function.update_of_ne hname _ _⟩
  | alterColumnType table column type cast =>
      simp only [Statement.onSchema] at hschema
      split_ifs at hschema with hhas
      simp only [Statement.onRows] at hrows
      split_ifs at hrows with hready
      rw [← Option.some.inj hschema, ← Option.some.inj hrows]
      exact h.alter hsound hready.1 hready.2

theorem wellFormed_execAll {db after : Db τ κ ι η V} (h : db.WellFormed admits)
    {sts : List (Statement τ κ ι η V)} (hsound : ∀ st ∈ sts, st.Sound admits)
    (hexec : execAll sts db = some after) : after.WellFormed admits := by
  induction sts generalizing db with
  | nil => exact Option.some.inj hexec ▸ h
  | cons st sts ih =>
      rw [execAll_cons] at hexec
      obtain ⟨mid, hmid, hexec⟩ := Option.bind_eq_some_iff.mp hexec
      exact ih (wellFormed_exec h (hsound st List.mem_cons_self) hmid)
        (fun st' hst' => hsound st' (List.mem_cons_of_mem st hst')) hexec

/-! ### Several columns at once -/

section Columns

variable (type : SqlType η) (cast : V → Option V)

/-- The same change of type for a list of columns. -/
def alterColumns (columns : List (τ × κ)) : List (Statement τ κ ι η V) :=
  columns.map fun p => .alterColumnType p.1 p.2 type cast

/-- A row of a table with these columns cast. -/
def castRow (columns : List (τ × κ)) (table : τ) (r : Row κ V) : Row κ V :=
  fun c => if (table, c) ∈ columns then (r c).bind cast else r c

def castRows (columns : List (τ × κ)) (rows : τ → List (Row κ V)) : τ → List (Row κ V) :=
  fun table => (rows table).map (castRow cast columns table)

/-- The change of one column goes through. -/
def Ready (s : Schema τ κ ι η) (rows : τ → List (Row κ V)) (p : τ × κ) : Prop :=
  Castable cast p.2 (rows p.1) ∧ KeysHold s p.1 p.2 ((rows p.1).map (recast cast p.2))

/-- No key holds two of the columns. -/
def Separate (s : Schema τ κ ι η) (columns : List (τ × κ)) : Prop :=
  ∀ p ∈ columns, ∀ q ∈ columns, p.1 = q.1 → p.2 ≠ q.2 → ∀ t ∈ s.tables, t.name = p.1 →
    ∀ key ∈ t.keys, p.2 ∈ key → q.2 ∉ key

instance (s : Schema τ κ ι η) (columns : List (τ × κ)) : Decidable (Separate s columns) :=
  inferInstanceAs (Decidable (∀ p ∈ columns, ∀ q ∈ columns, _ → _ → ∀ t ∈ s.tables, _ →
    ∀ key ∈ t.keys, _ → _))

variable {type} {cast}

omit [DecidableEq V] in
theorem castRow_of_mem {columns : List (τ × κ)} {table : τ} {c : κ} (h : (table, c) ∈ columns)
    (r : Row κ V) : castRow cast columns table r c = (r c).bind cast := if_pos h

omit [DecidableEq V] in
theorem castRow_of_not_mem {columns : List (τ × κ)} {table : τ} {c : κ} (h : (table, c) ∉ columns)
    (r : Row κ V) : castRow cast columns table r c = r c := if_neg h

omit [DecidableEq V] in
theorem castRow_congr {columns columns' : List (τ × κ)} {table : τ}
    (h : ∀ c, (table, c) ∈ columns ↔ (table, c) ∈ columns') :
    castRow cast columns table = castRow cast columns' table := by
  funext r c
  simp only [castRow, h c]

omit [DecidableEq V] in
theorem castRows_cons {p : τ × κ} {columns : List (τ × κ)} (h : p ∉ columns)
    (rows : τ → List (Row κ V)) :
    castRows cast columns (Function.update rows p.1 ((rows p.1).map (recast cast p.2)))
      = castRows cast (p :: columns) rows := by
  funext table
  by_cases htable : table = p.1
  · subst htable
    rw [castRows, Function.update_self, castRows, List.map_map]
    refine List.map_congr_left fun r _ => funext fun c => ?_
    rw [Function.comp_apply]
    by_cases hc : c = p.2
    · subst hc
      rw [castRow_of_not_mem h, recast_self, castRow_of_mem List.mem_cons_self]
    · have hmem : (p.1, c) ∈ p :: columns ↔ (p.1, c) ∈ columns := by
        rw [List.mem_cons, or_iff_right]
        exact fun heq => hc (congrArg Prod.snd heq)
      simp only [castRow, hmem, recast_of_ne hc]
  · have hmem : ∀ c, (table, c) ∈ columns ↔ (table, c) ∈ p :: columns := by
      intro c
      rw [List.mem_cons, or_iff_right]
      exact fun heq => htable (congrArg Prod.fst heq)
    rw [castRows, Function.update_of_ne htable, castRows, castRow_congr hmem]

omit [DecidableEq V] in
theorem castRows_castRows (cast' : V → Option V) (columns : List (τ × κ))
    (rows : τ → List (Row κ V)) : castRows cast' columns (castRows cast columns rows)
      = castRows (fun v => (cast v).bind cast') columns rows := by
  funext table
  rw [castRows, castRows, List.map_map, castRows]
  refine List.map_congr_left fun r _ => funext fun c => ?_
  rw [Function.comp_apply]
  by_cases hmem : (table, c) ∈ columns
  · rw [castRow_of_mem hmem, castRow_of_mem hmem, castRow_of_mem hmem, Option.bind_assoc]
  · rw [castRow_of_not_mem hmem, castRow_of_not_mem hmem, castRow_of_not_mem hmem]

omit [DecidableEq V] in
theorem castRows_eq_self_iff {columns : List (τ × κ)} {rows : τ → List (Row κ V)} :
    castRows cast columns rows = rows
      ↔ ∀ p ∈ columns, ∀ r ∈ rows p.1, (r p.2).bind cast = r p.2 := by
  have hrows : ∀ table, castRows cast columns rows table = rows table ↔
      ∀ r ∈ rows table, ∀ c, (table, c) ∈ columns → (r c).bind cast = r c := by
    intro table
    conv_lhs => rhs; rw [← List.map_id (rows table)]
    rw [castRows, List.map_inj_left]
    refine forall₂_congr fun r _ => funext_iff.trans (forall_congr' fun c => ?_)
    by_cases hmem : (table, c) ∈ columns
    · rw [castRow_of_mem hmem, id_eq, forall_prop_of_true hmem]
    · rw [castRow_of_not_mem hmem, id_eq]
      exact iff_of_true rfl fun h => absurd h hmem
  rw [funext_iff]
  simp only [hrows]
  constructor
  · intro h p hp r hr
    exact h p.1 r hr p.2 hp
  · intro h table r hr c hmem
    exact h (table, c) hmem r hr

omit [DecidableEq V] in
theorem castRows_reverse (columns : List (τ × κ)) (rows : τ → List (Row κ V)) :
    castRows cast columns.reverse rows = castRows cast columns rows := by
  funext table
  rw [castRows, castRow_congr fun c => List.mem_reverse, castRows]

omit [DecidableEq V] in
theorem castRows_congr {cast' : V → Option V} {columns : List (τ × κ)}
    {rows : τ → List (Row κ V)}
    (h : ∀ p ∈ columns, ∀ r ∈ rows p.1, (r p.2).bind cast = (r p.2).bind cast') :
    castRows cast columns rows = castRows cast' columns rows := by
  funext table
  rw [castRows, castRows]
  refine List.map_congr_left fun r hr => funext fun c => ?_
  by_cases hmem : (table, c) ∈ columns
  · rw [castRow_of_mem hmem, castRow_of_mem hmem, h _ hmem r hr]
  · rw [castRow_of_not_mem hmem, castRow_of_not_mem hmem]

/-- A schema with the type of one column changed. -/
def Schema.alter (s : Schema τ κ ι η) (table : τ) (column : κ) (type : SqlType η) :
    Schema τ κ ι η :=
  { s with tables := s.tables.map fun t => if t.name = table then t.alter column type else t }

theorem exec_alter {db after : Db τ κ ι η V} {p : τ × κ} :
    (Statement.alterColumnType p.1 p.2 type cast).exec db = some after ↔
      db.schema.has p.1 p.2 = true ∧ Ready cast db.schema db.rows p
        ∧ after = ⟨db.schema.alter p.1 p.2 type,
          Function.update db.rows p.1 ((db.rows p.1).map (recast cast p.2))⟩ := by
  rw [exec_eq_some]
  simp only [Statement.onSchema, Statement.onRows]
  constructor
  · rintro ⟨hschema, hrows⟩
    split_ifs at hschema with hhas
    split_ifs at hrows with hready
    obtain ⟨schema, rows⟩ := after
    obtain rfl := Option.some.inj hschema
    obtain rfl := Option.some.inj hrows
    exact ⟨hhas, hready, rfl⟩
  · rintro ⟨hhas, hready, rfl⟩
    rw [if_pos hhas]
    exact ⟨rfl, if_pos hready⟩

omit [DecidableEq ι] [DecidableEq η] in
/-- The tables have the names and the keys they had. -/
theorem mem_alter {s : Schema τ κ ι η} {table : τ} {column : κ} {t' : Table τ κ η}
    (h : t' ∈ (s.alter table column type).tables) :
    ∃ t ∈ s.tables, t'.name = t.name ∧ t'.keys = t.keys := by
  obtain ⟨t, ht, rfl⟩ := List.mem_map.mp h
  refine ⟨t, ht, ?_⟩
  split_ifs
  · exact ⟨rfl, rfl⟩
  · exact ⟨rfl, rfl⟩

omit [DecidableEq ι] [DecidableEq η] in
theorem exists_alter {s : Schema τ κ ι η} {t : Table τ κ η} (table : τ) (column : κ)
    (type : SqlType η) (h : t ∈ s.tables) :
    ∃ t' ∈ (s.alter table column type).tables, t'.name = t.name ∧ t'.keys = t.keys := by
  refine ⟨_, List.mem_map_of_mem h, ?_⟩
  split_ifs
  · exact ⟨rfl, rfl⟩
  · exact ⟨rfl, rfl⟩

omit [DecidableEq ι] [DecidableEq η] in
theorem has_alter (s : Schema τ κ ι η) (table t : τ) (column c : κ) :
    (s.alter table column type).has t c = s.has t c := by
  have hname : ∀ col : Column κ η,
      (if col.name = column then { col with type := type } else col).name = col.name := by
    intro col
    split_ifs <;> rfl
  rw [Schema.has, Schema.alter, List.any_map, Schema.has]
  congr 1
  funext x
  show (decide ((if x.name = table then x.alter column type else x).name = t)
    && (if x.name = table then x.alter column type else x).columns.any _) = _
  split_ifs
  · rw [Table.alter, List.any_map]
    simp only [Function.comp_def, hname]
  · rfl

omit [DecidableEq ι] [DecidableEq η] [DecidableEq V] in
theorem keysHold_alter {s : Schema τ κ ι η} {table t : τ} {column c : κ} {rows : List (Row κ V)} :
    KeysHold (s.alter table column type) t c rows ↔ KeysHold s t c rows := by
  constructor
  · intro h x hx hname key hkey
    obtain ⟨x', hx', hsame⟩ := exists_alter table column type hx
    exact h x' hx' (hsame.1.trans hname) key (hsame.2 ▸ hkey)
  · intro h x' hx' hname key hkey
    obtain ⟨x, hx, hsame⟩ := mem_alter hx'
    exact h x hx (hsame.1 ▸ hname) key (hsame.2 ▸ hkey)

omit [DecidableEq ι] [DecidableEq η] in
theorem separate_alter {s : Schema τ κ ι η} {table : τ} {column : κ} {columns : List (τ × κ)}
    (h : Separate s columns) : Separate (s.alter table column type) columns := by
  intro p hp q hq htable hne t' ht' hname key hkey
  obtain ⟨t, ht, hsame⟩ := mem_alter ht'
  exact h p hp q hq htable hne t ht (hsame.1 ▸ hname) key (hsame.2 ▸ hkey)

omit [DecidableEq ι] [DecidableEq η] [DecidableEq V] in
/-- One column does not get in the way of another. -/
theorem ready_alter {s : Schema τ κ ι η} {rows : τ → List (Row κ V)} {p q : τ × κ}
    (hne : q ≠ p) (hseparate : p.1 = q.1 → ∀ t ∈ s.tables, t.name = q.1 → ∀ key ∈ t.keys,
      q.2 ∈ key → p.2 ∉ key) :
    Ready cast (s.alter p.1 p.2 type)
        (Function.update rows p.1 ((rows p.1).map (recast cast p.2))) q
      ↔ Ready cast s rows q := by
  rw [Ready, keysHold_alter, Ready]
  by_cases htable : q.1 = p.1
  · have hcolumn : q.2 ≠ p.2 := fun heq => hne (Prod.ext htable heq)
    rw [htable, Function.update_self, Castable, List.forall_mem_map]
    simp only [recast_of_ne hcolumn]
    refine and_congr Iff.rfl (forall₂_congr fun t ht => forall_congr' fun hname =>
      forall₂_congr fun key hkey => forall_congr' fun hmem => ?_)
    rw [List.map_map]
    refine distinct_map_iff fun r c hc => ?_
    have hcp : c ≠ p.2 := fun heq =>
      hseparate htable.symm t ht (hname.trans htable.symm) key hkey hmem (heq ▸ hc)
    by_cases hcq : c = q.2
    · subst hcq
      rw [Function.comp_apply, recast_self, recast_self, recast_of_ne hcp]
    · rw [Function.comp_apply, recast_of_ne hcq, recast_of_ne hcp, recast_of_ne hcq]
  · rw [Function.update_of_ne htable]

variable (type cast) in
/-- **The columns change one by one if each of them can change in the rows as they are at
first.** -/
theorem execAll_alterColumns {columns : List (τ × κ)} (hnodup : columns.Nodup)
    (db : Db τ κ ι η V) (hhas : ∀ p ∈ columns, db.schema.has p.1 p.2 = true)
    (hseparate : Separate db.schema columns) :
    ((∃ after, execAll (alterColumns type cast columns) db = some after)
      ↔ ∀ p ∈ columns, Ready cast db.schema db.rows p)
      ∧ ∀ after, execAll (alterColumns type cast columns) db = some after →
        after.rows = castRows cast columns db.rows := by
  induction columns generalizing db with
  | nil =>
      refine ⟨iff_of_true ⟨db, rfl⟩ fun p hp => absurd hp List.not_mem_nil, fun after h => ?_⟩
      obtain rfl := Option.some.inj h
      funext table
      refine ((List.map_congr_left fun r _ => funext fun c => ?_).trans (List.map_id _)).symm
      exact castRow_of_not_mem List.not_mem_nil r
  | cons p columns ih =>
      obtain ⟨hp, hnodup⟩ := List.nodup_cons.mp hnodup
      let mid : Db τ κ ι η V := ⟨db.schema.alter p.1 p.2 type,
        Function.update db.rows p.1 ((db.rows p.1).map (recast cast p.2))⟩
      have hexec : ∀ after, execAll (alterColumns type cast (p :: columns)) db = some after ↔
          Ready cast db.schema db.rows p
            ∧ execAll (alterColumns type cast columns) mid = some after := by
        intro after
        rw [alterColumns, List.map_cons, execAll_cons, Option.bind_eq_some_iff]
        constructor
        · rintro ⟨m, hm, h⟩
          obtain ⟨-, hready, rfl⟩ := exec_alter.mp hm
          exact ⟨hready, h⟩
        · rintro ⟨hready, h⟩
          exact ⟨mid, exec_alter.mpr ⟨hhas p List.mem_cons_self, hready, rfl⟩, h⟩
      obtain ⟨hsome, hrows⟩ := ih hnodup mid
        (fun q hq => by rw [has_alter]; exact hhas q (List.mem_cons_of_mem p hq))
        (separate_alter fun q hq r hr => hseparate q (List.mem_cons_of_mem p hq) r
          (List.mem_cons_of_mem p hr))
      have hready : ∀ q ∈ columns,
          (Ready cast mid.schema mid.rows q ↔ Ready cast db.schema db.rows q) := by
        intro q hq
        have hne : q ≠ p := fun heq => hp (heq ▸ hq)
        refine ready_alter hne fun htable => ?_
        exact hseparate q (List.mem_cons_of_mem p hq) p List.mem_cons_self htable.symm
          fun heq => hne (Prod.ext htable.symm heq)
      constructor
      · simp only [hexec, exists_and_left, hsome, List.forall_mem_cons]
        exact and_congr Iff.rfl (forall₂_congr hready)
      · intro after h
        rw [hrows after ((hexec after).mp h).2]
        exact castRows_cons hp db.rows

end Columns

end A2aAgentLayer.Lib.Ddl
