import Mathlib.Data.List.Infix
import Mathlib.Data.List.Nodup

/-!
# Saving entities into a table

A table lists its rows with their ids, oldest first.  An object mapper has one operation for both
kinds of writing: `save` changes the stored row whose id the entity carries and otherwise inserts a
new row, under the id the entity carries or under a generated one.  The mapper compares ids as text
and the table by value, so an id may be stored and carried in another spelling; such an entity is
inserted and refused as a duplicate.  What the entity makes of a row is a function that may refuse.

A save that succeeds appends one row exactly if the entity carries no stored id (`save_grows_iff`);
in any case it writes one row and leaves the others (`mem_save`).
-/

namespace A2aAgentLayer.Lib.EntityTable

variable {ι ρ : Type*} [DecidableEq ι]

/-- The rows of a table with their ids. -/
abbrev Table (ι ρ : Type*) := List (ι × ρ)

/-- The id of an entity: none, one spelled as the table spells it, one in another spelling, or a
value that is no id. -/
inductive Carried (ι : Type*) where
  | absent
  | exact (id : ι)
  | spelled (id : ι)
  | refused

/-- The id a save writes. -/
def Carried.idOr (generated : ι) : Carried ι → Option ι
  | .absent => some generated
  | .exact id => some id
  | .spelled id => some id
  | .refused => none

/-- The stored row a save changes. -/
def target (table : Table ι ρ) : Carried ι → Option ρ
  | .exact id => table.lookup id
  | _ => none

/-- Insert a row; an id that is taken is refused. -/
def insert (table : Table ι ρ) (id : ι) (row : Option ρ) : Option (Table ι ρ) :=
  if id ∈ table.map Prod.fst then none else row.map fun row => table ++ [(id, row)]

/-- Write a row over the one with its id. -/
def replace (table : Table ι ρ) (id : ι) (row : ρ) : Table ι ρ :=
  table.map fun entry => if entry.1 = id then (id, row) else entry

/-- Insert or update: `fill none` is the row of a new entity, `fill (some row)` the row after its
update. -/
def save (table : Table ι ρ) (carried : Carried ι) (generated : ι) (fill : Option ρ → Option ρ) :
    Option (Table ι ρ) :=
  (carried.idOr generated).bind fun id =>
    match target table carried with
    | some row => (fill (some row)).map (replace table id)
    | none => insert table id (fill none)

/-! ### What a save does -/

theorem insert_eq_some {table after : Table ι ρ} {id : ι} {row : Option ρ} :
    insert table id row = some after
      ↔ id ∉ table.map Prod.fst ∧ ∃ r, row = some r ∧ table ++ [(id, r)] = after := by
  rw [insert, Option.ite_none_left_eq_some, Option.map_eq_some_iff]

/-- An entity without a stored id is inserted. -/
theorem save_of_target_none {table after : Table ι ρ} {carried : Carried ι} {generated : ι}
    {fill : Option ρ → Option ρ} (htarget : target table carried = none)
    (h : save table carried generated fill = some after) :
    ∃ id row, carried.idOr generated = some id ∧ id ∉ table.map Prod.fst ∧ fill none = some row
      ∧ after = table ++ [(id, row)] := by
  obtain ⟨id, hid, h⟩ := Option.bind_eq_some_iff.mp h
  rw [htarget] at h
  obtain ⟨hnew, row, hrow, rfl⟩ := insert_eq_some.mp h
  exact ⟨id, row, hid, hnew, hrow, rfl⟩

theorem exact_of_target {table : Table ι ρ} {carried : Carried ι} {stored : ρ}
    (h : target table carried = some stored) : ∃ id, carried = .exact id := by
  cases carried with
  | exact id => exact ⟨id, rfl⟩
  | absent => cases h
  | spelled id => cases h
  | refused => cases h

/-- An entity with a stored id changes its row. -/
theorem save_of_target_some {table after : Table ι ρ} {carried : Carried ι} {generated : ι}
    {fill : Option ρ → Option ρ} {stored : ρ} (htarget : target table carried = some stored) :
    save table carried generated fill = some after ↔
      ∃ id row, carried = .exact id ∧ fill (some stored) = some row
        ∧ after = replace table id row := by
  obtain ⟨id, rfl⟩ := exact_of_target htarget
  rw [save, Carried.idOr, Option.bind_some, htarget]
  show (fill (some stored)).map (replace table id) = some after ↔ _
  rw [Option.map_eq_some_iff]
  constructor
  · rintro ⟨row, hrow, rfl⟩
    exact ⟨id, row, rfl, hrow, rfl⟩
  · rintro ⟨id', row, hid, hrow, rfl⟩
    obtain rfl := Carried.exact.inj hid
    exact ⟨row, hrow, rfl⟩

/-- The id of the entity is one, it is free unless its row is the one to change, and no value is
refused. -/
def Accepts (table : Table ι ρ) (carried : Carried ι) (generated : ι) (fill : Option ρ → Option ρ) :
    Prop :=
  ∃ id, carried.idOr generated = some id ∧ (target table carried = none → id ∉ table.map Prod.fst)
    ∧ fill (target table carried) ≠ none

theorem save_ne_none_iff {table : Table ι ρ} {carried : Carried ι} {generated : ι}
    {fill : Option ρ → Option ρ} :
    save table carried generated fill ≠ none ↔ Accepts table carried generated fill := by
  cases htarget : target table carried with
  | none =>
      rw [Accepts, htarget]
      constructor
      · intro h
        obtain ⟨after, hafter⟩ := Option.ne_none_iff_exists'.mp h
        obtain ⟨id, row, hid, hnew, hrow, -⟩ := save_of_target_none htarget hafter
        exact ⟨id, hid, fun _ => hnew, hrow ▸ Option.some_ne_none row⟩
      · rintro ⟨id, hid, hnew, hfill⟩
        obtain ⟨row, hrow⟩ := Option.ne_none_iff_exists'.mp hfill
        rw [save, hid, Option.bind_some, htarget]
        show insert table id (fill none) ≠ none
        rw [insert_eq_some.mpr ⟨hnew rfl, row, hrow, rfl⟩]
        exact Option.some_ne_none _
  | some stored =>
      obtain ⟨id, rfl⟩ := exact_of_target htarget
      rw [Accepts, htarget, save, Carried.idOr, Option.bind_some, htarget]
      show (fill (some stored)).map (replace table id) ≠ none ↔ _
      rw [ne_eq, Option.map_eq_none_iff]
      exact ⟨fun hfill => ⟨id, rfl, nofun, hfill⟩, fun ⟨_, _, _, hfill⟩ => hfill⟩

theorem map_fst_replace (table : Table ι ρ) (id : ι) (row : ρ) :
    (replace table id row).map Prod.fst = table.map Prod.fst := by
  rw [replace, List.map_map]
  refine List.map_congr_left fun entry _ => ?_
  rw [Function.comp_apply]
  split_ifs with hid
  · exact hid.symm
  · rfl

/-- Ids stay distinct. -/
theorem nodup_save {table after : Table ι ρ} {carried : Carried ι} {generated : ι}
    {fill : Option ρ → Option ρ} (hids : (table.map Prod.fst).Nodup)
    (h : save table carried generated fill = some after) : (after.map Prod.fst).Nodup := by
  cases htarget : target table carried with
  | none =>
      obtain ⟨id, row, -, hnew, -, rfl⟩ := save_of_target_none htarget h
      rw [List.map_append, List.map_singleton, ← List.concat_eq_append]
      exact List.Nodup.concat hnew hids
  | some stored =>
      obtain ⟨id, row, -, -, rfl⟩ := (save_of_target_some htarget).mp h
      rw [map_fst_replace]
      exact hids

theorem length_replace (table : Table ι ρ) (id : ι) (row : ρ) :
    (replace table id row).length = table.length := List.length_map ..

/-- The table has one row more, and the rows it had. -/
def Grows (table after : Table ι ρ) : Prop := ∃ entry, after = table ++ [entry]

omit [DecidableEq ι] in
theorem Grows.keeps {table after : Table ι ρ} (h : Grows table after) : table <+: after := by
  obtain ⟨entry, rfl⟩ := h
  exact List.prefix_append table [entry]

/-- **A save is an insertion exactly if the entity carries no stored id.** -/
theorem save_grows_iff {table after : Table ι ρ} {carried : Carried ι} {generated : ι}
    {fill : Option ρ → Option ρ} (h : save table carried generated fill = some after) :
    Grows table after ↔ target table carried = none := by
  cases htarget : target table carried with
  | none =>
      obtain ⟨id, row, -, -, -, rfl⟩ := save_of_target_none htarget h
      exact iff_of_true ⟨(id, row), rfl⟩ rfl
  | some stored =>
      obtain ⟨id, row, -, -, rfl⟩ := (save_of_target_some htarget).mp h
      refine iff_of_false ?_ nofun
      rintro ⟨entry, hentry⟩
      have hlength := congrArg List.length hentry
      rw [length_replace, List.length_append] at hlength
      simp at hlength

/-- Every save of an entity is an insertion exactly if no stored row takes its values. -/
theorem forall_save_grows_iff {table : Table ι ρ} {carried : Carried ι} {generated : ι}
    {fill : Option ρ → Option ρ} :
    (∀ after, save table carried generated fill = some after → Grows table after)
      ↔ ∀ stored, target table carried = some stored → fill (some stored) = none := by
  constructor
  · intro h stored htarget
    by_contra hfill
    obtain ⟨row, hrow⟩ := Option.ne_none_iff_exists'.mp hfill
    obtain ⟨id, rfl⟩ := exact_of_target htarget
    have hsave : save table (.exact id) generated fill = some (replace table id row) :=
      (save_of_target_some htarget).mpr ⟨id, row, rfl, hrow, rfl⟩
    rw [(save_grows_iff hsave).mp (h _ hsave)] at htarget
    cases htarget
  · intro h after hsave
    rw [save_grows_iff hsave]
    by_contra htarget
    obtain ⟨stored, hstored⟩ := Option.ne_none_iff_exists'.mp htarget
    obtain ⟨id, row, -, hrow, -⟩ := (save_of_target_some hstored).mp hsave
    rw [h stored hstored] at hrow
    cases hrow

/-- The same for a save into a table that is part of a larger state. -/
theorem forall_map_save_iff {σ : Type*} {put : Table ι ρ → σ} {P : σ → Prop} {table : Table ι ρ}
    {carried : Carried ι} {generated : ι} {fill : Option ρ → Option ρ}
    (hP : ∀ after, P (put after) ↔ Grows table after) :
    (∀ t, (save table carried generated fill).map put = some t → P t)
      ↔ ∀ stored, target table carried = some stored → fill (some stored) = none := by
  rw [← @forall_save_grows_iff _ _ _ table carried generated fill]
  constructor
  · intro h after hsave
    exact (hP after).mp (h (put after) (Option.map_eq_some_iff.mpr ⟨after, hsave, rfl⟩))
  · intro h t ht
    obtain ⟨after, hsave, rfl⟩ := Option.map_eq_some_iff.mp ht
    exact (hP after).mpr (h after hsave)

/-- **A save writes one row.** -/
theorem mem_save {table after : Table ι ρ} {carried : Carried ι} {generated : ι}
    {fill : Option ρ → Option ρ} (h : save table carried generated fill = some after) :
    ∃ id row, carried.idOr generated = some id ∧ fill (target table carried) = some row
      ∧ ∀ entry, entry ∈ after ↔ entry = (id, row) ∨ entry ∈ table ∧ entry.1 ≠ id := by
  cases htarget : target table carried with
  | none =>
      obtain ⟨id, row, hid, hnew, hrow, rfl⟩ := save_of_target_none htarget h
      refine ⟨id, row, hid, hrow, fun entry => ?_⟩
      rw [List.mem_append, List.mem_singleton, or_comm]
      refine or_congr_right ⟨fun hentry => ⟨hentry, ?_⟩, And.left⟩
      rintro rfl
      exact hnew (List.mem_map_of_mem hentry)
  | some stored =>
      obtain ⟨id, row, rfl, hrow, rfl⟩ := (save_of_target_some htarget).mp h
      refine ⟨id, row, rfl, hrow, fun entry => ?_⟩
      rw [replace, List.mem_map]
      constructor
      · rintro ⟨old, hold, rfl⟩
        split_ifs with hid
        · exact .inl rfl
        · exact .inr ⟨hold, hid⟩
      · rintro (rfl | ⟨hentry, hid⟩)
        · obtain ⟨before, rest, rfl, -⟩ := List.lookup_eq_some_iff.mp htarget
          exact ⟨(id, stored), by simp, if_pos rfl⟩
        · exact ⟨entry, hentry, if_neg hid⟩

end A2aAgentLayer.Lib.EntityTable
