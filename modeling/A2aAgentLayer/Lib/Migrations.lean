import Mathlib.Data.List.Basic
import Mathlib.Data.List.Nodup
import Mathlib.Data.List.TakeDrop

/-!
# Migrations

A list of migrations, each with a way up and a way down, and a store that remembers by name which of
them it has been through.  Running the pending ones is one transaction, reverting the latest is
another; one that fails is rolled back.  Where every migration leads from its level to the next
(`Levels`), a history of runs, reverts and writes leaves the store at one of the levels, and what it
remembers are the migrations up to there.

Nothing here depends on what a store holds.
-/

namespace A2aAgentLayer.Lib.Migrations

variable {ν σ ω : Type*} [DecidableEq ν]

structure Migration (ν σ : Type*) where
  name : ν
  up : σ → Option σ
  down : σ → Option σ

@[ext] structure Migrated (ν σ : Type*) where
  executed : List ν
  db : σ

omit [DecidableEq ν] in
def Migrated.execute (s : Migrated ν σ) (m : Migration ν σ) : Option (Migrated ν σ) :=
  (m.up s.db).map fun db => ⟨s.executed ++ [m.name], db⟩

variable (migrations : List (Migration ν σ)) (write : σ → ω → σ)

/-- The pending migrations, all or none. -/
def runPending (s : Migrated ν σ) : Option (Migrated ν σ) :=
  (migrations.filter fun m => decide (m.name ∉ s.executed)).foldlM Migrated.execute s

/-- The way down of the latest migration that has been executed. -/
def revertLast (s : Migrated ν σ) : Option (Migrated ν σ) :=
  match (migrations.filter fun m => decide (m.name ∈ s.executed)).getLast? with
  | none => some s
  | some m => (m.down s.db).map fun db => ⟨s.executed.erase m.name, db⟩

inductive Event (ω : Type*) where
  | run
  | revert
  | write (w : ω)

def step (s : Migrated ν σ) : Event ω → Migrated ν σ
  | .run => (runPending migrations s).getD s
  | .revert => (revertLast migrations s).getD s
  | .write w => { s with db := write s.db w }

def history (db : σ) (es : List (Event ω)) : Migrated ν σ :=
  es.foldl (step migrations write) ⟨[], db⟩

/-! ### Levels -/

/-- Migration `k` leads from level `k` to the next one and back. -/
structure Levels (Level : ℕ → σ → Prop) : Prop where
  names : (migrations.map Migration.name).Nodup
  up : ∀ k m db, migrations[k]? = some m → Level k db →
    ∃ after, m.up db = some after ∧ Level (k + 1) after
  down : ∀ k m db after, migrations[k]? = some m → Level (k + 1) db → m.down db = some after →
    Level k after

/-- The first `k` migrations have been executed. -/
structure AtLevel (Level : ℕ → σ → Prop) (k : ℕ) (s : Migrated ν σ) : Prop where
  le : k ≤ migrations.length
  executed : s.executed = (migrations.take k).map Migration.name
  level : Level k s.db

variable {migrations} {write} {Level : ℕ → σ → Prop}

/-- What has been executed, and what is pending. -/
theorem filter_executed (hnames : (migrations.map Migration.name).Nodup) (k : ℕ) :
    let executed := (migrations.take k).map Migration.name
    (migrations.filter fun m => decide (m.name ∈ executed)) = migrations.take k
      ∧ (migrations.filter fun m => decide (m.name ∉ executed)) = migrations.drop k := by
  intro executed
  have hpending : ∀ m ∈ migrations.drop k, m.name ∉ executed := by
    intro m hm hmem
    rw [← List.take_append_drop k migrations, List.map_append] at hnames
    exact List.disjoint_of_nodup_append hnames hmem (List.mem_map_of_mem hm)
  have htake : ∀ m ∈ migrations.take k, m.name ∈ executed := fun m hm => List.mem_map_of_mem hm
  have hsplit : ∀ test : Migration ν σ → Bool, migrations.filter test
      = (migrations.take k).filter test ++ (migrations.drop k).filter test := by
    intro test
    rw [← List.filter_append, List.take_append_drop]
  constructor
  · rw [hsplit, List.filter_eq_self.mpr fun m hm => decide_eq_true (htake m hm),
      List.filter_eq_nil_iff.mpr fun m hm => by simpa using hpending m hm, List.append_nil]
  · rw [hsplit, List.filter_eq_nil_iff.mpr fun m hm => by simpa using htake m hm,
      List.filter_eq_self.mpr fun m hm => decide_eq_true (hpending m hm), List.nil_append]

omit [DecidableEq ν] in
/-- Executing what is left, from any level on. -/
theorem execute_rest (h : Levels migrations Level) {rest : List (Migration ν σ)} {k : ℕ}
    (hrest : rest = migrations.drop k) {s : Migrated ν σ} (hs : AtLevel migrations Level k s) :
    ∃ t, rest.foldlM Migrated.execute s = some t
      ∧ AtLevel migrations Level migrations.length t := by
  induction rest generalizing k s with
  | nil =>
      have hlength : k = migrations.length :=
        Nat.le_antisymm hs.le (List.drop_eq_nil_iff.mp hrest.symm)
      exact ⟨s, rfl, hlength ▸ hs⟩
  | cons m rest ih =>
      have hk : k < migrations.length := by
        by_contra hge
        rw [List.drop_of_length_le (Nat.not_lt.mp hge)] at hrest
        cases hrest
      obtain ⟨rfl, hmore⟩ := List.cons.inj (hrest.trans (List.drop_eq_getElem_cons hk))
      obtain ⟨db, hup, hlevel⟩ := h.up k _ s.db (List.getElem?_eq_getElem hk) hs.level
      have hnext : AtLevel migrations Level (k + 1) ⟨s.executed ++ [migrations[k].name], db⟩ := by
        refine ⟨hk, ?_, hlevel⟩
        rw [List.take_succ_eq_append_getElem hk, List.map_append, hs.executed]
        rfl
      obtain ⟨t, ht, hat⟩ := ih hmore hnext
      refine ⟨t, ?_, hat⟩
      rw [List.foldlM_cons, Migrated.execute, hup]
      exact ht

/-- **Running what is pending never fails, and ends at the last level.** -/
theorem runPending_atLevel (h : Levels migrations Level) {k : ℕ} {s : Migrated ν σ}
    (hs : AtLevel migrations Level k s) :
    ∃ t, runPending migrations s = some t ∧ AtLevel migrations Level migrations.length t := by
  obtain ⟨t, ht, hat⟩ := execute_rest h rfl hs
  refine ⟨t, ?_, hat⟩
  rw [runPending, hs.executed, (filter_executed h.names k).2, ht]

/-- When only the last migration is pending, a run is its way up. -/
theorem runPending_last (hnames : (migrations.map Migration.name).Nodup) {k : ℕ}
    {s : Migrated ν σ} (hs : AtLevel migrations Level k s) {m : Migration ν σ}
    (hm : migrations[k]? = some m) (hlast : migrations.length = k + 1) :
    runPending migrations s = (m.up s.db).map fun db => ⟨s.executed ++ [m.name], db⟩ := by
  obtain ⟨hk, rfl⟩ := List.getElem?_eq_some_iff.mp hm
  have hdrop : migrations.drop k = [migrations[k]] := by
    rw [List.drop_eq_getElem_cons hk, List.drop_of_length_le (Nat.le_of_eq hlast)]
  rw [runPending, hs.executed, (filter_executed hnames k).2, hdrop, List.foldlM_cons, ← hs.executed,
    Migrated.execute]
  cases migrations[k].up s.db <;> rfl

/-- Without a migration there is nothing to revert. -/
theorem revertLast_zero {s : Migrated ν σ} (hs : AtLevel migrations Level 0 s) :
    revertLast migrations s = some s := by
  have hnone : (migrations.filter fun m => decide (m.name ∈ s.executed)) = [] := by
    rw [hs.executed, List.filter_eq_nil_iff]
    simp
  rw [revertLast, hnone]
  rfl

/-- Reverting goes down by the migration that was executed last. -/
theorem revertLast_succ (h : Levels migrations Level) {k : ℕ} {s : Migrated ν σ}
    (hs : AtLevel migrations Level (k + 1) s) : ∃ m, migrations[k]? = some m
      ∧ revertLast migrations s
        = (m.down s.db).map fun db => ⟨(migrations.take k).map Migration.name, db⟩ := by
  have hk : k < migrations.length := hs.le
  have htake := List.take_succ_eq_append_getElem hk
  refine ⟨migrations[k], List.getElem?_eq_getElem hk, ?_⟩
  have hnotin : migrations[k].name ∉ (migrations.take k).map Migration.name := by
    intro hmem
    have hnodup := h.names.sublist ((List.take_sublist (k + 1) migrations).map Migration.name)
    rw [htake, List.map_append] at hnodup
    exact List.disjoint_of_nodup_append hnodup hmem (List.mem_singleton_self _)
  have hlast : (migrations.filter fun m => decide (m.name ∈ s.executed)).getLast?
      = some migrations[k] := by
    rw [hs.executed, (filter_executed h.names (k + 1)).1, htake, List.getLast?_concat]
  have herase : s.executed.erase migrations[k].name = (migrations.take k).map Migration.name := by
    rw [hs.executed, htake, List.map_append, List.map_singleton,
      List.erase_append_right _ hnotin, List.erase_cons_head, List.append_nil]
  rw [revertLast, hlast]
  simp only [herase]

theorem atLevel_step (h : Levels migrations Level)
    (hwrite : ∀ k db w, Level k db → Level k (write db w)) {k : ℕ} {s : Migrated ν σ}
    (hs : AtLevel migrations Level k s) (e : Event ω) :
    ∃ k', AtLevel migrations Level k' (step migrations write s e) := by
  cases e with
  | run =>
      obtain ⟨t, ht, hat⟩ := runPending_atLevel h hs
      refine ⟨migrations.length, ?_⟩
      rw [step, ht]
      exact hat
  | revert =>
      cases k with
      | zero =>
          refine ⟨0, ?_⟩
          rw [step, revertLast_zero hs]
          exact hs
      | succ k =>
          obtain ⟨m, hm, hrevert⟩ := revertLast_succ h hs
          rw [step, hrevert]
          cases hdown : m.down s.db with
          | none => exact ⟨k + 1, hs⟩
          | some db =>
              exact ⟨k, Nat.le_of_succ_le hs.le, rfl, h.down k m s.db db hm hs.level hdown⟩
  | write w => exact ⟨k, hs.le, hs.executed, hwrite k s.db w hs.level⟩

/-- **Every history ends at a level.** -/
theorem history_atLevel (h : Levels migrations Level)
    (hwrite : ∀ k db w, Level k db → Level k (write db w)) {db : σ} (hdb : Level 0 db)
    (es : List (Event ω)) :
    ∃ k, AtLevel migrations Level k (history migrations write db es) := by
  have hall : ∀ (es : List (Event ω)) (s : Migrated ν σ), (∃ k, AtLevel migrations Level k s) →
      ∃ k, AtLevel migrations Level k (es.foldl (step migrations write) s) := by
    intro es
    induction es with
    | nil => exact fun s hs => hs
    | cons e es ih =>
        rintro s ⟨k, hs⟩
        exact ih _ (atLevel_step h hwrite hs e)
  exact hall es _ ⟨0, Nat.zero_le _, rfl, hdb⟩

end A2aAgentLayer.Lib.Migrations
