import Mathlib.Algebra.BigOperators.Group.List.Basic
import Mathlib.Data.Int.Notation
import Mathlib.Data.List.AList
import Mathlib.Data.Set.Card

/-!
# Keyed stores that forget

A keyed store is Mathlib's association list without duplicate keys: it stands for an in-memory map
and for a table with a unique key.  Three operations are added to `insert` and `lookup`: `evict`
drops every entry whose value meets a test, `insertAll` writes a list of entries in order, and both
come with the lookup they leave behind.  `sum_selected` adds up entries that hold sums of groups.

A store that is evicted as time passes may forget an entry once it is dead.  `Remembered` is what it
can still promise about a key: an entry of the wanted kind is there, or such an entry would be dead
by now.  Evictions and writes of the wanted kind keep that promise.

`Recalls` is the exact form of it: the live entries of the store are the live part of a history of
writes.  Evictions keep that, and so do writes to absent keys; an evicted store then has one entry
for each key with a live write (`Recalls.encard_keys`).
-/

namespace A2aAgentLayer.Lib.KeyedStore

variable {κ ν : Type*} [DecidableEq κ]

/-- A map from keys to values with at most one entry for each key. -/
abbrev Store (κ ν : Type*) := AList (fun _ : κ => ν)

/-- The entries of a filtered association list are those that pass. -/
theorem dlookup_filter (p : ν → Bool) (k : κ) (l : List (Sigma fun _ : κ => ν))
    (h : l.NodupKeys) :
    (l.filter fun e => p e.2).dlookup k = (l.dlookup k).filter p := by
  induction l with
  | nil => rfl
  | cons e l ih =>
      obtain ⟨k', v⟩ := e
      obtain ⟨hnot, hl⟩ := List.nodupKeys_cons.mp h
      by_cases hk : k = k'
      · subst hk
        have habs : l.dlookup k = none := List.dlookup_eq_none.mpr hnot
        cases hp : p v with
        | true => simp [Option.filter, hp]
        | false => simp [Option.filter, hp, ih hl, habs]
      · rw [List.dlookup_cons_ne _ _ hk, ← ih hl, List.filter_cons]
        split
        · exact List.dlookup_cons_ne _ _ hk
        · rfl

/-- Drop every entry whose value is dead. -/
def evict (dead : ν → Bool) (m : Store κ ν) : Store κ ν where
  entries := m.entries.filter fun e => !dead e.2
  nodupKeys := m.nodupKeys.sublist List.filter_sublist

@[simp] theorem lookup_evict (dead : ν → Bool) (m : Store κ ν) (k : κ) :
    (evict dead m).lookup k = (m.lookup k).filter fun v => !dead v :=
  dlookup_filter (fun v => !dead v) k m.entries m.nodupKeys

/-- An entry survives an eviction exactly when its value is not dead. -/
theorem lookup_evict_eq_some {dead : ν → Bool} {m : Store κ ν} {k : κ} {v : ν} :
    (evict dead m).lookup k = some v ↔ m.lookup k = some v ∧ dead v = false := by
  rw [lookup_evict, Option.filter_eq_some_iff]
  simp

/-- A key that is absent after an eviction was absent before or had a dead value. -/
theorem lookup_evict_eq_none {dead : ν → Bool} {m : Store κ ν} {k : κ} :
    (evict dead m).lookup k = none ↔ ∀ v, m.lookup k = some v → dead v = true := by
  rw [lookup_evict, Option.filter_eq_none_iff]
  simp

theorem lookup_insert_self (k : κ) (v : ν) (m : Store κ ν) : (m.insert k v).lookup k = some v :=
  AList.lookup_insert m

theorem lookup_insert_of_ne {k k' : κ} (v : ν) (m : Store κ ν) (h : k ≠ k') :
    (m.insert k' v).lookup k = m.lookup k :=
  AList.lookup_insert_ne h

/-- Write the entries of a list one after another. -/
def insertAll (m : Store κ ν) (entries : List (κ × ν)) : Store κ ν :=
  entries.foldl (fun m e => m.insert e.1 e.2) m

/-- Keys outside the list keep their value. -/
theorem lookup_insertAll_of_notMem {k : κ} (m : Store κ ν) (entries : List (κ × ν))
    (h : k ∉ entries.map Prod.fst) : (insertAll m entries).lookup k = m.lookup k := by
  induction entries generalizing m with
  | nil => rfl
  | cons e entries ih =>
      simp only [List.map_cons, List.mem_cons, not_or] at h
      show (insertAll (m.insert e.1 e.2) entries).lookup k = m.lookup k
      rw [ih _ h.2, lookup_insert_of_ne _ _ h.1]

/-- When the keys of the list are distinct, each of them ends with the value the list gives it. -/
theorem lookup_insertAll_of_mem {k : κ} {v : ν} (m : Store κ ν) (entries : List (κ × ν))
    (hnd : (entries.map Prod.fst).Nodup) (h : (k, v) ∈ entries) :
    (insertAll m entries).lookup k = some v := by
  induction entries generalizing m with
  | nil => cases h
  | cons e entries ih =>
      obtain ⟨hnot, hnd⟩ := List.nodup_cons.mp hnd
      show (insertAll (m.insert e.1 e.2) entries).lookup k = some v
      rcases List.mem_cons.mp h with rfl | h
      · rw [lookup_insertAll_of_notMem _ _ hnot, lookup_insert_self]
      · exact ih _ hnd h

/-- **The last write wins.** -/
theorem lookup_insertAll_eq_some_iff {k : κ} {v : ν} (entries : List (κ × ν)) :
    (insertAll ∅ entries).lookup k = some v
      ↔ ∃ before after, entries = before ++ (k, v) :: after ∧ k ∉ after.map Prod.fst := by
  constructor
  · intro h
    induction entries using List.reverseRecOn with
    | nil => cases h
    | append_singleton entries e ih =>
        have hlast : insertAll ∅ (entries ++ [e]) = (insertAll ∅ entries).insert e.1 e.2 := by
          rw [insertAll, List.foldl_append]
          rfl
        rw [hlast] at h
        by_cases hk : k = e.1
        · subst hk
          rw [lookup_insert_self, Option.some.injEq] at h
          subst h
          exact ⟨entries, [], rfl, List.not_mem_nil⟩
        · rw [lookup_insert_of_ne _ _ hk] at h
          obtain ⟨before, after, rfl, hafter⟩ := ih h
          refine ⟨before, after ++ [e], by rw [List.append_assoc, List.cons_append], ?_⟩
          rw [List.map_append, List.mem_append, not_or]
          exact ⟨hafter, fun hmem => hk (List.mem_singleton.mp hmem)⟩
  · rintro ⟨before, after, rfl, hafter⟩
    have hsplit : insertAll ∅ (before ++ (k, v) :: after)
        = insertAll ((insertAll ∅ before).insert k v) after := by
      rw [insertAll, List.foldl_append]
      rfl
    rw [hsplit, lookup_insertAll_of_notMem _ _ hafter, lookup_insert_self]

/-- A key has a value after the writes if it had one or is written. -/
theorem isSome_lookup_insertAll {k : κ} (m : Store κ ν) (entries : List (κ × ν)) :
    ((insertAll m entries).lookup k).isSome = true
      ↔ (m.lookup k).isSome = true ∨ k ∈ entries.map Prod.fst := by
  induction entries generalizing m with
  | nil => simp [insertAll]
  | cons e entries ih =>
      show ((insertAll (m.insert e.1 e.2) entries).lookup k).isSome = true ↔ _
      rw [ih, List.map_cons, List.mem_cons]
      by_cases hk : k = e.1
      · subst hk
        simp
      · rw [lookup_insert_of_ne _ _ hk]
        simp [hk]

/-! ### Sums by key -/

section Sums

variable {α M : Type*} [AddCommMonoid M] (key : α → κ) (g : α → M)

/-- **Summing group by group.**  When every element's key is listed once, the groups add up to the
whole. -/
theorem sum_groups {keys : List κ} (hkeys : keys.Nodup) (xs : List α)
    (hlisted : ∀ x ∈ xs, key x ∈ keys) :
    (keys.map fun k => ((xs.filter fun x => key x = k).map g).sum).sum = (xs.map g).sum := by
  induction xs with
  | nil => simp
  | cons x xs ih =>
      have hone : (keys.map fun k => if key x = k then g x else 0).sum = g x := by
        rw [List.sum_map_eq_nsmul_single (key x) _ fun k hk _ => if_neg (Ne.symm hk),
          List.count_eq_one_of_mem hkeys (hlisted x (List.mem_cons_self ..)), one_nsmul,
          if_pos rfl]
      have hsplit : ∀ k, (((x :: xs).filter fun x => key x = k).map g).sum
          = (if key x = k then g x else 0) + ((xs.filter fun x => key x = k).map g).sum := by
        intro k
        by_cases hk : key x = k
        · simp [hk]
        · simp [hk]
      simp only [hsplit, List.sum_map_add, hone, List.map_cons, List.sum_cons]
      rw [ih fun y hy => hlisted y (List.mem_cons_of_mem x hy)]

/-- **Summing a store against what it was filled from.**  When the selected entries hold the sums of
the groups of their keys, and every group with a selected key has its entry, the selected entries
add up to the sum of all elements with a selected key. -/
theorem sum_selected (m : Store κ ν) (f : ν → M) (selected : κ → Bool) (xs : List α)
    (hvalue : ∀ k v, selected k = true → m.lookup k = some v →
      f v = ((xs.filter fun x => key x = k).map g).sum)
    (hlisted : ∀ x ∈ xs, selected (key x) = true → ∃ v, m.lookup (key x) = some v) :
    ((m.entries.filter fun e => selected e.1).map fun e => f e.2).sum
      = ((xs.filter fun x => selected (key x)).map g).sum := by
  have hnodup : ((m.entries.filter fun e => selected e.1).map Sigma.fst).Nodup :=
    (m.nodupKeys.sublist List.filter_sublist :)
  rw [← sum_groups key g hnodup (xs.filter fun x => selected (key x)) fun x hx => ?_, List.map_map]
  · refine congrArg List.sum (List.map_congr_left fun e he => ?_)
    obtain ⟨hmem, hsel⟩ := List.mem_filter.mp he
    rw [hvalue e.1 e.2 hsel (List.mem_dlookup m.nodupKeys hmem), Function.comp_apply,
      List.filter_filter]
    refine congrArg (fun ys => (List.map g ys).sum) (List.filter_congr fun x _ => ?_)
    by_cases hx : key x = e.1
    · simp [hx, hsel]
    · simp [hx]
  · obtain ⟨hmem, hsel⟩ := List.mem_filter.mp hx
    obtain ⟨v, hv⟩ := hlisted x hmem hsel
    exact List.mem_map.mpr ⟨⟨key x, v⟩, List.mem_filter.mpr ⟨List.of_mem_dlookup hv, hsel⟩, rfl⟩

end Sums

/-! ### Remembering until death -/

section Remembered

variable (dead : ℤ → ν → Bool) (wanted : ν → Prop)

/-- The key has a wanted value, or a wanted value is dead by now. -/
def Remembered (m : Store κ ν) (k : κ) (now : ℤ) : Prop :=
  (∃ v, m.lookup k = some v ∧ wanted v) ∨ ∃ v, wanted v ∧ dead now v = true

variable {dead wanted}

theorem Remembered.later {m : Store κ ν} {k : κ} {now later : ℤ}
    (h : Remembered dead wanted m k now)
    (hdead : ∀ v, dead now v = true → dead later v = true) :
    Remembered dead wanted m k later :=
  h.imp_right fun ⟨v, hv, hd⟩ => ⟨v, hv, hdead v hd⟩

/-- **An eviction forgets a key only when its time has come.** -/
theorem Remembered.evict {m : Store κ ν} {k : κ} {now later : ℤ}
    (h : Remembered dead wanted m k now)
    (hdead : ∀ v, dead now v = true → dead later v = true) :
    Remembered dead wanted (evict (dead later) m) k later := by
  rcases h with ⟨v, hv, hwanted⟩ | ⟨v, hwanted, hd⟩
  · cases hv' : dead later v with
    | true => exact .inr ⟨v, hwanted, hv'⟩
    | false => exact .inl ⟨v, lookup_evict_eq_some.mpr ⟨hv, hv'⟩, hwanted⟩
  · exact .inr ⟨v, hwanted, hdead v hd⟩

theorem remembered_insert_self {m : Store κ ν} {k : κ} {v : ν} {now : ℤ} (hv : wanted v) :
    Remembered dead wanted (m.insert k v) k now :=
  .inl ⟨v, lookup_insert_self k v m, hv⟩

/-- Writing another key, or a wanted value, keeps a key in mind. -/
theorem Remembered.insert {m : Store κ ν} {k k' : κ} {v : ν} {now : ℤ}
    (h : Remembered dead wanted m k now) (hv : k = k' → wanted v) :
    Remembered dead wanted (m.insert k' v) k now := by
  by_cases hk : k = k'
  · subst hk
    exact remembered_insert_self (hv rfl)
  · exact h.imp_left fun ⟨w, hw, hwanted⟩ =>
      ⟨w, (lookup_insert_of_ne v m hk).trans hw, hwanted⟩

/-- A key that is remembered and absent had its time. -/
theorem Remembered.of_absent {m : Store κ ν} {k : κ} {now : ℤ}
    (h : Remembered dead wanted m k now) (habsent : m.lookup k = none) :
    ∃ v, wanted v ∧ dead now v = true := by
  rcases h with ⟨v, hv, -⟩ | h
  · rw [habsent] at hv
    cases hv
  · exact h

end Remembered

/-! ### The live part of a history -/

section Recalls

variable (dead : ℤ → ν → Bool)

/-- The live entries are the live part of the history. -/
def Recalls (m : Store κ ν) (history : Set (κ × ν)) (now : ℤ) : Prop :=
  ∀ k v, dead now v = false → (m.lookup k = some v ↔ (k, v) ∈ history)

variable {dead}

theorem recalls_empty (now : ℤ) : Recalls dead (∅ : Store κ ν) ∅ now := by
  intro k v _
  simp

theorem Recalls.later {m : Store κ ν} {history : Set (κ × ν)} {now later : ℤ}
    (h : Recalls dead m history now) (hdead : ∀ v, dead now v = true → dead later v = true) :
    Recalls dead m history later := by
  intro k v hv
  refine h k v ?_
  cases hnow : dead now v with
  | false => rfl
  | true => exact (hdead v hnow).symm.trans hv

/-- **An eviction drops nothing that is live.** -/
theorem Recalls.evict {m : Store κ ν} {history : Set (κ × ν)} {now : ℤ}
    (h : Recalls dead m history now) : Recalls dead (evict (dead now) m) history now := by
  intro k v hv
  rw [lookup_evict_eq_some, h k v hv, and_iff_left hv]

/-- A write to a key without a live entry adds to the history. -/
theorem Recalls.insert {m : Store κ ν} {history : Set (κ × ν)} {now : ℤ} {k : κ} {v : ν}
    (h : Recalls dead m history now) (habsent : m.lookup k = none) :
    Recalls dead (m.insert k v) (insert (k, v) history) now := by
  intro k' v' hv'
  rw [Set.mem_insert_iff, ← h k' v' hv', Prod.mk.injEq]
  by_cases hk : k' = k
  · subst hk
    rw [lookup_insert_self, habsent, Option.some.injEq]
    simp [eq_comm]
  · rw [lookup_insert_of_ne v m hk]
    simp [hk]

/-- What an evicted store has under a key is the live write to it. -/
theorem Recalls.lookup_evict_isSome {m : Store κ ν} {history : Set (κ × ν)} {now : ℤ}
    (h : Recalls dead m history now) (k : κ) :
    ((KeyedStore.evict (dead now) m).lookup k).isSome = true
      ↔ ∃ v, (k, v) ∈ history ∧ dead now v = false := by
  rw [Option.isSome_iff_exists]
  refine exists_congr fun v => ?_
  rw [lookup_evict_eq_some]
  constructor
  · rintro ⟨hv, hlive⟩
    exact ⟨(h k v hlive).mp hv, hlive⟩
  · rintro ⟨hv, hlive⟩
    exact ⟨(h k v hlive).mpr hv, hlive⟩

/-- **An evicted store has one entry for each key with a live write.** -/
theorem Recalls.encard_keys {m : Store κ ν} {history : Set (κ × ν)} {now : ℤ}
    (h : Recalls dead m history now) :
    {k | ∃ v, (k, v) ∈ history ∧ dead now v = false}.encard
      = (KeyedStore.evict (dead now) m).entries.length := by
  have hkeys : {k | ∃ v, (k, v) ∈ history ∧ dead now v = false}
      = ((KeyedStore.evict (dead now) m).keys.toFinset : Set κ) := by
    ext k
    rw [Set.mem_ofPred_eq, ← h.lookup_evict_isSome k, AList.lookup_isSome, AList.mem_keys,
      List.coe_toFinset, Set.mem_ofPred_eq]
  rw [hkeys, Set.encard_coe_eq_coe_finsetCard,
    List.toFinset_card_of_nodup (KeyedStore.evict (dead now) m).keys_nodup, AList.keys,
    List.keys, List.length_map]

end Recalls

end A2aAgentLayer.Lib.KeyedStore
