import Mathlib.Data.List.Forall2
import Mathlib.Data.List.Nodup
import A2aAgentLayer.Lib.NumberText

/-!
# JSON values

A JSON value as a program holds it after parsing: an object is the list of its own properties in the
order they were created, keys are arbitrary strings.  A parser never creates one key twice in an
object (`UniqueKeys`, carried by `JsonValue`).  `SameUpToKeyOrder` is equality up to the order of
the properties at every depth; on values with unique keys it is an equivalence relation.
-/

namespace A2aAgentLayer.Lib.JsonTree

open A2aAgentLayer.Lib.Utf16 A2aAgentLayer.Lib.NumberText

inductive Json where
  | null
  | bool (b : Bool)
  | num (x : JsNumber)
  | str (s : JsString)
  | arr (elements : List Json)
  | obj (members : List (JsString × Json))

/-- Induction over the elements of arrays and the values of objects. -/
@[elab_as_elim]
theorem Json.induction {P : Json → Prop} (null : P .null) (bool : ∀ b, P (.bool b))
    (num : ∀ x, P (.num x)) (str : ∀ s, P (.str s))
    (arr : ∀ elements, (∀ v ∈ elements, P v) → P (.arr elements))
    (obj : ∀ members, (∀ m ∈ members, P m.2) → P (.obj members)) (j : Json) : P j :=
  Json.rec (motive_2 := fun elements => ∀ v ∈ elements, P v)
    (motive_3 := fun members => ∀ m ∈ members, P m.2) (motive_4 := fun m => P m.2)
    null bool num str arr obj (by simp) (fun _ _ hv hvs => by simpa using ⟨hv, hvs⟩)
    (by simp) (fun _ _ hm hms => by simpa using ⟨hm, fun k v h => hms (k, v) h⟩)
    (fun _ _ h => h) j

/-! ### Unique keys -/

mutual

/-- No object has one key twice, at any depth. -/
def Json.UniqueKeys : Json → Prop
  | .arr elements => elementsUnique elements
  | .obj members => (members.map Prod.fst).Nodup ∧ membersUnique members
  | _ => True

def elementsUnique : List Json → Prop
  | [] => True
  | v :: rest => v.UniqueKeys ∧ elementsUnique rest

def membersUnique : List (JsString × Json) → Prop
  | [] => True
  | (_, v) :: rest => v.UniqueKeys ∧ membersUnique rest

end

theorem elementsUnique_iff (elements : List Json) :
    elementsUnique elements ↔ ∀ v ∈ elements, v.UniqueKeys := by
  induction elements with
  | nil => simp [elementsUnique]
  | cons v rest ih => simp [elementsUnique, ih]

theorem membersUnique_iff (members : List (JsString × Json)) :
    membersUnique members ↔ ∀ m ∈ members, m.2.UniqueKeys := by
  induction members with
  | nil => simp [membersUnique]
  | cons m rest ih => simp [membersUnique, ih]

@[simp] theorem uniqueKeys_null : Json.null.UniqueKeys := trivial

@[simp] theorem uniqueKeys_bool (b : Bool) : (Json.bool b).UniqueKeys := trivial

@[simp] theorem uniqueKeys_num (x : JsNumber) : (Json.num x).UniqueKeys := trivial

@[simp] theorem uniqueKeys_str (s : JsString) : (Json.str s).UniqueKeys := trivial

@[simp] theorem uniqueKeys_arr (elements : List Json) :
    (Json.arr elements).UniqueKeys ↔ ∀ v ∈ elements, v.UniqueKeys :=
  elementsUnique_iff elements

@[simp] theorem uniqueKeys_obj (members : List (JsString × Json)) :
    (Json.obj members).UniqueKeys
      ↔ (members.map Prod.fst).Nodup ∧ ∀ m ∈ members, m.2.UniqueKeys := by
  rw [Json.UniqueKeys, membersUnique_iff]

/-- A value a parser can return. -/
structure JsonValue where
  tree : Json
  unique : tree.UniqueKeys

/-! ### Equality up to key order -/

mutual

/-- Equality up to the order of object keys at every depth. -/
def SameUpToKeyOrder : Json → Json → Prop
  | .null, .null => True
  | .bool b, .bool c => b = c
  | .num x, .num y => x = y
  | .str s, .str t => s = t
  | .arr xs, .arr ys => sameElements xs ys
  | .obj ms, .obj ns => (ms.map Prod.fst).Perm (ns.map Prod.fst) ∧ sameMembers ms ns
  | _, _ => False

def sameElements : List Json → List Json → Prop
  | [], [] => True
  | x :: xs, y :: ys => SameUpToKeyOrder x y ∧ sameElements xs ys
  | _, _ => False

/-- Every member of the first list has a partner of the same key in the second. -/
def sameMembers : List (JsString × Json) → List (JsString × Json) → Prop
  | [], _ => True
  | (k, v) :: ms, ns => (∃ w, (k, w) ∈ ns ∧ SameUpToKeyOrder v w) ∧ sameMembers ms ns

end

theorem sameElements_iff (xs ys : List Json) :
    sameElements xs ys ↔ List.Forall₂ SameUpToKeyOrder xs ys := by
  induction xs generalizing ys with
  | nil => cases ys <;> simp [sameElements]
  | cons x xs ih => cases ys <;> simp [sameElements, ih]

theorem sameMembers_iff (ms ns : List (JsString × Json)) :
    sameMembers ms ns ↔ ∀ m ∈ ms, ∃ w, (m.1, w) ∈ ns ∧ SameUpToKeyOrder m.2 w := by
  induction ms with
  | nil => simp [sameMembers]
  | cons m ms ih => simp [sameMembers, ih]

@[simp] theorem same_arr (xs ys : List Json) :
    SameUpToKeyOrder (.arr xs) (.arr ys) ↔ List.Forall₂ SameUpToKeyOrder xs ys :=
  sameElements_iff xs ys

@[simp] theorem same_obj (ms ns : List (JsString × Json)) :
    SameUpToKeyOrder (.obj ms) (.obj ns) ↔ (ms.map Prod.fst).Perm (ns.map Prod.fst) ∧
      ∀ m ∈ ms, ∃ w, (m.1, w) ∈ ns ∧ SameUpToKeyOrder m.2 w := by
  rw [SameUpToKeyOrder, sameMembers_iff]

/-! What a scalar, an array and an object are the same as. -/

theorem same_null_iff {j : Json} : SameUpToKeyOrder .null j ↔ j = .null := by
  cases j <;> simp [SameUpToKeyOrder]

theorem same_bool_iff {b : Bool} {j : Json} : SameUpToKeyOrder (.bool b) j ↔ j = .bool b := by
  cases j <;> simp [SameUpToKeyOrder, eq_comm]

theorem same_num_iff {x : JsNumber} {j : Json} : SameUpToKeyOrder (.num x) j ↔ j = .num x := by
  cases j <;> simp [SameUpToKeyOrder, eq_comm]

theorem same_str_iff {s : JsString} {j : Json} : SameUpToKeyOrder (.str s) j ↔ j = .str s := by
  cases j <;> simp [SameUpToKeyOrder, eq_comm]

theorem same_arr_iff {xs : List Json} {j : Json} : SameUpToKeyOrder (.arr xs) j ↔
    ∃ ys, j = .arr ys ∧ List.Forall₂ SameUpToKeyOrder xs ys := by
  cases j with
  | arr ys => simp
  | _ => simp [SameUpToKeyOrder]

theorem same_obj_iff {ms : List (JsString × Json)} {j : Json} : SameUpToKeyOrder (.obj ms) j ↔
    ∃ ns, j = .obj ns ∧ (ms.map Prod.fst).Perm (ns.map Prod.fst) ∧
      ∀ m ∈ ms, ∃ w, (m.1, w) ∈ ns ∧ SameUpToKeyOrder m.2 w := by
  cases j with
  | obj ns => simp
  | _ => simp [SameUpToKeyOrder]

theorem same_refl (j : Json) : SameUpToKeyOrder j j := by
  induction j using Json.induction with
  | null => trivial
  | bool b => rfl
  | num x => rfl
  | str s => rfl
  | arr elements ih => exact (same_arr _ _).mpr (List.forall₂_same.mpr ih)
  | obj members ih => exact (same_obj _ _).mpr ⟨.rfl, fun m hm => ⟨m.2, hm, ih m hm⟩⟩

theorem same_trans {a b c : Json} (hab : SameUpToKeyOrder a b) (hbc : SameUpToKeyOrder b c) :
    SameUpToKeyOrder a c := by
  induction a using Json.induction generalizing b c with
  | null =>
      obtain rfl := same_null_iff.mp hab
      exact hbc
  | bool x =>
      obtain rfl := same_bool_iff.mp hab
      exact hbc
  | num x =>
      obtain rfl := same_num_iff.mp hab
      exact hbc
  | str s =>
      obtain rfl := same_str_iff.mp hab
      exact hbc
  | arr xs ih =>
      obtain ⟨ys, rfl, hxy⟩ := same_arr_iff.mp hab
      obtain ⟨zs, rfl, hyz⟩ := same_arr_iff.mp hbc
      rw [same_arr]
      clear hab hbc
      induction hxy generalizing zs with
      | nil => exact hyz
      | cons hx _ ihs =>
          cases hyz with
          | cons hy hys =>
              rw [List.forall_mem_cons] at ih
              exact .cons (ih.1 hx hy) (ihs ih.2 _ hys)
  | obj ms ih =>
      obtain ⟨ns, rfl, hkeys, hmem⟩ := same_obj_iff.mp hab
      obtain ⟨os, rfl, hkeys', hmem'⟩ := same_obj_iff.mp hbc
      refine (same_obj _ _).mpr ⟨hkeys.trans hkeys', fun m hm => ?_⟩
      obtain ⟨w, hw, hmw⟩ := hmem m hm
      obtain ⟨x, hx, hwx⟩ := hmem' _ hw
      exact ⟨x, hx, ih m hm hmw hwx⟩

/-- When keys are unique, every member of the second object is the partner of one of the first. -/
theorem exists_partner {ms ns : List (JsString × Json)} (hms : (ms.map Prod.fst).Nodup)
    (hkeys : (ms.map Prod.fst).Perm (ns.map Prod.fst))
    (hmem : ∀ m ∈ ms, ∃ w, (m.1, w) ∈ ns ∧ SameUpToKeyOrder m.2 w) {n : JsString × Json}
    (hn : n ∈ ns) : ∃ m ∈ ms, m.1 = n.1 ∧ SameUpToKeyOrder m.2 n.2 := by
  obtain ⟨m, hm, hkey⟩ := List.mem_map.mp (hkeys.mem_iff.mpr (List.mem_map_of_mem hn))
  obtain ⟨w, hw, hmw⟩ := hmem m hm
  -- the partner of `m` has the key of `n`
  obtain rfl : (m.1, w) = n := List.inj_on_of_nodup_map (hkeys.nodup_iff.mp hms) hw hn hkey
  exact ⟨m, hm, rfl, hmw⟩

/-- A value that is the same as one with unique keys has unique keys. -/
theorem uniqueKeys_of_same {a b : Json} (ha : a.UniqueKeys) (hab : SameUpToKeyOrder a b) :
    b.UniqueKeys := by
  induction a using Json.induction generalizing b with
  | null =>
      obtain rfl := same_null_iff.mp hab
      exact ha
  | bool x =>
      obtain rfl := same_bool_iff.mp hab
      exact ha
  | num x =>
      obtain rfl := same_num_iff.mp hab
      exact ha
  | str s =>
      obtain rfl := same_str_iff.mp hab
      exact ha
  | arr xs ih =>
      obtain ⟨ys, rfl, hxy⟩ := same_arr_iff.mp hab
      rw [uniqueKeys_arr] at ha ⊢
      clear hab
      induction hxy with
      | nil => exact nofun
      | cons hx _ ihs =>
          rw [List.forall_mem_cons] at ha ih ⊢
          exact ⟨ih.1 ha.1 hx, ihs ih.2 ha.2⟩
  | obj ms ih =>
      obtain ⟨ns, rfl, hkeys, hmem⟩ := same_obj_iff.mp hab
      rw [uniqueKeys_obj] at ha ⊢
      refine ⟨hkeys.nodup_iff.mp ha.1, fun n hn => ?_⟩
      obtain ⟨m, hm, -, hmn⟩ := exists_partner ha.1 hkeys hmem hn
      exact ih m hm (ha.2 m hm) hmn

theorem same_symm {a b : Json} (ha : a.UniqueKeys) (hab : SameUpToKeyOrder a b) :
    SameUpToKeyOrder b a := by
  induction a using Json.induction generalizing b with
  | null =>
      obtain rfl := same_null_iff.mp hab
      exact hab
  | bool x =>
      obtain rfl := same_bool_iff.mp hab
      exact hab
  | num x =>
      obtain rfl := same_num_iff.mp hab
      exact hab
  | str s =>
      obtain rfl := same_str_iff.mp hab
      exact hab
  | arr xs ih =>
      obtain ⟨ys, rfl, hxy⟩ := same_arr_iff.mp hab
      rw [uniqueKeys_arr] at ha
      rw [same_arr]
      clear hab
      induction hxy with
      | nil => exact .nil
      | cons hx _ ihs =>
          rw [List.forall_mem_cons] at ha ih
          exact .cons (ih.1 ha.1 hx) (ihs ih.2 ha.2)
  | obj ms ih =>
      obtain ⟨ns, rfl, hkeys, hmem⟩ := same_obj_iff.mp hab
      rw [uniqueKeys_obj] at ha
      refine (same_obj _ _).mpr ⟨hkeys.symm, fun n hn => ?_⟩
      obtain ⟨m, hm, hkey, hmn⟩ := exists_partner ha.1 hkeys hmem hn
      exact ⟨m.2, hkey ▸ hm, ih m hm (ha.2 m hm) hmn⟩

end A2aAgentLayer.Lib.JsonTree
