import Mathlib.Data.List.Sort
import A2aAgentLayer.Lib.JsonText

/-!
# Own properties and `JSON.stringify`

A program enumerates the own properties of an object in a fixed order: keys that spell an array
index come first, in ascending numeric order, and the other keys follow in the order of their
creation (`ownOrder`).  Properties that stand in this order (`Enumerated`) keep it.
`JSON.stringify` prints that enumeration (`stringify`).  Two values with one text are the same up to
key order.

Two objects that are the same up to key order give the same answer to every lookup (`same_lookup`).

`assign` is the effect of `props[key] = value` on a plain object.  Its prototype has an accessor
named `__proto__`, so that key alone creates no own property: the setter changes the prototype at
most.  `Optional` is the value of an optional property: absent, `null` or present.
-/

namespace A2aAgentLayer.Lib.JsObject

open A2aAgentLayer.Lib.Utf16 A2aAgentLayer.Lib.JsonTree A2aAgentLayer.Lib.JsonText

variable {α : Type*}

/-! ### The order of own properties -/

/-- The array index a key spells: the decimal text of a number below `2³² - 1`. -/
def arrayIndex (key : JsString) : Option ℕ :=
  if natText (readNat key) = key ∧ readNat key < 4294967295 then some (readNat key) else none

/-- The order in which own properties are enumerated. -/
def ownOrder (props : List (JsString × α)) : List (JsString × α) :=
  (props.filter fun p => (arrayIndex p.1).isSome).insertionSort
      (fun p q => (arrayIndex p.1).getD 0 ≤ (arrayIndex q.1).getD 0)
    ++ props.filter fun p => !(arrayIndex p.1).isSome

theorem ownOrder_perm (props : List (JsString × α)) : (ownOrder props).Perm props :=
  ((List.perm_insertionSort _ _).append_right _).trans (List.filter_append_perm _ props)

/-- Properties none of which is named like an array index are enumerated as they were created. -/
theorem ownOrder_of_named {props : List (JsString × α)}
    (h : ∀ key ∈ props.map Prod.fst, arrayIndex key = none) : ownOrder props = props := by
  have hnone : props.filter (fun p => (arrayIndex p.1).isSome) = [] :=
    List.filter_eq_nil_iff.mpr fun p hp => by simp [h p.1 (List.mem_map_of_mem hp)]
  have hall : props.filter (fun p => !(arrayIndex p.1).isSome) = props :=
    List.filter_eq_self.mpr fun p hp => by simp [h p.1 (List.mem_map_of_mem hp)]
  rw [ownOrder, hnone, hall]
  rfl

/-- Array indices come first and in ascending order. -/
def Enumerated (props : List (JsString × α)) : Prop :=
  props.Pairwise fun p q => ∀ j, arrayIndex q.1 = some j → ∃ i ≤ j, arrayIndex p.1 = some i

theorem enumerated_ownOrder (props : List (JsString × α)) : Enumerated (ownOrder props) := by
  let r : JsString × α → JsString × α → Prop := fun p q =>
    (arrayIndex p.1).getD 0 ≤ (arrayIndex q.1).getD 0
  have : Std.Total r := ⟨fun _ _ => le_total _ _⟩
  have : IsTrans _ r := ⟨fun _ _ _ => le_trans⟩
  have hindex : ∀ p ∈ (props.filter fun p => (arrayIndex p.1).isSome).insertionSort r,
      ∃ i, arrayIndex p.1 = some i := by
    intro p hp
    have hmem := (List.perm_insertionSort r _).mem_iff.mp hp
    exact Option.isSome_iff_exists.mp (List.mem_filter.mp hmem).2
  have hnamed : ∀ p ∈ props.filter fun p => !(arrayIndex p.1).isSome, arrayIndex p.1 = none := by
    intro p hp
    simpa using (List.mem_filter.mp hp).2
  refine List.pairwise_append.mpr ⟨?_, ?_, ?_⟩
  · refine (List.pairwise_insertionSort r _).imp_of_mem fun {p q} hp _ hle j hj => ?_
    obtain ⟨i, hi⟩ := hindex p hp
    simp only [r, hi, hj, Option.getD_some] at hle
    exact ⟨i, hle, hi⟩
  · refine List.pairwise_of_forall_mem_list fun p _ q hq j hj => ?_
    rw [hnamed q hq] at hj
    cases hj
  · intro p _ q hq j hj
    rw [hnamed q hq] at hj
    cases hj

theorem filter_append_of_enumerated {props : List (JsString × α)} (h : Enumerated props) :
    (props.filter fun p => (arrayIndex p.1).isSome)
      ++ props.filter (fun p => !(arrayIndex p.1).isSome) = props := by
  induction props with
  | nil => rfl
  | cons p props ih =>
      obtain ⟨hp, hprops⟩ := List.pairwise_cons.mp h
      cases hindex : arrayIndex p.1 with
      | some i =>
          rw [List.filter_cons_of_pos (by simp [hindex]),
            List.filter_cons_of_neg (by simp [hindex]), List.cons_append, ih hprops]
      | none =>
          -- behind a name there are only names
          have hnamed : ∀ q ∈ p :: props, arrayIndex q.1 = none := by
            rw [List.forall_mem_cons]
            refine ⟨hindex, fun q hq => Option.eq_none_iff_forall_not_mem.mpr fun j hj => ?_⟩
            obtain ⟨i, -, hi⟩ := hp q hq j hj
            rw [hindex] at hi
            cases hi
          rw [List.filter_eq_nil_iff.mpr fun q hq => by simp [hnamed q hq],
            List.filter_eq_self.mpr fun q hq => by simp [hnamed q hq], List.nil_append]

/-- Properties that are enumerated already keep their places. -/
theorem ownOrder_of_enumerated {props : List (JsString × α)} (h : Enumerated props) :
    ownOrder props = props := by
  have hsorted : (props.filter fun p => (arrayIndex p.1).isSome).insertionSort
      (fun p q => (arrayIndex p.1).getD 0 ≤ (arrayIndex q.1).getD 0)
      = props.filter fun p => (arrayIndex p.1).isSome := by
    refine List.Pairwise.insertionSort_eq (List.pairwise_filter.mpr (h.imp ?_))
    intro p q hpq hp hq
    obtain ⟨j, hj⟩ := Option.isSome_iff_exists.mp hq
    obtain ⟨i, hle, hi⟩ := hpq j hj
    rw [hi, hj]
    exact hle
  rw [ownOrder, hsorted, filter_append_of_enumerated h]

mutual

/-- A value with the members of every object in enumeration order. -/
def inOrder : Json → Json
  | .arr elements => .arr (inOrderElements elements)
  | .obj members => .obj (ownOrder (inOrderMembers members))
  | .null => .null
  | .bool b => .bool b
  | .num x => .num x
  | .str s => .str s

def inOrderElements : List Json → List Json
  | [] => []
  | v :: rest => inOrder v :: inOrderElements rest

def inOrderMembers : List (JsString × Json) → List (JsString × Json)
  | [] => []
  | (k, v) :: rest => (k, inOrder v) :: inOrderMembers rest

end

theorem inOrder_arr (elements : List Json) :
    inOrder (.arr elements) = .arr (elements.map inOrder) := by
  have hmap : ∀ vs, inOrderElements vs = vs.map inOrder := by
    intro vs
    induction vs with
    | nil => rfl
    | cons v vs ih => rw [inOrderElements, ih, List.map_cons]
  rw [inOrder, hmap]

theorem inOrder_obj (members : List (JsString × Json)) :
    inOrder (.obj members) = .obj (ownOrder (members.map fun m => (m.1, inOrder m.2))) := by
  have hmap : ∀ ms, inOrderMembers ms = ms.map fun m => (m.1, inOrder m.2) := by
    intro ms
    induction ms with
    | nil => rfl
    | cons m ms ih => rw [inOrderMembers, ih, List.map_cons]
  rw [inOrder, hmap]

/-- An object whose members were replaced by the same values and rearranged is the same. -/
theorem same_rearranged {members sorted : List (JsString × Json)} {f : Json → Json}
    (hperm : sorted.Perm (members.map fun m => (m.1, f m.2)))
    (h : ∀ m ∈ members, SameUpToKeyOrder m.2 (f m.2)) :
    SameUpToKeyOrder (.obj members) (.obj sorted) := by
  refine (same_obj members sorted).mpr ⟨?_, fun m hm => ?_⟩
  · have hkeys := hperm.map Prod.fst
    rw [List.map_map] at hkeys
    exact hkeys.symm
  · exact ⟨f m.2, hperm.mem_iff.mpr (List.mem_map_of_mem hm), h m hm⟩

/-- Putting members in order changes nothing but their order. -/
theorem same_inOrder (j : Json) : SameUpToKeyOrder j (inOrder j) := by
  induction j using Json.induction with
  | null => exact same_refl _
  | bool b => exact same_refl _
  | num x => exact same_refl _
  | str s => exact same_refl _
  | arr elements ih =>
      rw [inOrder_arr, same_arr, List.forall₂_map_right_iff]
      exact List.forall₂_same.mpr ih
  | obj members ih =>
      rw [inOrder_obj]
      exact same_rearranged (ownOrder_perm _) ih

/-! ### `JSON.stringify` -/

/-- `JSON.stringify(value)`. -/
def stringify (j : Json) : JsString := serialize (inOrder j)

theorem wellFormed_stringify (j : Json) : wellFormed (stringify j) = true :=
  wellFormed_serialize (inOrder j)

/-- **Values with one text are the same up to key order.** -/
theorem same_of_stringify_eq {a b : Json} (hb : b.UniqueKeys) (h : stringify a = stringify b) :
    SameUpToKeyOrder a b := by
  have hback := same_symm hb (same_inOrder b)
  rw [← serialize_inj h] at hback
  exact same_trans (same_inOrder a) hback

/-! ### Reading and assigning properties -/

theorem lookup_of_mem {props : List (JsString × α)} {m : JsString × α}
    (hnd : (props.map Prod.fst).Nodup) (hm : m ∈ props) : props.lookup m.1 = some m.2 := by
  induction props with
  | nil => cases hm
  | cons p props ih =>
      obtain ⟨hnot, hnd⟩ := List.nodup_cons.mp hnd
      rcases List.mem_cons.mp hm with rfl | hm
      · rw [List.lookup_cons, beq_self_eq_true]
      · have hne : m.1 ≠ p.1 := fun heq => hnot (heq ▸ List.mem_map_of_mem hm)
        have hbeq : (m.1 == p.1) = false := by simpa using hne
        rw [List.lookup_cons, hbeq]
        exact ih hnd hm

theorem lookup_of_notMem {props : List (JsString × α)} {key : JsString}
    (h : key ∉ props.map Prod.fst) : props.lookup key = none := by
  rw [List.lookup_eq_none_iff]
  intro p hp
  have hne : key ≠ p.1 := fun heq => h (heq ▸ List.mem_map_of_mem hp)
  simpa using hne

/-- `props[key]` for an own key. -/
def readProperty (props : List (JsString × Json)) (key : JsString) : Json :=
  (props.lookup key).getD .null

theorem readProperty_of_mem {props : List (JsString × Json)} {m : JsString × Json}
    (hnd : (props.map Prod.fst).Nodup) (hm : m ∈ props) : readProperty props m.1 = m.2 := by
  rw [readProperty, lookup_of_mem hnd hm, Option.getD_some]

/-- Objects that are the same up to key order answer every lookup alike. -/
theorem same_lookup {ms ns : List (JsString × Json)} (hm : (ms.map Prod.fst).Nodup)
    (hn : (ns.map Prod.fst).Nodup) (h : SameUpToKeyOrder (.obj ms) (.obj ns)) (key : JsString) :
    Option.Rel SameUpToKeyOrder (ms.lookup key) (ns.lookup key) := by
  obtain ⟨hkeys, hmem⟩ := (same_obj ms ns).mp h
  by_cases hkey : key ∈ ms.map Prod.fst
  · obtain ⟨m, hmm, rfl⟩ := List.mem_map.mp hkey
    obtain ⟨w, hw, hsame⟩ := hmem m hmm
    rw [lookup_of_mem hm hmm, lookup_of_mem hn hw]
    exact .some hsame
  · have hkey' : key ∉ ns.map Prod.fst := fun hk => hkey (hkeys.mem_iff.mpr hk)
    rw [lookup_of_notMem hkey, lookup_of_notMem hkey']
    exact .none

def protoKey : JsString := js "__proto__"

/-- `props[key] = value` on a plain object. -/
def assign (props : List (JsString × α)) (key : JsString) (value : α) : List (JsString × α) :=
  if key = protoKey then props
  else if key ∈ props.map Prod.fst then
    props.map fun p => if p.1 = key then (key, value) else p
  else props ++ [(key, value)]

/-- Assigning members with distinct new keys in turn appends them, without `__proto__`. -/
theorem foldl_assign_members (members props : List (JsString × α))
    (hnd : (members.map Prod.fst).Nodup)
    (hnew : ∀ k ∈ members.map Prod.fst, k ∉ props.map Prod.fst) :
    members.foldl (fun acc m => assign acc m.1 m.2) props
      = props ++ members.filter (·.1 ≠ protoKey) := by
  induction members generalizing props with
  | nil => simp
  | cons m members ih =>
      obtain ⟨hm, hnd⟩ := List.nodup_cons.mp hnd
      rw [List.map_cons, List.forall_mem_cons] at hnew
      rw [List.foldl_cons]
      by_cases hproto : m.1 = protoKey
      · rw [assign, if_pos hproto, ih props hnd hnew.2, List.filter_cons_of_neg (by simpa)]
      · rw [assign, if_neg hproto, if_neg hnew.1, ih _ hnd, List.filter_cons_of_pos (by simpa)]
        · simp
        · intro j hj
          have hjm : j ≠ m.1 := fun heq => hm (heq ▸ hj)
          simpa [hjm] using hnew.2 j hj

/-- The same for keys whose values are computed. -/
theorem foldl_assign (value : JsString → α) (keys : List JsString) (props : List (JsString × α))
    (hnd : keys.Nodup) (hnew : ∀ k ∈ keys, k ∉ props.map Prod.fst) :
    keys.foldl (fun acc key => assign acc key (value key)) props
      = props ++ (keys.filter (· ≠ protoKey)).map fun k => (k, value k) := by
  have hkeys : (keys.map fun k => (k, value k)).map Prod.fst = keys := by
    rw [List.map_map]
    exact List.map_id keys
  have h := foldl_assign_members (keys.map fun k => (k, value k)) props (by rwa [hkeys])
    (by rwa [hkeys])
  rw [List.foldl_map, List.filter_map] at h
  exact h

/-- The value of an optional property. -/
inductive Optional (α : Type*) where
  | undefined
  | null
  | value (a : α)
  deriving DecidableEq

/-- `...(value !== undefined ? { key: value } : {})` in an object literal. -/
def unlessUndefined (key : JsString) : Optional JsString → List (JsString × Json)
  | .undefined => []
  | .null => [(key, .null)]
  | .value s => [(key, .str s)]

theorem keys_unlessUndefined (key : JsString) (value : Optional JsString) :
    ((unlessUndefined key value).map Prod.fst).Sublist [key] := by
  cases value with
  | undefined => exact List.nil_sublist _
  | null => exact List.Sublist.refl _
  | value s => exact List.Sublist.refl _

theorem uniqueKeys_unlessUndefined {key : JsString} {value : Optional JsString} :
    ∀ m ∈ unlessUndefined key value, m.2.UniqueKeys := by
  intro m hm
  cases value with
  | undefined => cases hm
  | null =>
      obtain rfl := List.mem_singleton.mp hm
      trivial
  | value s =>
      obtain rfl := List.mem_singleton.mp hm
      trivial

end A2aAgentLayer.Lib.JsObject
