import A2aAgentLayer.Lib.JsObject

/-!
# Objects in a `jsonb` column

A `jsonb` column does not keep the order in which the members of an object were written.  It orders
them by the length of their keys in UTF-8 and keys of one length bytewise, at every depth; the
values stay what they are (`same_jsonb`).
-/

namespace A2aAgentLayer.Lib.Jsonb

open A2aAgentLayer.Lib.Utf16 A2aAgentLayer.Lib.JsonTree A2aAgentLayer.Lib.JsObject

variable {α : Type*}

/-- What keys are compared by: the number of bytes, then the bytes. -/
def sortKey (key : JsString) : List ℕ :=
  let bytes := (utf8Encode key).toList
  bytes.length :: bytes.map UInt8.toNat

/-- The order of the members of an object. -/
def columnOrder (members : List (JsString × α)) : List (JsString × α) :=
  members.insertionSort fun m n => sortKey m.1 ≤ sortKey n.1

theorem columnOrder_perm (members : List (JsString × α)) : (columnOrder members).Perm members :=
  List.perm_insertionSort _ members

/-- Members listed by strictly increasing keys are in the order of the column. -/
theorem columnOrder_eq {members sorted : List (JsString × α)} (hperm : members.Perm sorted)
    (hsorted : (sorted.map fun m => sortKey m.1).Pairwise (· < ·)) :
    columnOrder members = sorted := by
  have : Std.Total fun m n : JsString × α => sortKey m.1 ≤ sortKey n.1 := ⟨fun _ _ => le_total _ _⟩
  have : IsTrans (JsString × α) fun m n => sortKey m.1 ≤ sortKey n.1 := ⟨fun _ _ _ => le_trans⟩
  have hboth : (columnOrder members).Perm sorted := (columnOrder_perm members).trans hperm
  have hnodup : (sorted.map fun m => sortKey m.1).Nodup := hsorted.imp fun h => h.ne
  refine List.Perm.eq_of_pairwise (fun m n hm hn hmn hnm => ?_)
    (List.pairwise_insertionSort (fun m n => sortKey m.1 ≤ sortKey n.1) members)
    ((List.pairwise_map.mp hsorted).imp fun h => h.le) hboth
  exact List.inj_on_of_nodup_map hnodup (hboth.mem_iff.mp hm) hn (le_antisymm hmn hnm)

mutual

/-- A value as the column returns it. -/
def jsonb : Json → Json
  | .arr elements => .arr (jsonbElements elements)
  | .obj members => .obj (columnOrder (jsonbMembers members))
  | .null => .null
  | .bool b => .bool b
  | .num x => .num x
  | .str s => .str s

def jsonbElements : List Json → List Json
  | [] => []
  | v :: rest => jsonb v :: jsonbElements rest

def jsonbMembers : List (JsString × Json) → List (JsString × Json)
  | [] => []
  | (k, v) :: rest => (k, jsonb v) :: jsonbMembers rest

end

theorem jsonb_arr (elements : List Json) : jsonb (.arr elements) = .arr (elements.map jsonb) := by
  have hmap : ∀ vs, jsonbElements vs = vs.map jsonb := by
    intro vs
    induction vs with
    | nil => rfl
    | cons v vs ih => rw [jsonbElements, ih, List.map_cons]
  rw [jsonb, hmap]

theorem jsonb_obj (members : List (JsString × Json)) :
    jsonb (.obj members) = .obj (columnOrder (members.map fun m => (m.1, jsonb m.2))) := by
  have hmap : ∀ ms, jsonbMembers ms = ms.map fun m => (m.1, jsonb m.2) := by
    intro ms
    induction ms with
    | nil => rfl
    | cons m ms ih => rw [jsonbMembers, ih, List.map_cons]
  rw [jsonb, hmap]

/-- **The values come back.** -/
theorem same_jsonb (j : Json) : SameUpToKeyOrder j (jsonb j) := by
  induction j using Json.induction with
  | null => exact same_refl _
  | bool b => exact same_refl _
  | num x => exact same_refl _
  | str s => exact same_refl _
  | arr elements ih =>
      rw [jsonb_arr, same_arr, List.forall₂_map_right_iff]
      exact List.forall₂_same.mpr ih
  | obj members ih =>
      rw [jsonb_obj]
      exact same_rearranged (columnOrder_perm _) ih

end A2aAgentLayer.Lib.Jsonb
