import A2aAgentLayer.Lib.JsonTree

/-!
# Rewriting the strings of a value

`rewrite keep f` applies `f` to every string of a value and leaves out the members whose names
`keep` refuses, at every depth; the names themselves are not rewritten.  Two rewrites in a row are
one.  `Throughout` says of a value that its member names and its strings meet two conditions,
outside the members that are left out, and tells when a rewrite changes nothing but key order.
-/

namespace A2aAgentLayer.Lib.JsonRewrite

open A2aAgentLayer.Lib.Utf16 A2aAgentLayer.Lib.JsonTree

section Rewrite

variable (keep : JsString → Bool) (f : JsString → JsString)

mutual

def rewrite : Json → Json
  | .arr elements => .arr (rewriteElements elements)
  | .obj members => .obj (rewriteMembers members)
  | .str s => .str (f s)
  | .null => .null
  | .bool b => .bool b
  | .num x => .num x

def rewriteElements : List Json → List Json
  | [] => []
  | v :: rest => rewrite v :: rewriteElements rest

def rewriteMembers : List (JsString × Json) → List (JsString × Json)
  | [] => []
  | (k, v) :: rest =>
      if keep k then (k, rewrite v) :: rewriteMembers rest else rewriteMembers rest

end

theorem rewrite_arr (elements : List Json) :
    rewrite keep f (.arr elements) = .arr (elements.map (rewrite keep f)) := by
  have hmap : ∀ vs, rewriteElements keep f vs = vs.map (rewrite keep f) := by
    intro vs
    induction vs with
    | nil => rfl
    | cons v vs ih => rw [rewriteElements, ih, List.map_cons]
  rw [rewrite, hmap]

theorem rewrite_obj (members : List (JsString × Json)) :
    rewrite keep f (.obj members)
      = .obj ((members.filter fun m => keep m.1).map fun m => (m.1, rewrite keep f m.2)) := by
  have hmap : ∀ ms, rewriteMembers keep f ms
      = (ms.filter fun m => keep m.1).map fun m => (m.1, rewrite keep f m.2) := by
    intro ms
    induction ms with
    | nil => rfl
    | cons m ms ih =>
        rw [rewriteMembers]
        by_cases hm : keep m.1 = true
        · rw [if_pos hm, ih, List.filter_cons_of_pos (by exact hm), List.map_cons]
        · rw [if_neg hm, ih, List.filter_cons_of_neg (by exact hm)]
  rw [rewrite, hmap]

/-- The names of the members that remain. -/
theorem keys_rewrite (members : List (JsString × Json)) :
    ((members.filter fun m => keep m.1).map fun m => (m.1, rewrite keep f m.2)).map Prod.fst
      = (members.map Prod.fst).filter keep := by
  rw [List.map_map, List.filter_map]
  rfl

theorem uniqueKeys_rewrite {j : Json} (h : j.UniqueKeys) : (rewrite keep f j).UniqueKeys := by
  induction j using Json.induction with
  | null => trivial
  | bool b => trivial
  | num x => trivial
  | str s => trivial
  | arr elements ih =>
      rw [uniqueKeys_arr] at h
      rw [rewrite_arr, uniqueKeys_arr]
      intro v hv
      obtain ⟨w, hw, rfl⟩ := List.mem_map.mp hv
      exact ih w hw (h w hw)
  | obj members ih =>
      rw [uniqueKeys_obj] at h
      rw [rewrite_obj, uniqueKeys_obj, keys_rewrite]
      refine ⟨h.1.filter _, fun m hm => ?_⟩
      obtain ⟨n, hn, rfl⟩ := List.mem_map.mp hm
      have hn' := List.mem_of_mem_filter hn
      exact ih n hn' (h.2 n hn')

end Rewrite

/-- **Two rewrites in a row are one.** -/
theorem rewrite_rewrite (keep keep' : JsString → Bool) (f f' : JsString → JsString) (j : Json) :
    rewrite keep' f' (rewrite keep f j)
      = rewrite (fun k => keep' k && keep k) (fun s => f' (f s)) j := by
  induction j using Json.induction with
  | null => rfl
  | bool b => rfl
  | num x => rfl
  | str s => rfl
  | arr elements ih =>
      rw [rewrite_arr, rewrite_arr, rewrite_arr, List.map_map]
      congr 1
      exact List.map_congr_left ih
  | obj members ih =>
      have hkeep : ((fun m : JsString × Json => keep' m.1) ∘ fun m : JsString × Json =>
          (m.1, rewrite keep f m.2)) = fun m => keep' m.1 := rfl
      rw [rewrite_obj, rewrite_obj, rewrite_obj, List.filter_map, hkeep, List.filter_filter,
        List.map_map]
      congr 1
      refine List.map_congr_left fun m hm => ?_
      show (m.1, rewrite keep' f' (rewrite keep f m.2)) = _
      rw [ih m (List.mem_of_mem_filter hm)]

/-- A rewrite does not depend on key order. -/
theorem same_rewrite (keep : JsString → Bool) (f : JsString → JsString) {a b : Json}
    (ha : a.UniqueKeys) (h : SameUpToKeyOrder a b) :
    SameUpToKeyOrder (rewrite keep f a) (rewrite keep f b) := by
  induction a using Json.induction generalizing b with
  | null =>
      rw [same_null_iff.mp h]
      exact same_refl _
  | bool x =>
      rw [same_bool_iff.mp h]
      exact same_refl _
  | num x =>
      rw [same_num_iff.mp h]
      exact same_refl _
  | str s =>
      rw [same_str_iff.mp h]
      exact same_refl _
  | arr xs ih =>
      obtain ⟨ys, rfl, hxy⟩ := same_arr_iff.mp h
      rw [uniqueKeys_arr] at ha
      rw [rewrite_arr, rewrite_arr, same_arr, List.forall₂_map_left_iff,
        List.forall₂_map_right_iff]
      clear h
      induction hxy with
      | nil => exact .nil
      | cons hx _ ihs =>
          rw [List.forall_mem_cons] at ha ih
          exact .cons (ih.1 ha.1 hx) (ihs ih.2 ha.2)
  | obj ms ih =>
      obtain ⟨ns, rfl, hkeys, hmem⟩ := same_obj_iff.mp h
      rw [uniqueKeys_obj] at ha
      rw [rewrite_obj, rewrite_obj, same_obj, keys_rewrite, keys_rewrite]
      refine ⟨hkeys.filter _, fun m hm => ?_⟩
      obtain ⟨n, hn, rfl⟩ := List.mem_map.mp hm
      obtain ⟨hn, hkeep⟩ := List.mem_filter.mp hn
      obtain ⟨w, hw, hsame⟩ := hmem n hn
      exact ⟨rewrite keep f w,
        List.mem_map_of_mem (f := fun m => (m.1, rewrite keep f m.2))
          (List.mem_filter.mpr ⟨hw, hkeep⟩), ih n hn (ha.2 n hn) hsame⟩

/-! ### Conditions at every depth -/

section Throughout

variable (keep : JsString → Bool) (name text : JsString → Prop)

mutual

/-- Every string meets `text` and every member name `name`, apart from the members that `keep`
refuses and what is in them. -/
def Throughout : Json → Prop
  | .arr elements => throughoutElements elements
  | .obj members => throughoutMembers members
  | .str s => text s
  | .null => True
  | .bool _ => True
  | .num _ => True

def throughoutElements : List Json → Prop
  | [] => True
  | v :: rest => Throughout v ∧ throughoutElements rest

def throughoutMembers : List (JsString × Json) → Prop
  | [] => True
  | (k, v) :: rest => (keep k = true → name k ∧ Throughout v) ∧ throughoutMembers rest

end

theorem throughout_arr (elements : List Json) :
    Throughout keep name text (.arr elements) ↔ ∀ v ∈ elements, Throughout keep name text v := by
  rw [Throughout]
  induction elements with
  | nil => simp [throughoutElements]
  | cons v rest ih => rw [throughoutElements, ih, List.forall_mem_cons]

theorem throughout_obj (members : List (JsString × Json)) :
    Throughout keep name text (.obj members)
      ↔ ∀ m ∈ members, keep m.1 = true → name m.1 ∧ Throughout keep name text m.2 := by
  rw [Throughout]
  induction members with
  | nil => simp [throughoutMembers]
  | cons m rest ih => rw [throughoutMembers, ih, List.forall_mem_cons]

end Throughout

/-- **When a rewrite changes nothing but key order.**  Compared with the value that only lacks the
members `keep` refuses, a rewrite that refuses more of them is the same exactly when there are no
more of them and every string is left as it is. -/
theorem same_rewrite_iff {keep keep' : JsString → Bool} {f : JsString → JsString}
    (hkeep : ∀ k, keep' k = true → keep k = true) {j : Json} (h : j.UniqueKeys) :
    SameUpToKeyOrder (rewrite keep id j) (rewrite keep' f j)
      ↔ Throughout keep (fun k => keep' k = true) (fun s => f s = s) j := by
  induction j using Json.induction with
  | null => exact iff_of_true trivial trivial
  | bool b => exact iff_of_true rfl trivial
  | num x => exact iff_of_true rfl trivial
  | str s => exact eq_comm
  | arr elements ih =>
      rw [uniqueKeys_arr] at h
      rw [rewrite_arr, rewrite_arr, same_arr, List.forall₂_map_left_iff,
        List.forall₂_map_right_iff, throughout_arr, List.forall₂_same]
      constructor
      · intro hsame v hv
        exact (ih v hv (h v hv)).mp (hsame v hv)
      · intro hclean v hv
        exact (ih v hv (h v hv)).mpr (hclean v hv)
  | obj members ih =>
      rw [uniqueKeys_obj] at h
      rw [rewrite_obj, rewrite_obj, same_obj, keys_rewrite, keys_rewrite, throughout_obj]
      constructor
      · rintro ⟨hkeys, hmem⟩ m hm hk
        have hname : m.1 ∈ (members.map Prod.fst).filter keep' :=
          hkeys.mem_iff.mp (List.mem_filter.mpr ⟨List.mem_map_of_mem hm, hk⟩)
        refine ⟨(List.mem_filter.mp hname).2, ?_⟩
        obtain ⟨w, hw, hsame⟩ := hmem (m.1, rewrite keep id m.2)
          (List.mem_map_of_mem (f := fun m => (m.1, rewrite keep id m.2))
            (List.mem_filter.mpr ⟨hm, hk⟩))
        obtain ⟨n, hn, heq⟩ := List.mem_map.mp hw
        -- names are unique, so the partner comes from the member itself
        obtain ⟨hkey, rfl⟩ := Prod.mk.inj heq
        obtain rfl : n = m := List.inj_on_of_nodup_map h.1 (List.mem_of_mem_filter hn) hm hkey
        exact (ih n hm (h.2 n hm)).mp hsame
      · intro hclean
        have hfilter : (members.map Prod.fst).filter keep'
            = (members.map Prod.fst).filter keep := by
          refine List.filter_congr fun k hk => ?_
          obtain ⟨m, hm, rfl⟩ := List.mem_map.mp hk
          rw [Bool.eq_iff_iff]
          exact ⟨hkeep m.1, fun hm' => (hclean m hm hm').1⟩
        refine ⟨by rw [hfilter], fun m hm => ?_⟩
        obtain ⟨n, hn, rfl⟩ := List.mem_map.mp hm
        obtain ⟨hn, hk⟩ := List.mem_filter.mp hn
        obtain ⟨hname, htext⟩ := hclean n hn hk
        exact ⟨rewrite keep' f n.2,
          List.mem_map_of_mem (f := fun m => (m.1, rewrite keep' f m.2))
            (List.mem_filter.mpr ⟨hn, hname⟩), (ih n hn (h.2 n hn)).mpr htext⟩

/-- The conditions may be replaced by equivalent ones. -/
theorem throughout_congr {keep : JsString → Bool} {name name' text text' : JsString → Prop}
    (hname : ∀ k, keep k = true → (name k ↔ name' k)) (htext : ∀ s, text s ↔ text' s) (j : Json) :
    Throughout keep name text j ↔ Throughout keep name' text' j := by
  induction j using Json.induction with
  | null => exact Iff.rfl
  | bool b => exact Iff.rfl
  | num x => exact Iff.rfl
  | str s => exact htext s
  | arr elements ih =>
      rw [throughout_arr, throughout_arr]
      exact forall₂_congr ih
  | obj members ih =>
      rw [throughout_obj, throughout_obj]
      refine forall₂_congr fun m hm => imp_congr_right fun hk => ?_
      rw [hname m.1 hk, ih m hm]

/-- Two conditions on the strings are one. -/
theorem throughout_and {keep : JsString → Bool} {name text text' : JsString → Prop} (j : Json) :
    Throughout keep name text j ∧ Throughout keep name text' j
      ↔ Throughout keep name (fun s => text s ∧ text' s) j := by
  induction j using Json.induction with
  | null => exact and_self_iff
  | bool b => exact and_self_iff
  | num x => exact and_self_iff
  | str s => exact Iff.rfl
  | arr elements ih =>
      rw [throughout_arr, throughout_arr, throughout_arr, ← forall₂_and]
      exact forall₂_congr ih
  | obj members ih =>
      rw [throughout_obj, throughout_obj, throughout_obj, ← forall₂_and]
      refine forall₂_congr fun m hm => ?_
      rw [← imp_and]
      refine imp_congr_right fun _ => ?_
      rw [← ih m hm]
      exact ⟨fun h => ⟨h.1.1, h.1.2, h.2.2⟩, fun h => ⟨⟨h.1, h.2.1⟩, h.1, h.2.2⟩⟩

end A2aAgentLayer.Lib.JsonRewrite
