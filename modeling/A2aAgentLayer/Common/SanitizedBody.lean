import A2aAgentLayer.Common.SanitizedText

/-!
# Sanitized bodies

The pipe keeps the shape of a body: what holds of every string of the result holds of every string
of the body once it is sanitized, `__proto__` members apart, which do not come back.  The members of
a sanitized object are in the order in which an object enumerates them, so sanitizing it again moves
none of them.
-/

namespace A2aAgentLayer.Common.SanitizedBody

open A2aAgentLayer.Lib.Utf16 A2aAgentLayer.Lib.JsonTree A2aAgentLayer.Lib.JsObject
open A2aAgentLayer.Lib.JsonRewrite A2aAgentLayer.Common.SanitizePipe
open A2aAgentLayer.Common.SanitizedText

/-- Every string of the result is free of markup, and sanitizing the result changes nothing. -/
structure CleanAndStable (body : Json) : Prop where
  clean : Throughout (fun _ => true) (fun _ => True) NoMarkup (sanitize body)
  stable : sanitize (sanitize body) = sanitize body

/-! ### Sanitized objects -/

/-- The members of a sanitized object. -/
theorem exists_members {members : List (JsString × Json)} (hnd : (members.map Prod.fst).Nodup) :
    ∃ kept, sanitize (.obj members) = .obj kept ∧ Enumerated kept ∧ (kept.map Prod.fst).Nodup
      ∧ ∀ n, n ∈ kept ↔ ∃ m ∈ members, m.1 ≠ protoKey ∧ (m.1, sanitize m.2) = n := by
  refine ⟨_, sanitize_obj hnd, (enumerated_ownOrder _).filter _, ?_, fun n => ?_⟩
  · have hperm := (ownOrder_perm (members.map fun m => (m.1, sanitize m.2))).map Prod.fst
    refine (List.Sublist.map Prod.fst List.filter_sublist).nodup (hperm.nodup_iff.mpr ?_)
    rw [List.map_map]
    exact hnd
  · rw [List.mem_filter, (ownOrder_perm _).mem_iff, List.mem_map, decide_eq_true_eq]
    constructor
    · rintro ⟨⟨m, hm, rfl⟩, hproto⟩
      exact ⟨m, hm, hproto, rfl⟩
    · rintro ⟨m, hm, hproto, rfl⟩
      exact ⟨⟨m, hm, rfl⟩, hproto⟩

/-- An object whose members are enumerated already keeps their places. -/
theorem sanitize_enumerated {members : List (JsString × Json)} (henum : Enumerated members)
    (hnd : (members.map Prod.fst).Nodup) (hproto : ∀ m ∈ members, m.1 ≠ protoKey) :
    sanitize (.obj members) = .obj (members.map fun m => (m.1, sanitize m.2)) := by
  have henum' : Enumerated (members.map fun m => (m.1, sanitize m.2)) := List.pairwise_map.mpr henum
  rw [sanitize_obj hnd, ownOrder_of_enumerated henum', List.filter_eq_self.mpr]
  intro n hn
  obtain ⟨m, hm, rfl⟩ := List.mem_map.mp hn
  exact decide_eq_true (hproto m hm)

/-! ### Every string of a body -/

/-- The strings of the result are the sanitized strings of the body. -/
theorem throughout_sanitize {text : JsString → Prop} {body : Json} (h : body.UniqueKeys) :
    Throughout (fun _ => true) (fun _ => True) text (sanitize body) ↔
      Throughout (fun k => decide (k ≠ protoKey)) (fun _ => True) (fun s => text (sanitizeString s))
        body := by
  induction body using Json.induction with
  | null => exact Iff.rfl
  | bool b => exact Iff.rfl
  | num x => exact Iff.rfl
  | str s => exact Iff.rfl
  | arr elements ih =>
      rw [uniqueKeys_arr] at h
      rw [sanitize_arr, throughout_arr, throughout_arr, List.forall_mem_map]
      exact forall₂_congr fun v hv => ih v hv (h v hv)
  | obj members ih =>
      rw [uniqueKeys_obj] at h
      obtain ⟨kept, heq, -, -, hkept⟩ := exists_members h.1
      rw [heq, throughout_obj, throughout_obj]
      constructor
      · intro hall m hm hproto
        have hmem := (hkept _).mpr ⟨m, hm, of_decide_eq_true hproto, rfl⟩
        exact ⟨trivial, (ih m hm (h.2 m hm)).mp (hall _ hmem rfl).2⟩
      · intro hall n hn _
        obtain ⟨m, hm, hproto, rfl⟩ := (hkept n).mp hn
        exact ⟨trivial, (ih m hm (h.2 m hm)).mpr (hall m hm (decide_eq_true hproto)).2⟩

/-- **Sanitizing twice.**  The result comes back unchanged exactly when every sanitized string
does. -/
theorem sanitize_twice_iff {body : Json} (h : body.UniqueKeys) :
    sanitize (sanitize body) = sanitize body ↔
      Throughout (fun k => decide (k ≠ protoKey)) (fun _ => True)
        (fun s => sanitizeString (sanitizeString s) = sanitizeString s) body := by
  induction body using Json.induction with
  | null => exact iff_of_true rfl trivial
  | bool b => exact iff_of_true rfl trivial
  | num x => exact iff_of_true rfl trivial
  | str s =>
      show Json.str _ = Json.str _ ↔ _
      rw [Json.str.injEq]
      exact Iff.rfl
  | arr elements ih =>
      rw [uniqueKeys_arr] at h
      rw [sanitize_arr, sanitize_arr, throughout_arr, Json.arr.injEq, List.map_map,
        List.map_inj_left]
      exact forall₂_congr fun v hv => ih v hv (h v hv)
  | obj members ih =>
      rw [uniqueKeys_obj] at h
      obtain ⟨kept, heq, henum, hnd, hkept⟩ := exists_members h.1
      have hproto : ∀ n ∈ kept, n.1 ≠ protoKey := by
        intro n hn
        obtain ⟨m, -, hproto, rfl⟩ := (hkept n).mp hn
        exact hproto
      have hfix : kept.map (fun n => (n.1, sanitize n.2)) = kept
          ↔ ∀ n ∈ kept, sanitize n.2 = n.2 := by
        conv_lhs => rw [← List.map_id kept, List.map_map, List.map_inj_left]
        exact forall₂_congr fun n _ => by simp [Prod.ext_iff]
      rw [heq, sanitize_enumerated henum hnd hproto, Json.obj.injEq, hfix, throughout_obj]
      constructor
      · intro hall m hm hm'
        have hmem := (hkept _).mpr ⟨m, hm, of_decide_eq_true hm', rfl⟩
        exact ⟨trivial, (ih m hm (h.2 m hm)).mp (hall _ hmem)⟩
      · intro hall n hn
        obtain ⟨m, hm, hproto, rfl⟩ := (hkept n).mp hn
        exact (ih m hm (h.2 m hm)).mpr (hall m hm (decide_eq_true hproto)).2

/-- **Clean and stable bodies.**  The result of the pipe is free of markup and comes back unchanged
exactly when every string of the body settles, `__proto__` members apart. -/
theorem cleanAndStable_iff (body : JsonValue) :
    CleanAndStable body.tree ↔
      Throughout (fun k => decide (k ≠ protoKey)) (fun _ => True) Settles body.tree := by
  have hparts : CleanAndStable body.tree ↔
      Throughout (fun _ => true) (fun _ => True) NoMarkup (sanitize body.tree)
        ∧ sanitize (sanitize body.tree) = sanitize body.tree :=
    ⟨fun h => ⟨h.clean, h.stable⟩, fun h => ⟨h.1, h.2⟩⟩
  rw [hparts, throughout_sanitize body.unique, sanitize_twice_iff body.unique, throughout_and]
  refine throughout_congr (fun k _ => Iff.rfl) (fun s => ?_) body.tree
  rw [noMarkup_and_stable_iff, clean_sanitizeString_iff]

/-- A body with one name. -/
def named (name : JsString) : Json := .obj [(js "name", .str name)]

theorem sanitize_named_body (name : JsString) :
    sanitize (named name) = named (sanitizeString name) :=
  sanitize_named (List.nodup_singleton _)
    (by decide : ∀ key ∈ [js "name"], arrayIndex key = none ∧ key ≠ protoKey)

theorem escaped_again :
    sanitize (named (js "&lt;b&gt;Ann")) = named (js "<b>Ann")
      ∧ sanitize (sanitize (named (js "&lt;b&gt;Ann"))) = named (js "Ann")
      ∧ ¬ CleanAndStable (named (js "&lt;b&gt;Ann")) := by
  have honce : sanitizeString (js "&lt;b&gt;Ann") = js "<b>Ann" := by decide
  have htwice : sanitizeString (js "<b>Ann") = js "Ann" := by decide
  rw [sanitize_named_body, honce, sanitize_named_body, htwice]
  refine ⟨rfl, rfl, fun h => ?_⟩
  have hstable := h.stable
  rw [sanitize_named_body, honce, sanitize_named_body, htwice] at hstable
  simp only [named, Json.obj.injEq, List.cons.injEq, Prod.mk.injEq, Json.str.injEq, and_true,
    true_and] at hstable
  exact absurd hstable (by decide)

end A2aAgentLayer.Common.SanitizedBody
