import A2aAgentLayer.Lib.JsonTree
import A2aAgentLayer.Lib.JsText

/-!
# Masking the fields of a value

A field is named by the keys on the way to it; the elements of an array are fields, by their
indices.  `mask hidden cover` puts `cover` in the place of every field whose path `hidden` picks,
and does not look inside.  Two values whose masks are equal differ only in the hidden fields.

What a mask does not hide of the fields that another one does are the `exposed` ones.  Values that
differ only in secret fields have equal masks exactly when they agree on the exposed secrets.
-/

namespace A2aAgentLayer.Lib.JsonMask

open A2aAgentLayer.Lib.Utf16 A2aAgentLayer.Lib.JsonTree

/-- The keys on the way to a field, outermost first. -/
abbrev KeyPath := List JsString

section Mask

variable (hidden : KeyPath → Bool) (cover : Json)

mutual

def mask (here : KeyPath) : Json → Json
  | .arr elements => .arr (maskElements here 0 elements)
  | .obj members => .obj (maskMembers here members)
  | .null => .null
  | .bool b => .bool b
  | .num x => .num x
  | .str s => .str s

def maskElements (here : KeyPath) : ℕ → List Json → List Json
  | _, [] => []
  | i, v :: rest =>
      (if hidden (here ++ [natText i]) then cover else mask (here ++ [natText i]) v)
        :: maskElements here (i + 1) rest

def maskMembers (here : KeyPath) : List (JsString × Json) → List (JsString × Json)
  | [] => []
  | (k, v) :: rest =>
      (k, if hidden (here ++ [k]) then cover else mask (here ++ [k]) v) :: maskMembers here rest

end

/-- A field with a path, masked. -/
def maskField (here : KeyPath) (v : Json) : Json :=
  if hidden here then cover else mask hidden cover here v

theorem maskElements_cons (here : KeyPath) (i : ℕ) (v : Json) (rest : List Json) :
    maskElements hidden cover here i (v :: rest)
      = maskField hidden cover (here ++ [natText i]) v
        :: maskElements hidden cover here (i + 1) rest := by
  rw [maskElements, maskField]

theorem maskMembers_cons (here : KeyPath) (m : JsString × Json) (rest : List (JsString × Json)) :
    maskMembers hidden cover here (m :: rest)
      = (m.1, maskField hidden cover (here ++ [m.1]) m.2)
        :: maskMembers hidden cover here rest := by
  rw [maskMembers, maskField]

theorem maskMembers_eq (here : KeyPath) (members : List (JsString × Json)) :
    maskMembers hidden cover here members
      = members.map fun m => (m.1, maskField hidden cover (here ++ [m.1]) m.2) := by
  induction members with
  | nil => rfl
  | cons m rest ih => rw [maskMembers_cons, ih, List.map_cons]

/-- A mask that hides nothing inside a value leaves it as it is. -/
theorem mask_of_nothing_hidden {here : KeyPath} {v : Json}
    (h : ∀ p, p ≠ [] → hidden (here ++ p) = false) : mask hidden cover here v = v := by
  induction v using Json.induction generalizing here with
  | null => rfl
  | bool b => rfl
  | num x => rfl
  | str s => rfl
  | arr elements ih =>
      have hfield : ∀ k, ∀ v ∈ elements, maskField hidden cover (here ++ [k]) v = v := by
        intro k v hv
        rw [maskField, h [k] (List.cons_ne_nil _ _)]
        exact ih v hv fun p hp => by
          rw [List.append_assoc]
          exact h _ (List.append_ne_nil_of_left_ne_nil (List.cons_ne_nil _ _) _)
      have hall : ∀ (vs : List Json) i, (∀ v ∈ vs, v ∈ elements) →
          maskElements hidden cover here i vs = vs := by
        intro vs
        induction vs with
        | nil => intro i _; rfl
        | cons v vs ihvs =>
            intro i hvs
            rw [maskElements_cons, hfield _ v (hvs v (List.mem_cons_self ..)),
              ihvs (i + 1) fun w hw => hvs w (List.mem_cons_of_mem v hw)]
      rw [mask, hall elements 0 fun v hv => hv]
  | obj members ih =>
      rw [mask, maskMembers_eq]
      refine congrArg Json.obj ?_
      conv_rhs => rw [← List.map_id members]
      refine List.map_congr_left fun m hm => ?_
      show (m.1, maskField hidden cover (here ++ [m.1]) m.2) = m
      rw [maskField, h [m.1] (List.cons_ne_nil _ _)]
      refine Prod.ext rfl (ih m hm fun p hp => ?_)
      rw [List.append_assoc]
      exact h _ (List.append_ne_nil_of_left_ne_nil (List.cons_ne_nil _ _) _)

end Mask

/-! ### What a mask exposes -/

section Exposed

variable (hidden secret : KeyPath → Bool)

mutual

/-- The values of the secret fields that are not hidden, in order; not those inside of a field that
is hidden or secret itself. -/
def exposed (here : KeyPath) : Json → List Json
  | .arr elements => exposedElements here 0 elements
  | .obj members => exposedMembers here members
  | .null => []
  | .bool _ => []
  | .num _ => []
  | .str _ => []

def exposedElements (here : KeyPath) : ℕ → List Json → List Json
  | _, [] => []
  | i, v :: rest =>
      (if hidden (here ++ [natText i]) then []
        else if secret (here ++ [natText i]) then [v] else exposed (here ++ [natText i]) v)
        ++ exposedElements here (i + 1) rest

def exposedMembers (here : KeyPath) : List (JsString × Json) → List Json
  | [] => []
  | (k, v) :: rest =>
      (if hidden (here ++ [k]) then []
        else if secret (here ++ [k]) then [v] else exposed (here ++ [k]) v)
        ++ exposedMembers here rest

end

/-- What is exposed of a field with a path. -/
def exposedField (here : KeyPath) (v : Json) : List Json :=
  if hidden here then [] else if secret here then [v] else exposed hidden secret here v

theorem exposedElements_cons (here : KeyPath) (i : ℕ) (v : Json) (rest : List Json) :
    exposedElements hidden secret here i (v :: rest)
      = exposedField hidden secret (here ++ [natText i]) v
        ++ exposedElements hidden secret here (i + 1) rest := by
  rw [exposedElements, exposedField]

theorem exposedMembers_cons (here : KeyPath) (m : JsString × Json)
    (rest : List (JsString × Json)) :
    exposedMembers hidden secret here (m :: rest)
      = exposedField hidden secret (here ++ [m.1]) m.2
        ++ exposedMembers hidden secret here rest := by
  rw [exposedMembers, exposedField]

end Exposed

/-! ### Values that differ only in secrets -/

/-- What is exposed decides whether two masked things are equal. -/
structure Decides {α : Type*} (a a' : α) (e e' : List Json) : Prop where
  iff : a = a' ↔ e = e'
  length : e.length = e'.length

theorem Decides.of_eq {α : Type*} {a a' : α} {e e' : List Json} (ha : a = a') (he : e = e') :
    Decides a a' e e' := ⟨iff_of_true ha he, congrArg List.length he⟩

theorem Decides.append {α β γ : Type*} {a a' : α} {b b' : β} {c c' : γ} {e e' f f' : List Json}
    (ha : Decides a a' e e') (hb : Decides b b' f f') (hc : c = c' ↔ a = a' ∧ b = b') :
    Decides c c' (e ++ f) (e' ++ f') where
  iff := by
    rw [hc, ha.iff, hb.iff]
    exact ⟨fun ⟨he, hf⟩ => he ▸ hf ▸ rfl, fun h => List.append_inj h ha.length⟩
  length := by rw [List.length_append, List.length_append, ha.length, hb.length]

section Differences

variable {hidden secret : KeyPath → Bool} (cover blank : Json)

/-- The two values agree as far as what is exposed of them tells. -/
def DecidesAt (hidden secret : KeyPath → Bool) (v v' : Json) : Prop :=
  ∀ here, mask secret blank here v = mask secret blank here v' →
    Decides (mask hidden cover here v) (mask hidden cover here v')
      (exposed hidden secret here v) (exposed hidden secret here v')

theorem decides_field
    (hclosed : ∀ p q, secret p = true → hidden p = false → hidden (p ++ q) = false)
    {here : KeyPath} {v v' : Json} (hvalue : DecidesAt cover blank hidden secret v v')
    (h : maskField secret blank here v = maskField secret blank here v') :
    Decides (maskField hidden cover here v) (maskField hidden cover here v')
      (exposedField hidden secret here v) (exposedField hidden secret here v') := by
  rw [maskField, maskField, exposedField, exposedField]
  cases hhidden : hidden here with
  | true => exact .of_eq rfl rfl
  | false =>
      cases hsecret : secret here with
      | true =>
          have hnothing : ∀ v, mask hidden cover here v = v := fun v =>
            mask_of_nothing_hidden hidden cover fun p _ => hclosed here p hsecret hhidden
          rw [if_neg Bool.false_ne_true, if_neg Bool.false_ne_true, hnothing, hnothing]
          exact ⟨by simp, rfl⟩
      | false =>
          rw [maskField, maskField, hsecret] at h
          exact hvalue here h

theorem decides_elements
    (hclosed : ∀ p q, secret p = true → hidden p = false → hidden (p ++ q) = false)
    {here : KeyPath} {elements : List Json}
    (ih : ∀ v ∈ elements, ∀ v', DecidesAt cover blank hidden secret v v') :
    ∀ i elements', maskElements secret blank here i elements
        = maskElements secret blank here i elements' →
      Decides (maskElements hidden cover here i elements)
        (maskElements hidden cover here i elements')
        (exposedElements hidden secret here i elements)
        (exposedElements hidden secret here i elements') := by
  induction elements with
  | nil =>
      intro i elements' h
      cases elements' with
      | nil => exact .of_eq rfl rfl
      | cons v' rest' => cases h
  | cons v rest ihrest =>
      intro i elements' h
      cases elements' with
      | nil => cases h
      | cons v' rest' =>
          rw [maskElements_cons, maskElements_cons] at h
          obtain ⟨hv, hrest⟩ := List.cons.inj h
          rw [maskElements_cons, maskElements_cons, exposedElements_cons, exposedElements_cons]
          exact (decides_field cover blank hclosed (ih v (List.mem_cons_self ..) v') hv).append
            (ihrest (fun w hw => ih w (List.mem_cons_of_mem v hw)) (i + 1) rest' hrest)
            List.cons_eq_cons

theorem decides_members
    (hclosed : ∀ p q, secret p = true → hidden p = false → hidden (p ++ q) = false)
    {here : KeyPath} {members : List (JsString × Json)}
    (ih : ∀ m ∈ members, ∀ v', DecidesAt cover blank hidden secret m.2 v') :
    ∀ members', maskMembers secret blank here members = maskMembers secret blank here members' →
      Decides (maskMembers hidden cover here members) (maskMembers hidden cover here members')
        (exposedMembers hidden secret here members)
        (exposedMembers hidden secret here members') := by
  induction members with
  | nil =>
      intro members' h
      cases members' with
      | nil => exact .of_eq rfl rfl
      | cons m' rest' => cases h
  | cons m rest ihrest =>
      intro members' h
      cases members' with
      | nil => cases h
      | cons m' rest' =>
          obtain ⟨k, v⟩ := m
          obtain ⟨k', v'⟩ := m'
          rw [maskMembers_cons, maskMembers_cons] at h
          obtain ⟨hm, hrest⟩ := List.cons.inj h
          obtain ⟨rfl, hv⟩ := Prod.mk.inj hm
          rw [maskMembers_cons, maskMembers_cons, exposedMembers_cons, exposedMembers_cons]
          refine (decides_field cover blank hclosed (ih _ (List.mem_cons_self ..) v') hv).append
            (ihrest (fun w hw => ih w (List.mem_cons_of_mem _ hw)) rest' hrest) ?_
          rw [List.cons_eq_cons, Prod.mk.injEq, eq_self, true_and]

/-- **When masks are equal.**  Two values that differ only in secrets are equal behind a mask
exactly if they agree on the secrets it exposes. -/
theorem decides_value
    (hclosed : ∀ p q, secret p = true → hidden p = false → hidden (p ++ q) = false) (v v' : Json) :
    DecidesAt cover blank hidden secret v v' := by
  induction v using Json.induction generalizing v' with
  | null =>
      intro here h
      cases v' with
      | null => exact .of_eq rfl rfl
      | _ => cases h
  | bool b =>
      intro here h
      cases v' with
      | bool b' => exact .of_eq h rfl
      | _ => cases h
  | num x =>
      intro here h
      cases v' with
      | num y => exact .of_eq h rfl
      | _ => cases h
  | str s =>
      intro here h
      cases v' with
      | str t => exact .of_eq h rfl
      | _ => cases h
  | arr elements ih =>
      intro here h
      cases v' with
      | arr elements' =>
          have hdecides := decides_elements cover blank hclosed ih 0 elements' (Json.arr.inj h)
          exact ⟨(Json.arr.injEq _ _).to_iff.trans hdecides.iff, hdecides.length⟩
      | _ => cases h
  | obj members ih =>
      intro here h
      cases v' with
      | obj members' =>
          have hdecides := decides_members cover blank hclosed ih members' (Json.obj.inj h)
          exact ⟨(Json.obj.injEq _ _).to_iff.trans hdecides.iff, hdecides.length⟩
      | _ => cases h

end Differences

end A2aAgentLayer.Lib.JsonMask
