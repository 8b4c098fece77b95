import A2aAgentLayer.Lib.JsonTree
import A2aAgentLayer.Policies.Evaluator

/-!
# The evaluator on stored rules

The rules of a policy are a `jsonb` column that nothing checks, so `evaluatePolicyAccess` reads
whatever document the row holds.  A member that is absent or `null` is no list; a value of another
kind has no `some` and no `filter`, and the evaluator throws as soon as it needs one.  It never
looks at a list that an earlier answer makes superfluous.

`evaluateStored` is `none` where the code throws, and where an object stands in place of a list and
its `length` is a text, a list or an object, whose conversion to a number is left out.  On documents
of the declared shape it is `evaluatePolicyAccess` (`evaluateStored_of_readRules`), and the loop
over the policies is that of `assertAllowed`.
-/

namespace A2aAgentLayer.Policies.StoredRules

open A2aAgentLayer.Lib.Utf16 A2aAgentLayer.Lib.NumberText A2aAgentLayer.Lib.JsonTree
open A2aAgentLayer.Policies.Evaluator

/-! ### Members -/

/-- The own properties that a name is looked up in.  `none` is the `TypeError` of `null`. -/
def fieldsOf : Json → Option (List (JsString × Json))
  | .null => none
  | .obj members => some members
  | _ => some []

/-- `value.key` for `?.` and `??`, which take `null` for an absent member. -/
def member (fields : List (JsString × Json)) (key : JsString) : Option Json :=
  match fields.lookup key with
  | some .null => none
  | found => found

/-- `length > 0`. -/
def positive : Json → Option Bool
  | .null => some false
  | .bool b => some b
  | .num x => some (decide (x.negative = false ∧ x.digits ≠ []))
  | _ => none

/-- `(list?.length ?? 0) > 0`. -/
def nonempty : Option Json → Option Bool
  | some (.arr elements) => some (decide (0 < elements.length))
  | some (.str s) => some (decide (0 < s.length))
  | some (.obj members) => ((member members (js "length")).map positive).getD (some false)
  | _ => some false

/-! ### Patterns -/

/-- `patterns.some(…)`.  Only a text has the `replace` of `matchWildcard`, and the search ends at
the first match. -/
def someMatches (value : JsString) : List Json → Option Bool
  | [] => some false
  | .str pattern :: rest =>
      if matchWildcard pattern value then some true else someMatches value rest
  | _ :: _ => none

/-- `list?.some(…)`. -/
def listed (patterns : Option Json) (value : JsString) : Option Bool :=
  match patterns with
  | none => some false
  | some (.arr elements) => someMatches value elements
  | some _ => none

/-- `!patterns`. -/
def falsy : Json → Bool
  | .null => true
  | .bool b => !b
  | .num x => x.digits.isEmpty
  | .str s => s.isEmpty
  | _ => false

/-- `patterns.length === 0`. -/
def lengthZero : Json → Bool
  | .arr elements => elements.isEmpty
  | .obj members =>
      match member members (js "length") with
      | some (.num x) => x.digits.isEmpty
      | _ => false
  | _ => false

/-- A falsy value and a `length` of zero match everything. -/
def matchesAny (patterns : Option Json) (value : JsString) : Option Bool :=
  match patterns with
  | none => some true
  | some patterns =>
      if falsy patterns || lengthZero patterns then some true
      else
        match patterns with
        | .arr elements => someMatches value elements
        | _ => none

/-- `&&`, which does not look at its right side when the left one is false. -/
def both (left right : Option Bool) : Option Bool :=
  left.bind fun l => if l then right else some false

/-- `||`, which does not look at its right side when the left one is true. -/
def either (left right : Option Bool) : Option Bool :=
  left.bind fun l => if l then some true else right

@[simp] theorem both_some (l r : Bool) : both (some l) (some r) = some (l && r) := by
  cases l <;> rfl

@[simp] theorem either_some (l r : Bool) : either (some l) (some r) = some (l || r) := by
  cases l <;> rfl

/-! ### One document -/

/-- A rule without subjects is no constraint on them. -/
def ruleApplies (rule : Json) (ctx : PolicyEvaluationContext) : Option Bool :=
  (fieldsOf rule).bind fun fields =>
    both (matchesAny (member fields (js "subjects")) ctx.subject)
      (both (matchesAny (member fields (js "actions")) ctx.action)
        (matchesAny (member fields (js "resources")) ctx.resource))

/-- `accessRules.filter(…)`, which asks every rule. -/
def matchingRules (ctx : PolicyEvaluationContext) : List Json → Option (List Json)
  | [] => some []
  | rule :: rest =>
      (ruleApplies rule ctx).bind fun applies =>
        (matchingRules ctx rest).map fun matching => if applies then rule :: matching else matching

/-- `rule.effect === effect`, for a rule that has members. -/
def hasEffect (effect : JsString) : Json → Bool
  | .obj members =>
      match members.lookup (js "effect") with
      | some (.str s) => decide (s = effect)
      | _ => false
  | _ => false

def hasAccessConstraints (fields : List (JsString × Json)) : Option Bool :=
  either (nonempty (member fields (js "accessRules")))
    (either (nonempty (member fields (js "allowlist"))) (nonempty (member fields (js "denylist"))))

/-- `rules.accessRules ?? []`. -/
def accessRules (fields : List (JsString × Json)) : Option (List Json) :=
  match member fields (js "accessRules") with
  | none => some []
  | some (.arr rules) => some rules
  | some _ => none

def evaluateStored (rules : Json) (ctx : PolicyEvaluationContext) : Option Evaluation := do
  let fields ← fieldsOf rules
  let constrained ← hasAccessConstraints fields
  if constrained = false then return ⟨true, "no access constraints"⟩
  let denied ← listed (member fields (js "denylist")) ctx.subject
  if denied then return ⟨false, "subject on denylist"⟩
  let matching ← (accessRules fields).bind (matchingRules ctx)
  if (matching.find? (hasEffect (js "deny"))).isSome then
    return ⟨false, "matched deny access rule"⟩
  if (matching.find? (hasEffect (js "allow"))).isSome then
    return ⟨true, "matched allow access rule"⟩
  let allowed ← listed (member fields (js "allowlist")) ctx.subject
  if allowed then return ⟨true, "subject on allowlist"⟩
  return ⟨false, "no matching allow rule"⟩

example : evaluateStored
    (.obj [(js "accessRules", .arr [.obj [(js "effect", .str (js "audit"))],
      .obj [(js "effect", .str (js "deny"))]])])
    ⟨js "a", js "b", js "c"⟩ = some ⟨false, "matched deny access rule"⟩ := by decide

/-! ### The policies of an agent -/

/-- The loop of `assertAllowed` over the rules of the policies. -/
def decideAllStored (ctx : PolicyEvaluationContext) : String → List Json → Option PolicyDecision
  | allowReason, [] => some (.allow allowReason)
  | _, rules :: rest =>
      (evaluateStored rules ctx).bind fun result =>
        if result.allowed then decideAllStored ctx result.reason rest
        else some (.deny result.reason)

/-- `assertAllowed` over stored rules.  `none` is an error that is no denial. -/
def decideStored (stored : List Json) (ctx : PolicyEvaluationContext) : Option PolicyDecision :=
  if stored.length = 0 then some (.allow "no active policy")
  else decideAllStored ctx "allowed" stored

def readString : Json → Option JsString
  | .str s => some s
  | _ => none

def readStrings : Json → Option (List JsString)
  | .arr elements => elements.mapM readString
  | _ => none

/-- A list that may be absent. -/
def readMember {α : Type} (fields : List (JsString × Json)) (key : JsString)
    (read : Json → Option α) : Option (Option α) :=
  match member fields key with
  | none => some none
  | some value => (read value).map some

def readEffect : Json → Option PolicyEffect
  | .str s => if s = js "allow" then some .allow else if s = js "deny" then some .deny else none
  | _ => none

def readRule : Json → Option AccessRule
  | .obj members => do
      let effect ← (members.lookup (js "effect")).bind readEffect
      let subjects ← (members.lookup (js "subjects")).bind readStrings
      let actions ← readMember members (js "actions") readStrings
      let resources ← readMember members (js "resources") readStrings
      return { effect, subjects, actions, resources }
  | _ => none

def readAccessRules : Json → Option (List AccessRule)
  | .arr rules => rules.mapM readRule
  | _ => none

def readRules : Json → Option PolicyRuleset
  | .obj members => do
      let allowlist ← readMember members (js "allowlist") readStrings
      let denylist ← readMember members (js "denylist") readStrings
      let accessRules ← readMember members (js "accessRules") readAccessRules
      return { allowlist, denylist, accessRules }
  | _ => none

theorem forall₂_of_mapM {α β : Type} {f : α → Option β} {xs : List α} {ys : List β}
    (h : xs.mapM f = some ys) : List.Forall₂ (fun x y => f x = some y) xs ys := by
  induction xs generalizing ys with
  | nil =>
      obtain rfl := Option.some.inj h
      exact .nil
  | cons x xs ih =>
      rw [List.mapM_cons] at h
      obtain ⟨y, hy, h⟩ := Option.bind_eq_some_iff.mp h
      obtain ⟨rest, hrest, h⟩ := Option.bind_eq_some_iff.mp h
      obtain rfl := Option.some.inj h
      exact .cons hy (ih hrest)

theorem readString_eq_some {value : Json} {s : JsString} (h : readString value = some s) :
    value = .str s := by
  cases value with
  | str t => rw [Option.some.inj h]
  | _ => cases h

/-- A list that is read is an array of texts. -/
theorem readStrings_eq_some {value : Json} {patterns : List JsString}
    (h : readStrings value = some patterns) : value = .arr (patterns.map .str) := by
  cases value with
  | arr elements =>
      refine congrArg Json.arr ?_
      have hread := forall₂_of_mapM h
      clear h
      induction hread with
      | nil => rfl
      | cons hread _ ih => rw [readString_eq_some hread, ih, List.map_cons]
  | _ => cases h

/-- A member that is read is absent or is read. -/
theorem readMember_cases {α : Type} {fields : List (JsString × Json)} {key : JsString}
    {read : Json → Option α} {found : Option α} (h : readMember fields key read = some found) :
    (member fields key = none ∧ found = none)
      ∨ ∃ value a, member fields key = some value ∧ read value = some a ∧ found = some a := by
  rw [readMember] at h
  cases hvalue : member fields key with
  | none =>
      rw [hvalue] at h
      exact .inl ⟨rfl, (Option.some.inj h).symm⟩
  | some value =>
      rw [hvalue] at h
      obtain ⟨a, ha, rfl⟩ := Option.map_eq_some_iff.mp h
      exact .inr ⟨value, a, rfl, ha, rfl⟩

theorem someMatches_strings (value : JsString) (patterns : List JsString) :
    someMatches value (patterns.map .str)
      = some (patterns.any fun pattern => matchWildcard pattern value) := by
  induction patterns with
  | nil => rfl
  | cons pattern rest ih =>
      rw [List.map_cons, someMatches, List.any_cons, ih]
      cases matchWildcard pattern value <;> rfl

theorem matchesAny_strings (value : JsString) (patterns : List JsString) :
    matchesAny (some (.arr (patterns.map .str))) value
      = some (Evaluator.matchesAny (some patterns) value) := by
  cases patterns with
  | nil => rfl
  | cons pattern rest => exact someMatches_strings value (pattern :: rest)

section Members

variable {fields : List (JsString × Json)} {key : JsString} {patterns : Option (List JsString)}

theorem matchesAny_of_read (h : readMember fields key readStrings = some patterns)
    (value : JsString) :
    matchesAny (member fields key) value = some (Evaluator.matchesAny patterns value) := by
  rcases readMember_cases h with ⟨hnone, rfl⟩ | ⟨found, read, hsome, hread, rfl⟩
  · rw [hnone]
    rfl
  · rw [hsome, readStrings_eq_some hread, matchesAny_strings]

theorem listed_of_read (h : readMember fields key readStrings = some patterns) (value : JsString) :
    listed (member fields key) value = some (Evaluator.listed patterns value) := by
  rcases readMember_cases h with ⟨hnone, rfl⟩ | ⟨found, read, hsome, hread, rfl⟩
  · rw [hnone]
    rfl
  · rw [hsome, readStrings_eq_some hread]
    exact someMatches_strings value read

theorem nonempty_of_read (h : readMember fields key readStrings = some patterns) :
    nonempty (member fields key) = some (decide (0 < (patterns.getD []).length)) := by
  rcases readMember_cases h with ⟨hnone, rfl⟩ | ⟨found, read, hsome, hread, rfl⟩
  · rw [hnone]
    rfl
  · rw [hsome, readStrings_eq_some hread, nonempty, List.length_map, Option.getD_some]

end Members

/-- A member that is no list is not read. -/
theorem member_of_strings {fields : List (JsString × Json)} {key : JsString}
    {patterns : List JsString} (h : (fields.lookup key).bind readStrings = some patterns) :
    readMember fields key readStrings = some (some patterns) := by
  obtain ⟨value, hvalue, hread⟩ := Option.bind_eq_some_iff.mp h
  rw [readMember, member, hvalue]
  cases value with
  | null => cases hread
  | _ => exact congrArg (Option.map some) hread

theorem hasEffect_of_read {members : List (JsString × Json)} {effect : PolicyEffect}
    (h : (members.lookup (js "effect")).bind readEffect = some effect) :
    hasEffect (js "deny") (.obj members) = decide (effect = .deny)
      ∧ hasEffect (js "allow") (.obj members) = decide (effect = .allow) := by
  obtain ⟨value, hvalue, hread⟩ := Option.bind_eq_some_iff.mp h
  rw [hasEffect, hasEffect, hvalue]
  cases value with
  | str s =>
      rw [readEffect] at hread
      split_ifs at hread with hallow hdeny
      · obtain rfl := Option.some.inj hread
        subst hallow
        exact ⟨by decide, by decide⟩
      · obtain rfl := Option.some.inj hread
        subst hdeny
        exact ⟨by decide, by decide⟩
  | _ => cases hread

/-- A stored rule that is the rule it is read as. -/
structure ReadsAs (ctx : PolicyEvaluationContext) (stored : Json) (rule : AccessRule) : Prop where
  applies : ruleApplies stored ctx = some (Evaluator.ruleApplies rule ctx)
  deny : hasEffect (js "deny") stored = decide (rule.effect = .deny)
  allow : hasEffect (js "allow") stored = decide (rule.effect = .allow)

theorem readsAs_of_readRule (ctx : PolicyEvaluationContext) {stored : Json} {rule : AccessRule}
    (h : readRule stored = some rule) : ReadsAs ctx stored rule := by
  cases stored with
  | obj members =>
      obtain ⟨effect, heffect, h⟩ := Option.bind_eq_some_iff.mp h
      obtain ⟨subjects, hsubjects, h⟩ := Option.bind_eq_some_iff.mp h
      obtain ⟨actions, hactions, h⟩ := Option.bind_eq_some_iff.mp h
      obtain ⟨resources, hresources, h⟩ := Option.bind_eq_some_iff.mp h
      obtain rfl := Option.some.inj h
      refine ⟨?_, (hasEffect_of_read heffect).1, (hasEffect_of_read heffect).2⟩
      rw [ruleApplies, fieldsOf, Option.bind_some,
        matchesAny_of_read (member_of_strings hsubjects), matchesAny_of_read hactions,
        matchesAny_of_read hresources, both_some, both_some, Evaluator.ruleApplies, Bool.and_assoc]
  | _ => cases h

theorem matchingRules_of_readsAs {ctx : PolicyEvaluationContext} {stored : List Json}
    {rules : List AccessRule} (h : List.Forall₂ (ReadsAs ctx) stored rules) :
    ∃ matching, matchingRules ctx stored = some matching
      ∧ List.Forall₂ (ReadsAs ctx) matching
        (rules.filter fun rule => Evaluator.ruleApplies rule ctx) := by
  induction h with
  | nil => exact ⟨[], rfl, .nil⟩
  | cons hread _ ih =>
      obtain ⟨matching, hmatching, hrest⟩ := ih
      rw [matchingRules, hread.applies, Option.bind_some, hmatching, Option.map_some]
      refine ⟨_, rfl, ?_⟩
      rw [List.filter_cons]
      split_ifs with happlies
      · exact .cons hread hrest
      · exact hrest

/-- Two lists whose entries pass alike find alike. -/
theorem find?_isSome_of_forall₂ {α β : Type} {R : α → β → Prop} {p : α → Bool} {q : β → Bool}
    {xs : List α} {ys : List β} (h : List.Forall₂ R xs ys) (hpq : ∀ x y, R x y → p x = q y) :
    (xs.find? p).isSome = (ys.find? q).isSome := by
  induction h with
  | nil => rfl
  | cons hxy _ ih =>
      rw [List.find?_cons, List.find?_cons, hpq _ _ hxy]
      split
      · rfl
      · exact ih

theorem accessRules_of_read {fields : List (JsString × Json)} {rules : Option (List AccessRule)}
    (h : readMember fields (js "accessRules") readAccessRules = some rules)
    (ctx : PolicyEvaluationContext) : ∃ stored, accessRules fields = some stored
      ∧ nonempty (member fields (js "accessRules")) = some (decide (0 < stored.length))
      ∧ List.Forall₂ (ReadsAs ctx) stored (rules.getD []) := by
  rcases readMember_cases h with ⟨hnone, rfl⟩ | ⟨value, read, hsome, hread, rfl⟩
  · rw [accessRules, hnone]
    exact ⟨[], rfl, rfl, .nil⟩
  · rw [accessRules, hsome]
    cases value with
    | arr stored =>
        exact ⟨stored, rfl, rfl,
          (forall₂_of_mapM hread).imp fun _ _ => readsAs_of_readRule ctx⟩
    | _ => cases hread

/-- **On the declared shape the evaluator is the one of rulesets.** -/
theorem evaluateStored_of_readRules {stored : Json} {rules : PolicyRuleset}
    (h : readRules stored = some rules) (ctx : PolicyEvaluationContext) :
    evaluateStored stored ctx = some (evaluatePolicyAccess rules ctx) := by
  cases stored with
  | obj fields =>
      obtain ⟨allowlist, hallow, h⟩ := Option.bind_eq_some_iff.mp h
      obtain ⟨denylist, hdeny, h⟩ := Option.bind_eq_some_iff.mp h
      obtain ⟨read, hrules, h⟩ := Option.bind_eq_some_iff.mp h
      obtain rfl := Option.some.inj h
      obtain ⟨found, hfound, hnonempty, hreads⟩ := accessRules_of_read hrules ctx
      obtain ⟨matching, hmatching, hfilter⟩ := matchingRules_of_readsAs hreads
      have hconstrained : hasAccessConstraints fields
          = some (Evaluator.hasAccessConstraints ⟨allowlist, denylist, read⟩) := by
        rw [hasAccessConstraints, hnonempty, nonempty_of_read hallow, nonempty_of_read hdeny,
          either_some, either_some, Evaluator.hasAccessConstraints, hreads.length_eq, Bool.or_assoc]
      have hdenies := find?_isSome_of_forall₂ hfilter fun _ _ => ReadsAs.deny
      have hallows := find?_isSome_of_forall₂ hfilter fun _ _ => ReadsAs.allow
      simp only [evaluateStored, fieldsOf, hconstrained, listed_of_read hdeny, hfound, hmatching,
        listed_of_read hallow, hdenies, hallows, Option.bind_some, Option.bind_eq_bind,
        Option.pure_def, evaluatePolicyAccess]
      split_ifs <;> rfl
  | _ => cases h

/-- **On policies of the declared shape the decision is the one of rulesets.** -/
theorem decideStored_of_readRules {stored : List Json} {policies : List Policy}
    (h : List.Forall₂ (fun rules policy => readRules rules = some policy.rules) stored policies)
    (ctx : PolicyEvaluationContext) :
    decideStored stored ctx = some (decidePolicies policies ctx) := by
  have hall : ∀ allowReason, decideAllStored ctx allowReason stored
      = some (decideAll ctx allowReason policies) := by
    induction h with
    | nil => exact fun _ => rfl
    | cons hread _ ih =>
        intro allowReason
        rw [decideAllStored, evaluateStored_of_readRules hread, Option.bind_some, decideAll]
        split_ifs
        · exact ih _
        · rfl
  rw [decideStored, decidePolicies, h.length_eq, hall]
  split_ifs <;> rfl

end A2aAgentLayer.Policies.StoredRules
