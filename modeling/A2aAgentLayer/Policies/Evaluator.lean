import Mathlib.Data.Set.Basic
import Mathlib.Data.List.Forall2
import A2aAgentLayer.Lib.Utf16

/-!
# Policy evaluation

A ruleset denies by a denylist and by deny rules and grants by allow rules and by an allowlist; a
ruleset without any of these lets everything pass.  `evaluatePolicyAccess` is the evaluator, with
its precedence and its reasons, and `assertAllowed` asks every active policy of the target agent in
turn.

The evaluator computes a set: the contexts a ruleset grants and does not deny (`permitted`), and a
list of policies permits what each of them permits.  Order plays no part in these sets, more denials
shrink them and more grants enlarge them.
-/

namespace A2aAgentLayer.Policies.Evaluator

open A2aAgentLayer.Lib.Utf16

inductive PolicyEffect where
  | allow
  | deny
  deriving DecidableEq

/-- `none` stands for an absent list. -/
structure AccessRule where
  effect : PolicyEffect
  subjects : List JsString
  actions : Option (List JsString)
  resources : Option (List JsString)

structure PolicyEvaluationContext where
  subject : JsString
  action : JsString
  resource : JsString

structure PolicyRuleset where
  allowlist : Option (List JsString)
  denylist : Option (List JsString)
  accessRules : Option (List AccessRule)

/-- A row of `policies`. -/
structure Policy where
  agentId : JsString
  name : JsString
  rules : PolicyRuleset
  isActive : Bool

/-! ### Wildcards -/

/-- The regular expression of a pattern, unit by unit: `*` becomes `.*`, every other unit stands for
itself once escaped. -/
inductive Atom where
  | literal (u : CodeUnit)
  | dotStar
  deriving DecidableEq

def atoms (pattern : JsString) : List Atom :=
  pattern.map fun u => if u = unit '*' then .dotStar else .literal u

/-- Some suffix passes, after units that `.` matches. -/
def afterDots (test : JsString → Bool) : JsString → Bool
  | [] => test []
  | u :: rest => test (u :: rest) || (!isLineTerminator u && afterDots test rest)

/-- The anchored match. -/
def matchAtoms : List Atom → JsString → Bool
  | [], value => value.isEmpty
  | .literal _ :: _, [] => false
  | .literal u :: rest, v :: value => u == v && matchAtoms rest value
  | .dotStar :: rest, value => afterDots (matchAtoms rest) value

def matchWildcard (pattern value : JsString) : Bool :=
  if pattern = [unit '*'] then true else matchAtoms (atoms pattern) value

example : matchWildcard (js "did:prom:*") (js "did:prom:agent-1") = true := by decide

/-! ### One ruleset -/

/-- An absent or empty list of patterns matches everything. -/
def matchesAny (patterns : Option (List JsString)) (value : JsString) : Bool :=
  match patterns with
  | none => true
  | some [] => true
  | some patterns => patterns.any fun pattern => matchWildcard pattern value

def ruleApplies (rule : AccessRule) (ctx : PolicyEvaluationContext) : Bool :=
  matchesAny (some rule.subjects) ctx.subject && matchesAny rule.actions ctx.action
    && matchesAny rule.resources ctx.resource

structure Evaluation where
  allowed : Bool
  reason : String
  deriving DecidableEq

def hasAccessConstraints (rules : PolicyRuleset) : Bool :=
  decide (0 < (rules.accessRules.getD []).length) || decide (0 < (rules.allowlist.getD []).length)
    || decide (0 < (rules.denylist.getD []).length)

/-- `list?.some((pattern) => matchWildcard(pattern, subject))`. -/
def listed (patterns : Option (List JsString)) (subject : JsString) : Bool :=
  (patterns.getD []).any fun pattern => matchWildcard pattern subject

/-- Deny rules take precedence over allow rules, the allowlist comes last, and the default is to
deny. -/
def evaluatePolicyAccess (rules : PolicyRuleset) (ctx : PolicyEvaluationContext) : Evaluation :=
  if hasAccessConstraints rules = false then ⟨true, "no access constraints"⟩
  else if listed rules.denylist ctx.subject then ⟨false, "subject on denylist"⟩
  else
    let matching := (rules.accessRules.getD []).filter fun rule => ruleApplies rule ctx
    if (matching.find? fun rule => rule.effect = .deny).isSome then
      ⟨false, "matched deny access rule"⟩
    else if (matching.find? fun rule => rule.effect = .allow).isSome then
      ⟨true, "matched allow access rule"⟩
    else if listed rules.allowlist ctx.subject then ⟨true, "subject on allowlist"⟩
    else ⟨false, "no matching allow rule"⟩

/-! ### The policies of an agent -/

/-- What `recordPolicyDecision` counts; a denial is thrown as a `ForbiddenException`. -/
inductive PolicyDecision where
  | allow (reason : String)
  | deny (reason : String)
  deriving DecidableEq

def PolicyDecision.allows : PolicyDecision → Bool
  | .allow _ => true
  | .deny _ => false

/-- The message of the exception. -/
def forbiddenMessage (reason : String) : String := "Policy denied: " ++ reason

/-- The loop over the policies, with the reason of the latest one that allowed. -/
def decideAll (ctx : PolicyEvaluationContext) : String → List Policy → PolicyDecision
  | allowReason, [] => .allow allowReason
  | _, policy :: rest =>
      let result := evaluatePolicyAccess policy.rules ctx
      if result.allowed then decideAll ctx result.reason rest else .deny result.reason

/-- The decision for the active policies of the target agent. -/
def decidePolicies (policies : List Policy) (ctx : PolicyEvaluationContext) : PolicyDecision :=
  if policies.length = 0 then .allow "no active policy" else decideAll ctx "allowed" policies

/-- `find({ where: { agentId, isActive: true } })`. -/
def activePolicies (table : List Policy) (agentId : JsString) : List Policy :=
  table.filter fun policy => policy.agentId = agentId ∧ policy.isActive = true

def assertAllowed (table : List Policy) (agentId : JsString) (ctx : PolicyEvaluationContext) :
    PolicyDecision :=
  decidePolicies (activePolicies table agentId) ctx

/-! ### Permitted contexts -/

/-- The contexts a ruleset denies. -/
def denied (rules : PolicyRuleset) : Set PolicyEvaluationContext :=
  {ctx | (∃ pattern ∈ rules.denylist.getD [], matchWildcard pattern ctx.subject = true)
    ∨ ∃ rule ∈ rules.accessRules.getD [], rule.effect = .deny ∧ ruleApplies rule ctx = true}

/-- The contexts a ruleset grants. -/
def granted (rules : PolicyRuleset) : Set PolicyEvaluationContext :=
  {ctx | (∃ pattern ∈ rules.allowlist.getD [], matchWildcard pattern ctx.subject = true)
    ∨ ∃ rule ∈ rules.accessRules.getD [], rule.effect = .allow ∧ ruleApplies rule ctx = true}

/-- The contexts a ruleset lets pass. -/
def permitted (rules : PolicyRuleset) : Set PolicyEvaluationContext :=
  {ctx | hasAccessConstraints rules = false ∨ ctx ∈ granted rules \ denied rules}

/-- **The evaluator computes the permitted set.** -/
theorem evaluatePolicyAccess_allowed_iff (rules : PolicyRuleset) (ctx : PolicyEvaluationContext) :
    (evaluatePolicyAccess rules ctx).allowed = true ↔ ctx ∈ permitted rules := by
  have hfind : ∀ effect : PolicyEffect,
      (((rules.accessRules.getD []).filter fun rule => ruleApplies rule ctx).find?
        fun rule => rule.effect = effect).isSome = true
        ↔ ∃ rule ∈ rules.accessRules.getD [], rule.effect = effect
          ∧ ruleApplies rule ctx = true := by
    intro effect
    simp only [List.find?_isSome, List.mem_filter, decide_eq_true_eq]
    exact ⟨fun ⟨r, ⟨hr, ha⟩, he⟩ => ⟨r, hr, he, ha⟩, fun ⟨r, hr, he, ha⟩ => ⟨r, ⟨hr, ha⟩, he⟩⟩
  have hlisted : ∀ patterns : Option (List JsString), listed patterns ctx.subject = true
      ↔ ∃ pattern ∈ patterns.getD [], matchWildcard pattern ctx.subject = true :=
    fun patterns => List.any_eq_true
  rw [evaluatePolicyAccess, permitted, Set.mem_ofPred_eq, Set.mem_sdiff, granted, denied,
    Set.mem_ofPred_eq, Set.mem_ofPred_eq, ← hfind, ← hfind, ← hlisted, ← hlisted]
  simp only
  split_ifs <;> simp_all

theorem allows_decideAll (ctx : PolicyEvaluationContext) (allowReason : String)
    (policies : List Policy) :
    (decideAll ctx allowReason policies).allows = true
      ↔ ∀ policy ∈ policies, ctx ∈ permitted policy.rules := by
  induction policies generalizing allowReason with
  | nil => simp [decideAll, PolicyDecision.allows]
  | cons policy rest ih =>
      rw [decideAll, List.forall_mem_cons, ← evaluatePolicyAccess_allowed_iff]
      split_ifs with hallowed
      · rw [ih]
        exact (and_iff_right hallowed).symm
      · exact ⟨fun h => (Bool.false_ne_true h).elim, fun h => (hallowed h.1).elim⟩

/-- **A list of policies permits what each of them permits.** -/
theorem allows_decidePolicies (policies : List Policy) (ctx : PolicyEvaluationContext) :
    (decidePolicies policies ctx).allows = true
      ↔ ∀ policy ∈ policies, ctx ∈ permitted policy.rules := by
  rw [decidePolicies]
  split_ifs with hempty
  · rw [List.length_eq_zero_iff] at hempty
    simp [hempty, PolicyDecision.allows]
  · exact allows_decideAll ctx "allowed" policies

/-- A ruleset that denies more and grants less, and has constraints if the other one has, permits
less. -/
theorem permitted_subset {rules rules' : PolicyRuleset}
    (hconstrained : hasAccessConstraints rules = true → hasAccessConstraints rules' = true)
    (hdenied : denied rules ⊆ denied rules') (hgranted : granted rules' ⊆ granted rules) :
    permitted rules' ⊆ permitted rules := by
  rintro ctx (hfree | ⟨hin, hout⟩)
  · refine .inl ?_
    rw [Bool.eq_false_iff] at hfree ⊢
    exact fun h => hfree (hconstrained h)
  · exact .inr ⟨hgranted hin, fun h => hout (hdenied h)⟩

/-! ### Reordering -/

/-- The same rule with its patterns in another order. -/
structure RuleReordered (rule rule' : AccessRule) : Prop where
  effect : rule.effect = rule'.effect
  subjects : rule.subjects.Perm rule'.subjects
  actions : Option.Rel List.Perm rule.actions rule'.actions
  resources : Option.Rel List.Perm rule.resources rule'.resources

/-- The same list up to order, entry by entry in the relation `R`. -/
def ReorderedBy {α : Type*} (R : α → α → Prop) (xs ys : List α) : Prop :=
  ∃ zs, List.Forall₂ R xs zs ∧ zs.Perm ys

/-- The same ruleset with its rules, its lists and the patterns of its rules in another order. -/
structure RulesetReordered (rules rules' : PolicyRuleset) : Prop where
  allowlist : Option.Rel List.Perm rules.allowlist rules'.allowlist
  denylist : Option.Rel List.Perm rules.denylist rules'.denylist
  accessRules : Option.Rel (ReorderedBy RuleReordered) rules.accessRules rules'.accessRules

/-- The same policies in another order, each with its ruleset reordered. -/
def Reordered : List Policy → List Policy → Prop :=
  ReorderedBy fun policy policy' => RulesetReordered policy.rules policy'.rules

theorem exists_of_mem_left {α : Type*} {R : α → α → Prop} {xs zs : List α}
    (h : List.Forall₂ R xs zs) {x : α} (hx : x ∈ xs) : ∃ z ∈ zs, R x z := by
  induction h with
  | nil => cases hx
  | cons hab _ ih =>
      rcases List.mem_cons.mp hx with rfl | hx
      · exact ⟨_, List.mem_cons_self, hab⟩
      · obtain ⟨z, hz, hxz⟩ := ih hx
        exact ⟨z, List.mem_cons_of_mem _ hz, hxz⟩

/-- A property that related entries share holds of an entry of one list when it does of the
other. -/
theorem ReorderedBy.exists_iff {α : Type*} {R : α → α → Prop} {xs ys : List α} {P : α → Prop}
    (h : ReorderedBy R xs ys) (hP : ∀ x y, R x y → (P x ↔ P y)) :
    (∃ x ∈ xs, P x) ↔ ∃ y ∈ ys, P y := by
  obtain ⟨zs, hall, hperm⟩ := h
  constructor
  · rintro ⟨x, hx, hpx⟩
    obtain ⟨z, hz, hxz⟩ := exists_of_mem_left hall hx
    exact ⟨z, hperm.mem_iff.mp hz, (hP x z hxz).mp hpx⟩
  · rintro ⟨y, hy, hpy⟩
    obtain ⟨x, hx, hxy⟩ := exists_of_mem_left hall.flip (hperm.mem_iff.mpr hy)
    exact ⟨x, hx, (hP x y hxy).mpr hpy⟩

theorem ReorderedBy.length_eq {α : Type*} {R : α → α → Prop} {xs ys : List α}
    (h : ReorderedBy R xs ys) : xs.length = ys.length := by
  obtain ⟨zs, hall, hperm⟩ := h
  exact hall.length_eq.trans hperm.length_eq

theorem perm_getD {α : Type*} {xs ys : Option (List α)} (h : Option.Rel List.Perm xs ys) :
    (xs.getD []).Perm (ys.getD []) := by
  cases h with
  | none => exact .rfl
  | some h => exact h

theorem reorderedBy_getD {α : Type*} {R : α → α → Prop} {xs ys : Option (List α)}
    (h : Option.Rel (ReorderedBy R) xs ys) : ReorderedBy R (xs.getD []) (ys.getD []) := by
  cases h with
  | none => exact ⟨[], .nil, .rfl⟩
  | some h => exact h

theorem matchesAny_reordered {patterns patterns' : Option (List JsString)}
    (h : Option.Rel List.Perm patterns patterns') (value : JsString) :
    matchesAny patterns value = matchesAny patterns' value := by
  have hsome : ∀ l : List JsString, matchesAny (some l) value
      = (l.isEmpty || l.any fun pattern => matchWildcard pattern value) := by
    rintro (_ | ⟨pattern, l⟩) <;> rfl
  cases h with
  | none => rfl
  | some h => rw [hsome, hsome, h.any_eq, h.isEmpty_eq]

theorem ruleApplies_reordered {rule rule' : AccessRule} (h : RuleReordered rule rule')
    (ctx : PolicyEvaluationContext) : ruleApplies rule ctx = ruleApplies rule' ctx := by
  rw [ruleApplies, ruleApplies, matchesAny_reordered (.some h.subjects),
    matchesAny_reordered h.actions, matchesAny_reordered h.resources]

/-- Reordering inside a ruleset changes no set. -/
theorem permitted_reordered {rules rules' : PolicyRuleset} (h : RulesetReordered rules rules') :
    permitted rules = permitted rules' := by
  have hrules := reorderedBy_getD h.accessRules
  have heffect : ∀ effect : PolicyEffect, ∀ ctx : PolicyEvaluationContext,
      (∃ rule ∈ rules.accessRules.getD [], rule.effect = effect ∧ ruleApplies rule ctx = true)
        ↔ ∃ rule ∈ rules'.accessRules.getD [], rule.effect = effect
          ∧ ruleApplies rule ctx = true :=
    fun effect ctx => hrules.exists_iff fun rule rule' hr => by
      rw [hr.effect, ruleApplies_reordered hr]
  ext ctx
  simp only [permitted, granted, denied, hasAccessConstraints, Set.mem_ofPred_eq, Set.mem_sdiff,
    heffect, hrules.length_eq, (perm_getD h.allowlist).length_eq,
    (perm_getD h.denylist).length_eq, (perm_getD h.allowlist).mem_iff,
    (perm_getD h.denylist).mem_iff]

theorem allows_reordered {policies policies' : List Policy} (h : Reordered policies policies')
    (ctx : PolicyEvaluationContext) :
    (decidePolicies policies ctx).allows = (decidePolicies policies' ctx).allows := by
  have hexists := h.exists_iff (P := fun policy => ctx ∉ permitted policy.rules)
    fun policy policy' hp => by rw [permitted_reordered hp]
  rw [Bool.eq_iff_iff, allows_decidePolicies, allows_decidePolicies]
  rw [← not_iff_not]
  push Not
  exact hexists

/-! ### Tightening and widening -/

/-- `ys` is `xs` with `added` at some place. -/
def InsertedIn {α : Type*} (added : α) (xs ys : List α) : Prop :=
  ∃ front back, xs = front ++ back ∧ ys = front ++ added :: back

def Policy.setAllowlist (policy : Policy) (allowlist : List JsString) : Policy :=
  { policy with rules := { policy.rules with allowlist := some allowlist } }

def Policy.setDenylist (policy : Policy) (denylist : List JsString) : Policy :=
  { policy with rules := { policy.rules with denylist := some denylist } }

def Policy.setAccessRules (policy : Policy) (accessRules : List AccessRule) : Policy :=
  { policy with rules := { policy.rules with accessRules := some accessRules } }

/-- One more denial: an active policy, a denylist pattern or a deny rule. -/
inductive Tightened : List Policy → List Policy → Prop
  | policy {front back : List Policy} (added : Policy) :
      Tightened (front ++ back) (front ++ added :: back)
  | denylist {front back : List Policy} {policy : Policy} {pattern : JsString}
      {denylist : List JsString}
      (h : InsertedIn pattern (policy.rules.denylist.getD []) denylist) :
      Tightened (front ++ policy :: back)
        (front ++ policy.setDenylist denylist :: back)
  | denyRule {front back : List Policy} {policy : Policy} {rule : AccessRule}
      {accessRules : List AccessRule} (heffect : rule.effect = .deny)
      (h : InsertedIn rule (policy.rules.accessRules.getD []) accessRules) :
      Tightened (front ++ policy :: back)
        (front ++ policy.setAccessRules accessRules :: back)

/-- One more grant in a policy that has a constraint: an allowlist pattern or an allow rule. -/
inductive Widened : List Policy → List Policy → Prop
  | allowlist {front back : List Policy} {policy : Policy} {pattern : JsString}
      {allowlist : List JsString} (hconstrained : hasAccessConstraints policy.rules = true)
      (h : InsertedIn pattern (policy.rules.allowlist.getD []) allowlist) :
      Widened (front ++ policy :: back)
        (front ++ policy.setAllowlist allowlist :: back)
  | allowRule {front back : List Policy} {policy : Policy} {rule : AccessRule}
      {accessRules : List AccessRule} (hconstrained : hasAccessConstraints policy.rules = true)
      (heffect : rule.effect = .allow)
      (h : InsertedIn rule (policy.rules.accessRules.getD []) accessRules) :
      Widened (front ++ policy :: back)
        (front ++ policy.setAccessRules accessRules :: back)

theorem InsertedIn.mem_iff {α : Type*} {added : α} {xs ys : List α} (h : InsertedIn added xs ys)
    {a : α} : a ∈ ys ↔ a = added ∨ a ∈ xs := by
  obtain ⟨front, back, rfl, rfl⟩ := h
  simp only [List.mem_append, List.mem_cons]
  tauto

theorem InsertedIn.exists_iff {α : Type*} {added : α} {xs ys : List α} {P : α → Prop}
    (h : InsertedIn added xs ys) : (∃ a ∈ ys, P a) ↔ P added ∨ ∃ a ∈ xs, P a := by
  simp only [h.mem_iff, or_and_right, exists_or, exists_eq_left]

theorem InsertedIn.length_pos {α : Type*} {added : α} {xs ys : List α}
    (h : InsertedIn added xs ys) : 0 < ys.length :=
  List.length_pos_of_mem (h.mem_iff.mpr (.inl rfl))

theorem forall_mem_replaced {front back : List Policy} {policy policy' : Policy}
    {ctx : PolicyEvaluationContext} (h : permitted policy'.rules ⊆ permitted policy.rules)
    (hall : ∀ p ∈ front ++ policy' :: back, ctx ∈ permitted p.rules) :
    ∀ p ∈ front ++ policy :: back, ctx ∈ permitted p.rules := by
  simp only [List.forall_mem_append, List.forall_mem_cons] at hall ⊢
  exact ⟨hall.1, h hall.2.1, hall.2.2⟩

/-- What a tightened list permits was permitted before. -/
theorem permits_of_tightened {policies policies' : List Policy} (h : Tightened policies policies')
    {ctx : PolicyEvaluationContext} (hall : ∀ p ∈ policies', ctx ∈ permitted p.rules) :
    ∀ p ∈ policies, ctx ∈ permitted p.rules := by
  cases h with
  | policy added =>
      simp only [List.forall_mem_append, List.forall_mem_cons] at hall ⊢
      exact ⟨hall.1, hall.2.2⟩
  | denylist h =>
      refine forall_mem_replaced ?_ hall
      refine permitted_subset (fun _ => ?_) ?_ subset_rfl
      · simp [hasAccessConstraints, Policy.setDenylist, h.length_pos]
      · exact fun ctx hctx => hctx.imp_left fun hlist => h.exists_iff.mpr (.inr hlist)
  | denyRule heffect h =>
      refine forall_mem_replaced ?_ hall
      refine permitted_subset (fun _ => ?_) ?_ ?_
      · simp [hasAccessConstraints, Policy.setAccessRules, h.length_pos]
      · exact fun ctx hctx => hctx.imp_right fun hrule => h.exists_iff.mpr (.inr hrule)
      · exact fun ctx hctx => hctx.imp_right fun hrule => (h.exists_iff.mp hrule).resolve_left
          fun hadded => absurd (heffect.symm.trans hadded.1) nofun

/-- What a list permits stays permitted once it is widened. -/
theorem permits_of_widened {policies policies' : List Policy} (h : Widened policies policies')
    {ctx : PolicyEvaluationContext} (hall : ∀ p ∈ policies, ctx ∈ permitted p.rules) :
    ∀ p ∈ policies', ctx ∈ permitted p.rules := by
  cases h with
  | allowlist hconstrained h =>
      refine forall_mem_replaced ?_ hall
      refine permitted_subset (fun _ => hconstrained) subset_rfl ?_
      exact fun ctx hctx => hctx.imp_left fun hlist => h.exists_iff.mpr (.inr hlist)
  | allowRule hconstrained heffect h =>
      refine forall_mem_replaced ?_ hall
      refine permitted_subset (fun _ => hconstrained) ?_ ?_
      · exact fun ctx hctx => hctx.imp_right fun hrule => (h.exists_iff.mp hrule).resolve_left
          fun hadded => absurd (heffect.symm.trans hadded.1) nofun
      · exact fun ctx hctx => hctx.imp_right fun hrule => h.exists_iff.mpr (.inr hrule)

end A2aAgentLayer.Policies.Evaluator
