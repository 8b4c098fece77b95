import A2aAgentLayer.Policies.Evaluator

/-!
# Who a constrained ruleset lets in

A rule applies when its subjects, its actions and its resources do, and an empty or absent list
applies to everything.  For actions and resources that is how a rule says "any"; an allow rule whose
list of subjects is empty says it of subjects as well.  Apart from such open rules, a ruleset with
constraints lets in only subjects that a pattern of its author matches.
-/

namespace A2aAgentLayer.Policies.DefaultDeny

open A2aAgentLayer.Lib.Utf16 A2aAgentLayer.Policies.Evaluator

/-- The actions and the resources of a rule apply. -/
def Covers (rule : AccessRule) (ctx : PolicyEvaluationContext) : Prop :=
  matchesAny rule.actions ctx.action = true ∧ matchesAny rule.resources ctx.resource = true

/-- One of the patterns matches the subject. -/
def Matches (patterns : List JsString) (subject : JsString) : Prop :=
  ∃ pattern ∈ patterns, matchWildcard pattern subject = true

/-- A pattern of the allowlist or of a covering allow rule matches the subject. -/
def LetIn (rules : PolicyRuleset) (ctx : PolicyEvaluationContext) : Prop :=
  Matches (rules.allowlist.getD []) ctx.subject
    ∨ ∃ rule ∈ rules.accessRules.getD [], rule.effect = .allow ∧ Covers rule ctx
      ∧ Matches rule.subjects ctx.subject

/-- A covering allow rule has no subjects. -/
def OpenToAll (rules : PolicyRuleset) (ctx : PolicyEvaluationContext) : Prop :=
  ∃ rule ∈ rules.accessRules.getD [], rule.effect = .allow ∧ Covers rule ctx
    ∧ rule.subjects = []

/-- A pattern of the denylist matches the subject, or a deny rule applies. -/
def KeptOut (rules : PolicyRuleset) (ctx : PolicyEvaluationContext) : Prop :=
  Matches (rules.denylist.getD []) ctx.subject
    ∨ ∃ rule ∈ rules.accessRules.getD [], rule.effect = .deny ∧ ruleApplies rule ctx = true

theorem matchesAny_iff {patterns : List JsString} {value : JsString} :
    matchesAny (some patterns) value = true ↔ patterns = [] ∨ Matches patterns value := by
  cases patterns with
  | nil => exact iff_of_true rfl (.inl rfl)
  | cons pattern rest =>
      rw [or_iff_right (List.cons_ne_nil _ _), Matches, ← List.any_eq_true]
      rfl

/-- A rule applies when it covers the context and matches the subject or has no subjects. -/
theorem ruleApplies_iff {rule : AccessRule} {ctx : PolicyEvaluationContext} :
    ruleApplies rule ctx = true ↔
      Covers rule ctx ∧ (rule.subjects = [] ∨ Matches rule.subjects ctx.subject) := by
  rw [ruleApplies, Bool.and_eq_true, Bool.and_eq_true, matchesAny_iff, Covers]
  tauto

/-- **What a constrained ruleset allows.** -/
theorem allowed_iff {rules : PolicyRuleset} (h : hasAccessConstraints rules = true)
    (ctx : PolicyEvaluationContext) :
    (evaluatePolicyAccess rules ctx).allowed = true
      ↔ (LetIn rules ctx ∨ OpenToAll rules ctx) ∧ ¬ KeptOut rules ctx := by
  have hgranted : ctx ∈ granted rules ↔ LetIn rules ctx ∨ OpenToAll rules ctx := by
    rw [granted, Set.mem_ofPred_eq, LetIn, OpenToAll, or_assoc, ← exists_or]
    refine or_congr_right (exists_congr fun rule => ?_)
    rw [ruleApplies_iff]
    tauto
  have hdenied : ctx ∈ denied rules ↔ KeptOut rules ctx := Iff.rfl
  rw [evaluatePolicyAccess_allowed_iff, permitted, Set.mem_ofPred_eq, h, Set.mem_sdiff, hgranted,
    hdenied]
  simp only [Bool.true_eq_false, false_or]

/-- **The default is deny.**  What a ruleset with constraints allows is let in by a pattern of the
allowlist, by a pattern of an allow rule that covers the context, or by such a rule without
subjects; and no pattern of the denylist and no deny rule keeps it out. -/
theorem allowed_of_constrained {rules : PolicyRuleset} (h : hasAccessConstraints rules = true)
    {ctx : PolicyEvaluationContext} (hallowed : (evaluatePolicyAccess rules ctx).allowed = true) :
    (LetIn rules ctx ∨ OpenToAll rules ctx) ∧ ¬ KeptOut rules ctx :=
  (allowed_iff h ctx).mp hallowed

/-! A ruleset with a denylist and an allow rule, and one whose allow rule has no subjects. -/

def guardrails : PolicyRuleset where
  allowlist := none
  denylist := some [js "did:prom:quarantine"]
  accessRules := some [⟨.allow, [js "did:prom:*"], some [js "invoke"], none⟩]

theorem allowed_of_constrained_guardrails :
    (LetIn guardrails ⟨js "did:prom:agent-1", js "invoke", js "svc-1"⟩
        ∨ OpenToAll guardrails ⟨js "did:prom:agent-1", js "invoke", js "svc-1"⟩)
      ∧ ¬ KeptOut guardrails ⟨js "did:prom:agent-1", js "invoke", js "svc-1"⟩ :=
  allowed_of_constrained (by decide) (by decide)

def noSubjects : PolicyRuleset where
  allowlist := none
  denylist := none
  accessRules := some [⟨.allow, [], some [js "invoke"], none⟩]

/-- An allow rule without subjects lets everybody in, and no pattern matches. -/
theorem noSubjects_allows :
    hasAccessConstraints noSubjects = true
      ∧ evaluatePolicyAccess noSubjects ⟨js "did:prom:guest", js "invoke", js "svc-1"⟩
          = ⟨true, "matched allow access rule"⟩
      ∧ ¬ LetIn noSubjects ⟨js "did:prom:guest", js "invoke", js "svc-1"⟩ := by
  refine ⟨by decide, by decide, ?_⟩
  rintro (⟨pattern, hpattern, -⟩ | ⟨rule, hrule, -, -, pattern, hpattern, -⟩)
  · cases hpattern
  · rw [noSubjects] at hrule
    obtain rfl := List.mem_singleton.mp hrule
    cases hpattern

end A2aAgentLayer.Policies.DefaultDeny
