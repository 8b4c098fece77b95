import Mathlib.Data.List.Chain
import Mathlib.Data.List.DropRight
import A2aAgentLayer.Identity.DidController
import A2aAgentLayer.Lib.KeyedStore
import A2aAgentLayer.Lib.Run
import A2aAgentLayer.Policies.Evaluator

/-!
# Counting policy decisions

`assertAllowed` reads the active policies of an agent, decides, and counts its decision under a
label made from the reason.  Calls overlap with each other and with changes of the policies; a call
decides on the rows its own query returns, in whatever order the database returns them.
-/

namespace A2aAgentLayer.Observability.DecisionMetrics

open A2aAgentLayer.Lib.Utf16 A2aAgentLayer.Lib.KeyedStore A2aAgentLayer.Lib.Run
open A2aAgentLayer.Identity.DidController (lowerUnit)
open A2aAgentLayer.Policies.Evaluator

/-! ### Labels -/

/-- `toLowerCase`, known for ASCII text only. -/
structure LowerCase where
  apply : JsString → JsString
  ascii : ∀ s : JsString, (s.all fun u => u < 128) = true → apply s = s.map lowerUnit

/-- `[a-z0-9]`. -/
def isSlugUnit (u : CodeUnit) : Bool := isDigitUnit u || (unit 'a' ≤ u && u ≤ unit 'z')

/-- `replace(/[^a-z0-9]+/g, '_')`: the last unit of each run becomes the underscore. -/
def underscored : JsString → JsString
  | [] => []
  | u :: rest =>
      if isSlugUnit u then u :: underscored rest
      else if rest.head?.any fun v => !isSlugUnit v then underscored rest
      else unit '_' :: underscored rest

def isUnderscore (u : CodeUnit) : Bool := u == unit '_'

/-- `replace(/^_+|_+$/g, '')`. -/
def stripped (s : JsString) : JsString := (s.dropWhile isUnderscore).rdropWhile isUnderscore

def reasonLabel (lower : LowerCase) (reason : JsString) : JsString :=
  let label := (stripped (underscored (lower.apply reason))).take 48
  if label = [] then js "unspecified" else label

/-- What every label looks like. -/
structure LabelShape (label : JsString) : Prop where
  nonempty : label ≠ []
  short : label.length ≤ 48
  units : ∀ u ∈ label, isSlugUnit u = true ∨ u = unit '_'
  front : label.head? ≠ some (unit '_')
  single : label.IsChain fun u v => ¬ (u = unit '_' ∧ v = unit '_')

theorem units_underscored (s : JsString) :
    ∀ u ∈ underscored s, isSlugUnit u = true ∨ u = unit '_' := by
  induction s with
  | nil => exact fun _ h => absurd h List.not_mem_nil
  | cons v rest ih =>
      intro u hu
      rw [underscored] at hu
      split_ifs at hu with hslug hrun
      · rcases List.mem_cons.mp hu with rfl | hu
        · exact .inl hslug
        · exact ih u hu
      · exact ih u hu
      · rcases List.mem_cons.mp hu with rfl | hu
        · exact .inr rfl
        · exact ih u hu

/-- What stands behind a run does not begin with an underscore. -/
theorem head_underscored {s : JsString} (h : (s.head?.any fun v => !isSlugUnit v) = false) :
    (underscored s).head? = s.head? := by
  cases s with
  | nil => rfl
  | cons u rest =>
      have hslug : isSlugUnit u = true := by simpa using h
      rw [underscored, if_pos hslug]
      rfl

theorem single_underscored (s : JsString) :
    (underscored s).IsChain fun u v => ¬ (u = unit '_' ∧ v = unit '_') := by
  have hslug : isSlugUnit (unit '_') = false := by decide
  induction s with
  | nil => exact .nil
  | cons u rest ih =>
      rw [underscored]
      split_ifs with hu hrun
      · refine ih.cons fun v _ hboth => ?_
        rw [hboth.1, hslug] at hu
        cases hu
      · exact ih
      · rw [Bool.not_eq_true] at hrun
        refine ih.cons fun v hv hboth => ?_
        rw [head_underscored hrun] at hv
        rw [Option.mem_def.mp hv, hboth.2, Option.any_some, hslug] at hrun
        cases hrun

/-- **Every reason, whatever its text, gives a label.** -/
theorem labelShape_reasonLabel (lower : LowerCase) (reason : JsString) :
    LabelShape (reasonLabel lower reason) := by
  rw [reasonLabel]
  split_ifs with hempty
  · have hslug : (js "unspecified").all isSlugUnit = true := rfl
    exact ⟨by decide, by decide, fun u hu => .inl (List.all_eq_true.mp hslug u hu), by decide,
      by decide⟩
  · have hprefix : (stripped (underscored (lower.apply reason))).take 48
        <+: (underscored (lower.apply reason)).dropWhile isUnderscore :=
      (List.take_prefix 48 _).trans (List.rdropWhile_prefix _ _)
    have hpart := hprefix.isInfix.trans (List.dropWhile_suffix isUnderscore).isInfix
    refine ⟨hempty, List.length_take_le 48 _, fun u hu =>
      units_underscored _ u (hpart.subset hu), fun hhead => ?_,
      List.IsChain.infix (single_underscored _) hpart⟩
    obtain ⟨tail, htail⟩ := List.head?_eq_some_iff.mp hhead
    obtain ⟨rest, hrest⟩ := hprefix
    rw [htail, List.cons_append] at hrest
    have hnot := List.head_dropWhile_not isUnderscore
      (l := underscored (lower.apply reason)) (by rw [← hrest]; exact List.cons_ne_nil _ _)
    simp only [← hrest, List.head_cons] at hnot
    exact absurd hnot (by decide)

/-! ### Decisions -/

/-- The decisions there are. -/
def decisions : List PolicyDecision :=
  [ .allow "no active policy", .allow "no access constraints", .allow "matched allow access rule",
    .allow "subject on allowlist", .deny "subject on denylist", .deny "matched deny access rule",
    .deny "no matching allow rule" ]

inductive DecisionLabel where
  | allow
  | deny
  deriving DecidableEq

/-- The series of `policy_decisions_total` that a decision is counted in. -/
def series (lower : LowerCase) : PolicyDecision → DecisionLabel × JsString
  | .allow reason => (.allow, reasonLabel lower (js reason))
  | .deny reason => (.deny, reasonLabel lower (js reason))

/-- The label of a reason in lower case. -/
def plainLabel (reason : String) : JsString := (stripped (underscored (js reason))).take 48

theorem reasonLabel_plain (lower : LowerCase) {reason : String}
    (h : ((js reason).all fun u => u < 128 && lowerUnit u == u) = true)
    (hne : plainLabel reason ≠ []) : reasonLabel lower (js reason) = plainLabel reason := by
  have hboth : ∀ u ∈ js reason, u < 128 ∧ lowerUnit u = u := by
    intro u hu
    simpa using List.all_eq_true.mp h u hu
  have hlower : lower.apply (js reason) = js reason := by
    rw [lower.ascii _ (List.all_eq_true.mpr fun u hu => decide_eq_true (hboth u hu).1)]
    conv_rhs => rw [← List.map_id (js reason)]
    exact List.map_congr_left fun u hu => (hboth u hu).2
  rw [reasonLabel, hlower]
  exact if_neg hne

/-- The series of a decision whose reason is in lower case. -/
def plainSeries : PolicyDecision → DecisionLabel × JsString
  | .allow reason => (.allow, plainLabel reason)
  | .deny reason => (.deny, plainLabel reason)

theorem series_eq_plainSeries (lower : LowerCase) {d : PolicyDecision} (hd : d ∈ decisions) :
    series lower d = plainSeries d := by
  simp only [decisions, List.mem_cons, List.not_mem_nil, or_false] at hd
  rcases hd with rfl | rfl | rfl | rfl | rfl | rfl | rfl
  all_goals exact congrArg (Prod.mk _) (reasonLabel_plain lower (by decide) (by decide))

/-- **Different decisions are counted in different series.** -/
theorem series_inj (lower : LowerCase) {d d' : PolicyDecision} (hd : d ∈ decisions)
    (hd' : d' ∈ decisions) (h : series lower d = series lower d') : d = d' := by
  have hall : ∀ d ∈ decisions, ∀ d' ∈ decisions, plainSeries d = plainSeries d' → d = d' := by
    decide
  rw [series_eq_plainSeries lower hd, series_eq_plainSeries lower hd'] at h
  exact hall d hd d' hd' h

/-- No decision is counted in the series that is set up at the start. -/
theorem series_ne_none (lower : LowerCase) {d : PolicyDecision} (hd : d ∈ decisions) :
    series lower d ≠ (.deny, js "none") := by
  have hall : ∀ d ∈ decisions, plainSeries d ≠ (.deny, js "none") := by decide
  rw [series_eq_plainSeries lower hd]
  exact hall d hd

theorem reason_mem (rules : PolicyRuleset) (ctx : PolicyEvaluationContext) :
    ((evaluatePolicyAccess rules ctx).allowed = true
        ∧ PolicyDecision.allow (evaluatePolicyAccess rules ctx).reason ∈ decisions)
      ∨ ((evaluatePolicyAccess rules ctx).allowed = false
        ∧ PolicyDecision.deny (evaluatePolicyAccess rules ctx).reason ∈ decisions) := by
  rw [evaluatePolicyAccess]
  simp only
  split_ifs <;> decide

/-- **The reasons are a fixed set.** -/
theorem decidePolicies_mem (policies : List Policy) (ctx : PolicyEvaluationContext) :
    decidePolicies policies ctx ∈ decisions := by
  have hall : ∀ (policies : List Policy) (reason : String),
      PolicyDecision.allow reason ∈ decisions → decideAll ctx reason policies ∈ decisions := by
    intro policies
    induction policies with
    | nil => exact fun _ h => h
    | cons policy rest ih =>
        intro reason _
        rw [decideAll]
        rcases reason_mem policy.rules ctx with ⟨hallowed, hmem⟩ | ⟨hdenied, hmem⟩
        · rw [if_pos hallowed]
          exact ih _ hmem
        · rw [if_neg (by simp [hdenied])]
          exact hmem
  rw [decidePolicies]
  split_ifs with hempty
  · decide
  · obtain ⟨policy, rest, rfl⟩ := List.exists_cons_of_ne_nil
      (fun h => hempty (List.length_eq_zero_iff.mpr h))
    rw [decideAll]
    rcases reason_mem policy.rules ctx with ⟨hallowed, hmem⟩ | ⟨hdenied, hmem⟩
    · rw [if_pos hallowed]
      exact hall rest _ hmem
    · rw [if_neg (by simp [hdenied])]
      exact hmem

/-! ### Calls and counters -/

inductive Progress where
  | querying
  | decided (decision : PolicyDecision)
  | failed
  deriving DecidableEq

/-- A call of `assertAllowed`. -/
structure Call where
  agentId : JsString
  ctx : PolicyEvaluationContext
  progress : Progress

/-- The order in which the database returns rows. -/
structure RowOrder where
  rows : List Policy → List Policy
  perm : ∀ policies, (rows policies).Perm policies

abbrev Counters := Store (DecisionLabel × JsString) ℕ

/-- `inc`. -/
def inc (counters : Counters) (key : DecisionLabel × JsString) (value : ℕ) : Counters :=
  counters.insert key ((counters.lookup key).getD 0 + value)

structure State where
  policies : List Policy
  calls : List Call
  counters : Counters

/-- The constructor of the metrics sets one series up. -/
def initial : State := ⟨[], [], inc ∅ (.deny, js "none") 0⟩

inductive Event where
  /-- Others write to the table. -/
  | commit (policies : List Policy)
  | call (agentId : JsString) (ctx : PolicyEvaluationContext)
  /-- The query of a call is answered, and the call decides. -/
  | answer (i : ℕ) (order : RowOrder)
  /-- The query of a call fails, and the call throws without a decision. -/
  | fail (i : ℕ)

/-- `find` and the rest of `assertAllowed`. -/
def Call.verdict (policies : List Policy) (order : RowOrder) (c : Call) : PolicyDecision :=
  decidePolicies (order.rows (activePolicies policies c.agentId)) c.ctx

def step (lower : LowerCase) (s : State) : Event → Option State
  | .commit policies => some { s with policies := policies }
  | .call agentId ctx => some { s with calls := s.calls ++ [⟨agentId, ctx, .querying⟩] }
  | .answer i order =>
      match s.calls[i]? with
      | some ⟨agentId, ctx, .querying⟩ =>
          let c : Call := ⟨agentId, ctx, .querying⟩
          let decision := c.verdict s.policies order
          some { s with
            calls := s.calls.set i { c with progress := .decided decision }
            counters := inc s.counters (series lower decision) 1 }
      | _ => none
  | .fail i =>
      match s.calls[i]? with
      | some ⟨agentId, ctx, .querying⟩ =>
          some { s with calls := s.calls.set i ⟨agentId, ctx, .failed⟩ }
      | _ => none

/-- How many calls came to a decision. -/
def count (calls : List Call) (d : PolicyDecision) : ℕ :=
  calls.countP fun c => decide (c.progress = .decided d)

/-- The counters are those of the calls. -/
structure Counted (lower : LowerCase) (s : State) : Prop where
  value : ∀ d ∈ decisions, (s.counters.lookup (series lower d)).getD 0 = count s.calls d
  keys : ∀ key, (s.counters.lookup key).isSome = true →
    key = (.deny, js "none") ∨ ∃ d ∈ decisions, key = series lower d
  decided : ∀ c ∈ s.calls, ∀ d, c.progress = .decided d → d ∈ decisions

/-- Each decision is that of the policies at the moment its query was answered. -/
def DecidedAt (lower : LowerCase) (es : List Event) (s : State) : Prop :=
  ∀ i c d, s.calls[i]? = some c → c.progress = .decided d →
    ∃ es₁ order es₂ m, es = es₁ ++ .answer i order :: es₂ ∧ run (step lower) initial es₁ = some m
      ∧ d = c.verdict m.policies order
      ∧ (d.allows = true
        ↔ ∀ policy ∈ activePolicies m.policies c.agentId, c.ctx ∈ permitted policy.rules)

theorem lookup_inc (counters : Counters) (key key' : DecisionLabel × JsString) (value : ℕ) :
    ((inc counters key value).lookup key').getD 0
      = (counters.lookup key').getD 0 + if key = key' then value else 0 := by
  rw [inc]
  by_cases h : key = key'
  · subst h
    rw [lookup_insert_self, if_pos rfl, Option.getD_some]
  · rw [lookup_insert_of_ne _ _ (Ne.symm h), if_neg h, Nat.add_zero]

theorem isSome_lookup_inc {counters : Counters} {key key' : DecisionLabel × JsString} {value : ℕ}
    (h : ((inc counters key value).lookup key').isSome = true) :
    key' = key ∨ (counters.lookup key').isSome = true := by
  by_cases hkey : key = key'
  · exact .inl hkey.symm
  · rw [inc, lookup_insert_of_ne _ _ (Ne.symm hkey)] at h
    exact .inr h

/-- A call that leaves its query for another state. -/
theorem count_set {calls : List Call} {i : ℕ} {c : Call} (hc : calls[i]? = some c)
    (hquerying : c.progress = .querying) (c' : Call) (d : PolicyDecision) :
    count (calls.set i c') d = count calls d + if c'.progress = .decided d then 1 else 0 := by
  obtain ⟨hi, hget⟩ := List.getElem?_eq_some_iff.mp hc
  have hnot : decide (calls[i].progress = .decided d) = false := by
    rw [hget, hquerying]
    rfl
  rw [count, List.countP_set hi, hnot, if_neg Bool.false_ne_true, Nat.sub_zero, count]
  congr 1
  by_cases h : c'.progress = .decided d <;> simp [h]

theorem counted_initial (lower : LowerCase) : Counted lower initial where
  value := by
    intro d hd
    rw [initial, lookup_inc, if_neg (Ne.symm (series_ne_none lower hd))]
    rfl
  keys := by
    intro key hkey
    rcases isSome_lookup_inc hkey with rfl | h
    · exact .inl rfl
    · cases h
  decided := fun _ h => absurd h List.not_mem_nil

/-- **A step counts what it decides.** -/
theorem counted_step {lower : LowerCase} {s t : State} {e : Event} (inv : Counted lower s)
    (h : step lower s e = some t) : Counted lower t := by
  cases e with
  | commit policies =>
      obtain rfl := Option.some.inj h
      exact ⟨inv.value, inv.keys, inv.decided⟩
  | call agentId ctx =>
      obtain rfl := Option.some.inj h
      refine ⟨fun d hd => ?_, inv.keys, fun c hc d hd => ?_⟩
      · rw [inv.value d hd, count, count, List.countP_append]
        rfl
      · rcases List.mem_append.mp hc with hc | hc
        · exact inv.decided c hc d hd
        · obtain rfl := List.mem_singleton.mp hc
          cases hd
  | answer i order =>
      rw [step] at h
      split at h
      · next agentId ctx hcall =>
          obtain rfl := Option.some.inj h
          have hmem : Call.verdict s.policies order ⟨agentId, ctx, .querying⟩ ∈ decisions :=
            decidePolicies_mem _ _
          refine ⟨fun d hd => ?_, fun key hkey => ?_, fun c hc d hd => ?_⟩
          · rw [lookup_inc, inv.value d hd, count_set hcall rfl]
            congr 1
            by_cases heq : Call.verdict s.policies order ⟨agentId, ctx, .querying⟩ = d
            · rw [if_pos (by rw [heq]), if_pos (by rw [heq])]
            · rw [if_neg fun hseries => heq (series_inj lower hmem hd hseries),
                if_neg fun hprogress => heq (Progress.decided.inj hprogress)]
          · rcases isSome_lookup_inc hkey with rfl | hkey
            · exact .inr ⟨_, hmem, rfl⟩
            · exact inv.keys key hkey
          · rcases List.mem_or_eq_of_mem_set hc with hc | rfl
            · exact inv.decided c hc d hd
            · exact Progress.decided.inj hd ▸ hmem
      · cases h
  | fail i =>
      rw [step] at h
      split at h
      · next agentId ctx hcall =>
          obtain rfl := Option.some.inj h
          refine ⟨fun d hd => ?_, inv.keys, fun c hc d hd => ?_⟩
          · rw [inv.value d hd, count_set hcall rfl]
            rfl
          · rcases List.mem_or_eq_of_mem_set hc with hc | rfl
            · exact inv.decided c hc d hd
            · cases hd
      · cases h

/-- Which decisions a step adds. -/
theorem decided_step {lower : LowerCase} {s t : State} {e : Event} (h : step lower s e = some t)
    {i : ℕ} {c : Call} {d : PolicyDecision} (hc : t.calls[i]? = some c)
    (hd : c.progress = .decided d) :
    s.calls[i]? = some c
      ∨ ∃ order, e = .answer i order ∧ d = c.verdict s.policies order := by
  cases e with
  | commit policies =>
      obtain rfl := Option.some.inj h
      exact .inl hc
  | call agentId ctx =>
      obtain rfl := Option.some.inj h
      rcases getElem?_concat_eq_some.mp hc with hc | ⟨rfl, rfl⟩
      · exact .inl hc
      · cases hd
  | answer j order =>
      rw [step] at h
      split at h
      · next agentId ctx hcall =>
          obtain rfl := Option.some.inj h
          by_cases hij : j = i
          · subst hij
            rw [List.getElem?_set_self (List.getElem?_eq_some_iff.mp hcall).1] at hc
            obtain rfl := Option.some.inj hc
            exact .inr ⟨order, rfl, (Progress.decided.inj hd).symm⟩
          · rw [List.getElem?_set_ne hij] at hc
            exact .inl hc
      · cases h
  | fail j =>
      rw [step] at h
      split at h
      · next agentId ctx hcall =>
          obtain rfl := Option.some.inj h
          by_cases hij : j = i
          · subst hij
            rw [List.getElem?_set_self (List.getElem?_eq_some_iff.mp hcall).1] at hc
            obtain rfl := Option.some.inj hc
            cases hd
          · rw [List.getElem?_set_ne hij] at hc
            exact .inl hc
      · cases h

/-- **The counters are exact.**  In every interleaving of calls with each other and with writes to
the policies, each decision is that of the policies its query saw, and the series of a decision is
the number of calls that came to it; the only other series is the one that starts at zero. -/
theorem decisions_counted (lower : LowerCase) {es : List Event} {s : State}
    (h : run (step lower) initial es = some s) : Counted lower s ∧ DecidedAt lower es s := by
  refine run_induction (step lower) (P := fun es s => Counted lower s ∧ DecidedAt lower es s)
    ⟨counted_initial lower, nofun⟩ ?_ es s h
  rintro es s e t hrun ⟨hcounted, hat⟩ hstep
  refine ⟨counted_step hcounted hstep, fun i c d hc hd => ?_⟩
  rcases decided_step hstep hc hd with hc | ⟨order, rfl, rfl⟩
  · obtain ⟨es₁, order, es₂, m, rfl, hm, hverdict⟩ := hat i c d hc hd
    exact ⟨es₁, order, es₂ ++ [e], m, by simp, hm, hverdict⟩
  · refine ⟨es, order, [], s, rfl, hrun, rfl, ?_⟩
    rw [Call.verdict, allows_decidePolicies]
    simp only [(order.perm _).mem_iff]

def asciiLower : LowerCase := ⟨fun s => s.map lowerUnit, fun _ _ => rfl⟩

/-- A policy is written while the first of two calls waits for its query. -/
def latePolicy : List Event :=
  [ .call (js "did:prom:b") ⟨js "did:prom:a", js "search", js "index"⟩,
    .commit [⟨js "did:prom:b", js "closed", ⟨none, some [[unit '*']], none⟩, true⟩],
    .call (js "did:prom:c") ⟨js "did:prom:a", js "search", js "index"⟩,
    .answer 1 ⟨id, fun _ => .refl _⟩, .answer 0 ⟨List.reverse, fun l => l.reverse_perm⟩ ]

theorem decisions_counted_latePolicy :
    ∃ s, run (step asciiLower) initial latePolicy = some s
      ∧ Counted asciiLower s ∧ DecidedAt asciiLower latePolicy s :=
  ⟨_, rfl, decisions_counted asciiLower rfl⟩

end A2aAgentLayer.Observability.DecisionMetrics
