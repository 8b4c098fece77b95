import A2aAgentLayer.Protocol.HandleRuns

/-!
# Policy decisions

The decision of the policies, as the handler of a request meets it: order plays no part, tightening
and widening act in one direction, and a denied request writes neither of the two tables.
-/

namespace A2aAgentLayer.Protocol.HandleRequest

open A2aAgentLayer.Lib.Utf16 A2aAgentLayer.Lib.Run
open A2aAgentLayer.Policies.Evaluator A2aAgentLayer.Protocol.Processing

/-- **A denied call writes nothing**, however the run goes on. -/
theorem denied_writes_nothing {env : Env} {policies : List Policy} {since : ℤ}
    {es fs : List Event} {m s : State} {i : ℕ} {c : Call} {reason : String}
    {started stamped finished : ℤ}
    (hrun : run (step env) (initial policies since) es = some m) (hc : m.calls[i]? = some c)
    (hdeny : assertAllowed m.policies c.dto.agentToId c.dto.context = .deny reason)
    (h : run (step env) m (.call i (.decide started stamped finished) :: fs) = some s) :
    (∃ d, s.calls[i]? = some d ∧ d.phase = .failed (.forbidden (forbiddenMessage reason)))
      ∧ ¬ Wrote s i := by
  obtain ⟨m', hstep, hrest⟩ := Option.bind_eq_some_iff.mp h
  obtain ⟨c', effect, hc', heffect, hm'⟩ := step_call hstep
  obtain rfl := Option.some.inj (hc.symm.trans hc')
  have hphase := callStep_deny hdeny heffect
  have hd : m'.calls[i]? = some { c with phase := effect.phase } := by
    rw [hm']
    exact List.getElem?_set_self (List.getElem?_eq_some_iff.mp hc).1
  have hend : s.calls[i]? = some { c with phase := effect.phase } :=
    run_invariant (step env) (fun _ _ _ hcall hnext => failed_stays hcall hphase hnext) hd hrest
  refine ⟨⟨_, hend, hphase⟩, fun hw => ?_⟩
  have hsound := sound env policies since (es ++ .call i (.decide started stamped finished) :: fs) s
    ((run_append_eq_some (step env)).mpr ⟨m, hrun, h⟩)
  have hallowed : effect.phase.allowed := hsound.allowed_of_wrote hend hw
  rw [hphase] at hallowed
  exact hallowed

/-- **Policy decisions.**  Order decides nothing, a denial survives every tightening, an allowance
every widening, and a denied request leaves no usage record and no receipt. -/
theorem policy_decisions (env : Env) :
    (∀ table table' agentId ctx,
      Reordered (activePolicies table agentId) (activePolicies table' agentId) →
        (assertAllowed table agentId ctx).allows = (assertAllowed table' agentId ctx).allows)
    ∧ (∀ table table' agentId ctx,
      Tightened (activePolicies table agentId) (activePolicies table' agentId) →
        (assertAllowed table agentId ctx).allows = false →
          (assertAllowed table' agentId ctx).allows = false)
    ∧ (∀ table table' agentId ctx,
      Widened (activePolicies table agentId) (activePolicies table' agentId) →
        (assertAllowed table agentId ctx).allows = true →
          (assertAllowed table' agentId ctx).allows = true)
    ∧ ∀ policies since es fs m s i c started stamped finished,
      run (step env) (initial policies since) es = some m → m.calls[i]? = some c →
        (assertAllowed m.policies c.dto.agentToId c.dto.context).allows = false →
          run (step env) m (.call i (.decide started stamped finished) :: fs) = some s →
            ¬ Wrote s i := by
  refine ⟨fun table table' agentId ctx h => allows_reordered h ctx, ?_, ?_, ?_⟩
  · intro table table' agentId ctx h hdenied
    rw [Bool.eq_false_iff] at hdenied ⊢
    refine fun hallowed => hdenied ?_
    rw [assertAllowed, allows_decidePolicies] at hallowed ⊢
    exact permits_of_tightened h hallowed
  · intro table table' agentId ctx h hallowed
    rw [assertAllowed, allows_decidePolicies] at hallowed ⊢
    exact permits_of_widened h hallowed
  · intro policies since es fs m s i c started stamped finished hrun hc hdenied h
    cases hdecision : assertAllowed m.policies c.dto.agentToId c.dto.context with
    | allow reason =>
        rw [hdecision] at hdenied
        cases hdenied
    | deny reason => exact (denied_writes_nothing hrun hc hdecision h).2

/-! Two policies of one agent. -/

def promOnly : Policy where
  agentId := js "did:prom:agent-b"
  name := js "prom only"
  rules := ⟨some [js "did:prom:*"], none, none⟩
  isActive := true

def noBilling : Policy where
  agentId := js "did:prom:agent-b"
  name := js "no billing"
  rules := ⟨none, none, some [⟨.deny, [js "did:prom:billing"], none, none⟩,
    ⟨.allow, [js "*"], some [js "invoke"], none⟩]⟩
  isActive := true

def stranger : PolicyEvaluationContext := ⟨js "did:web:x", js "invoke", js "sess-001"⟩

def strangerRequest : A2aRequestDto :=
  { requestWith (js "n-abc") with agentFromId := js "did:web:x" }

theorem reordered_promOnly :
    Reordered (activePolicies [promOnly, noBilling] (js "did:prom:agent-b"))
      (activePolicies [noBilling, promOnly] (js "did:prom:agent-b")) := by
  have hrefl : ∀ p : Policy, p = promOnly ∨ p = noBilling → RulesetReordered p.rules p.rules := by
    have hrule : ∀ r : AccessRule, r.actions = none ∨ r.actions = some [js "invoke"] →
        r.resources = none → RuleReordered r r := by
      rintro ⟨effect, subjects, actions, resources⟩ (rfl | rfl) rfl
      · exact ⟨rfl, .rfl, .none, .none⟩
      · exact ⟨rfl, .rfl, .some .rfl, .none⟩
    rintro p (rfl | rfl)
    · exact ⟨.some .rfl, .none, .none⟩
    · exact ⟨.none, .none, .some ⟨_, .cons (hrule _ (.inl rfl) rfl)
        (.cons (hrule _ (.inr rfl) rfl) .nil), .rfl⟩⟩
  exact ⟨[promOnly, noBilling], .cons (hrefl _ (.inl rfl)) (.cons (hrefl _ (.inr rfl)) .nil),
    .swap _ _ _⟩

theorem policy_decisions_stranger :
    (assertAllowed [promOnly, noBilling] (js "did:prom:agent-b") stranger).allows
        = (assertAllowed [noBilling, promOnly] (js "did:prom:agent-b") stranger).allows
      ∧ (assertAllowed [promOnly, noBilling] (js "did:prom:agent-b") stranger).allows = false
      ∧ (assertAllowed [promOnly.setAllowlist [js "did:web:*", js "did:prom:*"], noBilling]
          (js "did:prom:agent-b") (requestWith []).context).allows = true
      ∧ ∃ s, run (step window) (initial [promOnly] 0)
          [.request strangerRequest 0 0, .call 0 (.decide 1 1 1)] = some s ∧ ¬ Wrote s 0 := by
  have hall := policy_decisions window
  refine ⟨hall.1 _ _ _ _ reordered_promOnly,
    hall.2.1 [promOnly] _ _ _ (@Tightened.policy [promOnly] [] noBilling) (by decide),
    hall.2.2.1 [promOnly, noBilling] _ _ _
      (@Widened.allowlist [] [noBilling] promOnly _ _ (by decide) ⟨[], _, rfl, rfl⟩)
      (by decide), ?_⟩
  obtain ⟨s, hs⟩ := Option.isSome_iff_exists.mp
    (by decide : (run (step window) (initial [promOnly] 0)
      [.request strangerRequest 0 0, .call 0 (.decide 1 1 1)]).isSome = true)
  obtain ⟨m, hm, hrest⟩ := Option.bind_eq_some_iff.mp hs
  have hrun : run (step window) (initial [promOnly] 0) [.request strangerRequest 0 0] = some m :=
    Option.bind_eq_some_iff.mpr ⟨m, hm, rfl⟩
  obtain ⟨_, rfl⟩ := step_request.mp hm
  exact ⟨s, hs, hall.2.2.2 [promOnly] 0 _ [] _ s 0 _ 1 1 1 hrun rfl (by decide) hrest⟩

end A2aAgentLayer.Protocol.HandleRequest
