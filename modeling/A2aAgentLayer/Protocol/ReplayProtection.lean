import A2aAgentLayer.Protocol.HandleRuns

/-!
# Replay protection

A nonce is checked if it is a non-empty string, so two requests of one sender that carry the same
non-empty nonce within the window cannot both pass, whatever happens in between.  The empty nonce is
never checked: it may be repeated at will.
-/

namespace A2aAgentLayer.Protocol.HandleRequest

open A2aAgentLayer.Lib.Utf16 A2aAgentLayer.Lib.Run
open A2aAgentLayer.Policies.Evaluator A2aAgentLayer.Protocol.Processing

/-- The call got past the nonce step. -/
def Call.Passed (c : Call) : Prop := c.phase ≠ .failed .replayed

/-- Of two calls with one sender and one nonce that reach the nonce step within the window, at most
one gets past it, and at most one writes. -/
def ReplayProtected (windowMs : ℤ) (s : State) : Prop :=
  ∀ i j a b nonce, i ≠ j → s.calls[i]? = some a → s.calls[j]? = some b →
    a.dto.agentFromId = b.dto.agentFromId → a.dto.nonce = .value nonce →
    b.dto.nonce = .value nonce → a.reached ≤ b.reached → b.reached - a.reached ≤ windowMs →
      ¬ (a.Passed ∧ b.Passed) ∧ ¬ (Wrote s i ∧ Wrote s j)

/-- Two requests of one sender reach the nonce step within the window with the empty nonce. -/
def EmptyNonceRepeated (windowMs : ℤ) (es : List Event) : Prop :=
  ∃ (i j : ℕ) (a b : A2aRequestDto) (t u : ℤ), i ≠ j
    ∧ (requests es)[i]? = some (a, t) ∧ (requests es)[j]? = some (b, u)
    ∧ a.agentFromId = b.agentFromId ∧ a.nonce = .value [] ∧ b.nonce = .value []
    ∧ t ≤ u ∧ u - t ≤ windowMs

theorem passed_of_allowed {c : Call} (h : c.phase.allowed) : c.Passed := by
  intro hphase
  rw [hphase] at h
  exact h

/-- A call whose nonce is not checked passes. -/
theorem Sound.passed_of_unchecked {env : Env} {es : List Event} {s : State} (h : Sound env es s)
    {i : ℕ} {c : Call} (hc : s.calls[i]? = some c) (hnonce : checkedNonce c.dto.nonce = none) :
    c.Passed := by
  have hpassed := h.gate.unchecked c.attempt (List.mem_map_of_mem (List.mem_of_getElem? hc)) hnonce
  exact of_decide_eq_true (p := c.phase ≠ .failed .replayed) hpassed

/-- Of two calls with one sender and one checked nonce that both pass, the later one comes after the
window. -/
theorem Sound.window_passed {env : Env} {es : List Event} {s : State} (h : Sound env es s)
    {i j : ℕ} (hij : i < j) {a b : Call} (ha : s.calls[i]? = some a) (hb : s.calls[j]? = some b)
    (hap : a.Passed) (hbp : b.Passed) (hagent : a.dto.agentFromId = b.dto.agentFromId)
    {nonce : JsString} (han : checkedNonce a.dto.nonce = some nonce)
    (hbn : checkedNonce b.dto.nonce = some nonce) :
    a.reached + env.windowMs < b.reached ∧ a.reached ≤ b.reached := by
  obtain ⟨hi, rfl⟩ := List.getElem?_eq_some_iff.mp ha
  obtain ⟨hj, rfl⟩ := List.getElem?_eq_some_iff.mp hb
  have hi' : i < s.attempts.length := by simpa [State.attempts] using hi
  have hj' : j < s.attempts.length := by simpa [State.attempts] using hj
  have hsep := List.pairwise_iff_getElem.mp h.gate.separated i j hi' hj' hij
  have hord := List.pairwise_iff_getElem.mp h.gate.ordered i j hi' hj' hij
  simp only [State.attempts, List.getElem_map] at hsep hord
  refine ⟨hsep ?_ ?_ hagent nonce han hbn, hord⟩
  · exact decide_eq_true (p := s.calls[i].phase ≠ .failed .replayed) hap
  · exact decide_eq_true (p := s.calls[j].phase ≠ .failed .replayed) hbp

/-- **When replay protection holds:** in exactly the runs in which no sender repeats the empty nonce
within the window. -/
theorem replayProtected_iff {env : Env} {policies : List Policy} {since : ℤ} {es : List Event}
    {s : State} (hrun : run (step env) (initial policies since) es = some s) :
    ReplayProtected env.windowMs s ↔ ¬ EmptyNonceRepeated env.windowMs es := by
  have hsound := sound env policies since es s hrun
  constructor
  · rintro hprotected ⟨i, j, a, b, t, u, hij, hi, hj, hagent, ha, hb, hle, hwindow⟩
    obtain ⟨c, hc, rfl, rfl⟩ := hsound.call_of_request hi
    obtain ⟨d, hd, rfl, rfl⟩ := hsound.call_of_request hj
    refine (hprotected i j c d [] hij hc hd hagent ha hb hle hwindow).1 ⟨?_, ?_⟩
    · exact hsound.passed_of_unchecked hc (by rw [ha]; rfl)
    · exact hsound.passed_of_unchecked hd (by rw [hb]; rfl)
  · intro hempty i j a b nonce hij ha hb hagent han hbn hle hwindow
    have hpassed : ¬ (a.Passed ∧ b.Passed) := by
      rintro ⟨hap, hbp⟩
      cases nonce with
      | nil =>
          exact hempty ⟨i, j, a.dto, b.dto, a.reached, b.reached, hij,
            hsound.request_of_call ha, hsound.request_of_call hb, hagent, han, hbn, hle, hwindow⟩
      | cons v rest =>
          have han' : checkedNonce a.dto.nonce = some (v :: rest) := by rw [han, checkedNonce]
          have hbn' : checkedNonce b.dto.nonce = some (v :: rest) := by rw [hbn, checkedNonce]
          rcases Nat.lt_or_gt_of_ne hij with hlt | hgt
          · have := hsound.window_passed hlt ha hb hap hbp hagent han' hbn'
            omega
          · have := hsound.window_passed hgt hb ha hbp hap hagent.symm hbn' han'
            omega
    exact ⟨hpassed, fun hw =>
      hpassed ⟨passed_of_allowed (hsound.allowed_of_wrote ha hw.1),
        passed_of_allowed (hsound.allowed_of_wrote hb hw.2)⟩⟩

/-! Two requests with one nonce, a second apart. -/

def twice (nonce : JsString) : List Event :=
  [.request (requestWith nonce) 0 0, .request (requestWith nonce) 1000 1000]

theorem replayProtected_twice : ∃ s,
    run (step window) (initial [] 0) (twice (js "n-abc")) = some s
      ∧ s.calls.map (·.phase) = [.deciding, .failed .replayed]
      ∧ (ReplayProtected window.windowMs s
        ↔ ¬ EmptyNonceRepeated window.windowMs (twice (js "n-abc"))) := by
  obtain ⟨s, hs⟩ := Option.isSome_iff_exists.mp
    (by decide : (run (step window) (initial [] 0) (twice (js "n-abc"))).isSome = true)
  have hphases : (run (step window) (initial [] 0) (twice (js "n-abc"))).map
      (fun s => s.calls.map (·.phase)) = some [.deciding, .failed .replayed] := by decide
  rw [hs, Option.map_some, Option.some.injEq] at hphases
  exact ⟨s, hs, hphases, replayProtected_iff hs⟩

/-- The empty nonce passes the validators and, twice, the nonce step. -/
theorem emptyNonce_replayed : (requestWith []).valid = true ∧ ∃ s,
    run (step window) (initial [] 0) (twice []) = some s
      ∧ s.calls.map (·.phase) = [.deciding, .deciding]
      ∧ ¬ ReplayProtected window.windowMs s := by
  refine ⟨by decide, ?_⟩
  obtain ⟨s, hs⟩ := Option.isSome_iff_exists.mp
    (by decide : (run (step window) (initial [] 0) (twice [])).isSome = true)
  have hphases : (run (step window) (initial [] 0) (twice [])).map
      (fun s => s.calls.map (·.phase)) = some [.deciding, .deciding] := by decide
  rw [hs, Option.map_some, Option.some.injEq] at hphases
  refine ⟨s, hs, hphases, fun hprotected => ?_⟩
  have hsound := sound window [] 0 (twice []) s hs
  obtain ⟨c, hc, hdto, hreached⟩ := hsound.call_of_request
    (show (requests (twice []))[0]? = some (requestWith [], 0) from rfl)
  obtain ⟨d, hd, hdto', hreached'⟩ := hsound.call_of_request
    (show (requests (twice []))[1]? = some (requestWith [], 1000) from rfl)
  refine (hprotected 0 1 c d [] (by decide) hc hd (by rw [hdto, hdto']) (by rw [hdto]; rfl)
    (by rw [hdto']; rfl) (by rw [hreached, hreached']; decide)
    (by rw [hreached, hreached']; decide)).1 ⟨?_, ?_⟩
  · exact hsound.passed_of_unchecked hc (by rw [hdto]; rfl)
  · exact hsound.passed_of_unchecked hd (by rw [hdto']; rfl)

end A2aAgentLayer.Protocol.HandleRequest
