import A2aAgentLayer.Common.FieldValidators
import A2aAgentLayer.Lib.Delimiter
import A2aAgentLayer.Lib.Run
import A2aAgentLayer.Protocol.NonceStore

/-!
# The nonce store against its history

Runs of `assertFresh`, `size` and the eviction timer at non-decreasing instants.  The store forgets;
what it stands for does not: every pair that was accepted, with the instant of its entry.

A DID has exactly two colons, so the key `agent:nonce` names one agent and one nonce, whatever the
nonce contains (`nonceKey_inj`).  The live entries of the store are therefore the pairs accepted
within the window (`recalls_history`), which decides every check and every count.
-/

namespace A2aAgentLayer.Protocol.NonceHistory

open A2aAgentLayer.Lib.Utf16 A2aAgentLayer.Lib.Run A2aAgentLayer.Lib.KeyedStore
open A2aAgentLayer.Lib.Delimiter
open A2aAgentLayer.Common.FieldValidators A2aAgentLayer.Protocol.NonceStore

/-- A string that `@IsDid()` admits. -/
structure Did where
  text : JsString
  valid : isDid text = true
  deriving DecidableEq

/-- The eviction of `assertFresh` reads the clock at `reached`, its entry at `written`. -/
inductive Event where
  | assertFresh (agentId : Did) (nonce : JsString) (reached written : ℤ)
  | size (now : ℤ)
  | evictExpired (now : ℤ)

structure State where
  now : ℤ
  entries : Entries

def initial (since : ℤ) : State := ⟨since, ∅⟩

def step (windowMs : ℤ) (s : State) : Event → Option State
  | .assertFresh agentId nonce reached written =>
      if s.now ≤ reached ∧ reached ≤ written then
        some ⟨written, (assertFresh windowMs s.entries agentId.text nonce reached written).1⟩
      else none
  | .size now => if s.now ≤ now then some ⟨now, (size windowMs s.entries now).1⟩ else none
  | .evictExpired now =>
      if s.now ≤ now then some ⟨now, evictExpired windowMs s.entries now⟩ else none

/-! ### The key -/

/-- **A key names one agent and one nonce.** -/
theorem nonceKey_inj {a b : Did} {n m : JsString} (h : nonceKey a.text n = nonceKey b.text m) :
    a = b ∧ n = m := by
  obtain ⟨a, ha⟩ := a
  obtain ⟨b, hb⟩ := b
  obtain ⟨method, id, rfl, hmethod, hid⟩ := isDid_parts ha
  obtain ⟨method', id', rfl, hmethod', hid'⟩ := isDid_parts hb
  have hkey : ∀ p q r : JsString, nonceKey (js "did:" ++ (p ++ unit ':' :: q)) r
      = js "did:" ++ (p ++ unit ':' :: (q ++ unit ':' :: r)) := by
    intro p q r
    show js "did:" ++ (p ++ unit ':' :: q) ++ [unit ':'] ++ r = _
    simp only [List.append_assoc, List.cons_append, List.nil_append]
  simp only [hkey] at h
  obtain ⟨rfl, htail⟩ := append_cons_inj hmethod hmethod' (List.append_cancel_left h)
  obtain ⟨rfl, rfl⟩ := append_cons_inj hid hid' htail
  exact ⟨rfl, rfl⟩

/-! ### What was accepted -/

/-- An `assertFresh` of the pair succeeded and wrote its entry at `t`. -/
def Accepted (windowMs since : ℤ) (es : List Event) (agentId : Did) (nonce : JsString) (t : ℤ) :
    Prop :=
  ∃ ps qs reached s, es = ps ++ .assertFresh agentId nonce reached t :: qs
    ∧ run (step windowMs) (initial since) ps = some s
    ∧ (assertFresh windowMs s.entries agentId.text nonce reached t).2 = true

/-- The accepted pairs by their keys. -/
def history (windowMs since : ℤ) (es : List Event) : Set (JsString × ℤ) :=
  {e | ∃ agentId nonce, Accepted windowMs since es agentId nonce e.2
    ∧ e.1 = nonceKey agentId.text nonce}

theorem mem_history {windowMs since : ℤ} {es : List Event} {agentId : Did} {nonce : JsString}
    {t : ℤ} : (nonceKey agentId.text nonce, t) ∈ history windowMs since es
      ↔ Accepted windowMs since es agentId nonce t := by
  constructor
  · rintro ⟨a, n, haccepted, hkey⟩
    obtain ⟨rfl, rfl⟩ := nonceKey_inj hkey
    exact haccepted
  · intro haccepted
    exact ⟨agentId, nonce, haccepted, rfl⟩

theorem accepted_snoc {windowMs since : ℤ} {es : List Event} {s : State} {e : Event}
    (hrun : run (step windowMs) (initial since) es = some s) {agentId : Did} {nonce : JsString}
    {t : ℤ} :
    Accepted windowMs since (es ++ [e]) agentId nonce t ↔
      Accepted windowMs since es agentId nonce t ∨ ∃ reached,
        e = .assertFresh agentId nonce reached t
          ∧ (assertFresh windowMs s.entries agentId.text nonce reached t).2 = true := by
  constructor
  · rintro ⟨ps, qs, reached, m, hes, hm, haccepted⟩
    rcases concat_eq_append_cons.mp hes with ⟨-, rfl, rfl⟩ | ⟨zs, -, hold⟩
    · obtain rfl := Option.some.inj (hrun.symm.trans hm)
      exact .inr ⟨reached, rfl, haccepted⟩
    · exact .inl ⟨ps, zs, reached, m, hold, hm, haccepted⟩
  · rintro (⟨ps, qs, reached, m, rfl, hm, haccepted⟩ | ⟨reached, rfl, haccepted⟩)
    · exact ⟨ps, qs ++ [e], reached, m, by simp, hm, haccepted⟩
    · exact ⟨es, [], reached, s, rfl, hrun, haccepted⟩

/-- A check that accepts adds its pair, everything else leaves the history as it is. -/
theorem history_snoc_of_refused {windowMs since : ℤ} {es : List Event} {s : State} {e : Event}
    (hrun : run (step windowMs) (initial since) es = some s)
    (hrefused : ∀ agentId nonce reached t, e = .assertFresh agentId nonce reached t →
      (assertFresh windowMs s.entries agentId.text nonce reached t).2 = false) :
    history windowMs since (es ++ [e]) = history windowMs since es := by
  ext ⟨k, t⟩
  simp only [history, Set.mem_ofPred_eq, accepted_snoc hrun]
  refine exists_congr fun a => exists_congr fun n => and_congr_left fun _ => ?_
  rw [or_iff_left]
  rintro ⟨reached, he, haccepted⟩
  rw [hrefused a n reached t he] at haccepted
  cases haccepted

theorem history_snoc_of_accepted {windowMs since : ℤ} {es : List Event} {s : State}
    {agentId : Did} {nonce : JsString} {reached written : ℤ}
    (hrun : run (step windowMs) (initial since) es = some s)
    (haccepted : (assertFresh windowMs s.entries agentId.text nonce reached written).2 = true) :
    history windowMs since (es ++ [.assertFresh agentId nonce reached written])
      = insert (nonceKey agentId.text nonce, written) (history windowMs since es) := by
  ext ⟨k, t⟩
  rw [Set.mem_insert_iff, Prod.mk.injEq]
  constructor
  · rintro ⟨a, n, ha, rfl⟩
    rcases (accepted_snoc hrun).mp ha with hold | ⟨r, he, -⟩
    · exact .inr ⟨a, n, hold, rfl⟩
    · injection he with ha hn hr ht
      subst ha hn ht
      exact .inl ⟨rfl, rfl⟩
  · rintro (⟨rfl, rfl⟩ | ⟨a, n, ha, hk⟩)
    · exact ⟨agentId, nonce, (accepted_snoc hrun).mpr (.inr ⟨reached, rfl, haccepted⟩), rfl⟩
    · exact ⟨a, n, (accepted_snoc hrun).mpr (.inl ha), hk⟩

/-! ### The store stands for the history -/

/-- **The live entries of the store are the pairs accepted within the window.** -/
theorem recalls_history (windowMs since : ℤ) : ∀ es s,
    run (step windowMs) (initial since) es = some s →
      Recalls (expired windowMs) s.entries (history windowMs since es) s.now := by
  refine run_induction (step windowMs) ?_ ?_
  · have hnone : history windowMs since [] = ∅ := by
      refine Set.eq_empty_of_forall_notMem fun e he => ?_
      obtain ⟨a, n, ⟨ps, qs, reached, s, hes, -⟩, -⟩ := he
      simp at hes
    rw [hnone]
    exact recalls_empty since
  intro es s e t hrun ih hstep
  cases e with
  | assertFresh agentId nonce reached written =>
      simp only [step] at hstep
      split_ifs at hstep with hclock
      obtain rfl := Option.some.inj hstep
      have hkept := (ih.later (expired_later hclock.1)).evict
      cases hfresh : (assertFresh windowMs s.entries agentId.text nonce reached written).2 with
      | false =>
          have hsame := history_snoc_of_refused hrun
            (e := .assertFresh agentId nonce reached written) ?_
          · rw [hsame]
            rw [assertFresh] at hfresh ⊢
            split_ifs at hfresh ⊢
            exact hkept.later (expired_later hclock.2)
          · rintro a n r w he
            injection he with ha hn hr hw
            subst ha hn hr hw
            exact hfresh
      | true =>
          rw [history_snoc_of_accepted hrun hfresh]
          rw [assertFresh] at hfresh ⊢
          split_ifs at hfresh ⊢ with habsent
          rw [Option.not_isSome_iff_eq_none] at habsent
          exact (hkept.insert habsent).later (expired_later hclock.2)
  | size now =>
      simp only [step] at hstep
      split_ifs at hstep with hclock
      obtain rfl := Option.some.inj hstep
      rw [history_snoc_of_refused hrun (by rintro a n r w ⟨⟩)]
      exact (ih.later (expired_later hclock)).evict
  | evictExpired now =>
      simp only [step] at hstep
      split_ifs at hstep with hclock
      obtain rfl := Option.some.inj hstep
      rw [history_snoc_of_refused hrun (by rintro a n r w ⟨⟩)]
      exact (ih.later (expired_later hclock)).evict

/-- A pair is live when its window is open. -/
theorem expired_eq_false_iff {windowMs now t : ℤ} :
    expired windowMs now t = false ↔ now - t ≤ windowMs := by
  rw [expired, decide_eq_false_iff_not]
  omega

/-- **Exactly the replays are rejected.**  After any run, a check throws if and only if its agent
and its nonce were accepted within the window, and then leaves what the eviction left; the size is
the number of pairs accepted within the window. -/
theorem rejects_exactly_replays {windowMs since : ℤ} {es : List Event} {s : State}
    (hrun : run (step windowMs) (initial since) es = some s) :
    (∀ (agentId : Did) (nonce : JsString) (reached written : ℤ), s.now ≤ reached →
        reached ≤ written →
        ((assertFresh windowMs s.entries agentId.text nonce reached written).2 = false ↔
            ∃ t, Accepted windowMs since es agentId nonce t ∧ reached - t ≤ windowMs)
          ∧ ((assertFresh windowMs s.entries agentId.text nonce reached written).2 = false →
            (assertFresh windowMs s.entries agentId.text nonce reached written).1
              = evictExpired windowMs s.entries reached))
      ∧ ∀ now, s.now ≤ now →
        ((size windowMs s.entries now).2 : ℕ∞)
          = {p : Did × JsString |
              ∃ t, Accepted windowMs since es p.1 p.2 t ∧ now - t ≤ windowMs}.encard := by
  have hrecalls := recalls_history windowMs since es s hrun
  refine ⟨fun agentId nonce reached written hreached hwritten => ⟨?_, fun hrefused => ?_⟩,
    fun now hnow => ?_⟩
  · have hlive := (hrecalls.later (expired_later hreached)).lookup_evict_isSome
      (nonceKey agentId.text nonce)
    simp only [mem_history, expired_eq_false_iff] at hlive
    rw [← hlive, assertFresh]
    split_ifs with hsome
    · simp only [true_iff]
      exact hsome
    · simp only [false_iff]
      exact hsome
  · rw [assertFresh] at hrefused ⊢
    split_ifs at hrefused ⊢
    rfl
  · have hcount := (hrecalls.later (expired_later hnow)).encard_keys
    have hkeys : {k | ∃ t, (k, t) ∈ history windowMs since es ∧ expired windowMs now t = false}
        = (fun p : Did × JsString => nonceKey p.1.text p.2) '' {p : Did × JsString |
            ∃ t, Accepted windowMs since es p.1 p.2 t ∧ now - t ≤ windowMs} := by
      ext k
      simp only [Set.mem_ofPred_eq, Set.mem_image, Prod.exists, expired_eq_false_iff]
      constructor
      · rintro ⟨t, ⟨a, n, ha, rfl⟩, ht⟩
        exact ⟨a, n, ⟨t, ha, ht⟩, rfl⟩
      · rintro ⟨a, n, ⟨t, ha, ht⟩, rfl⟩
        exact ⟨t, ⟨a, n, ha, rfl⟩, ht⟩
    have hinj : Function.Injective fun p : Did × JsString => nonceKey p.1.text p.2 :=
      fun p q hpq => Prod.ext (nonceKey_inj hpq).1 (nonceKey_inj hpq).2
    rw [hkeys, hinj.encard_image] at hcount
    exact hcount.symm

/-! Two agents use one nonce, and one of them uses it again when a minute has passed. -/

def agentA : Did := ⟨js "did:prom:agent-a", by decide⟩

def agentB : Did := ⟨js "did:prom:agent-b", by decide⟩

def sharedNonce : List Event :=
  [.assertFresh agentA (js "n:1") 0 0, .assertFresh agentB (js "n:1") 500 500, .evictExpired 30000]

theorem rejects_exactly_replays_sharedNonce : ∃ s,
    run (step 60000) (initial 0) sharedNonce = some s
      ∧ (assertFresh 60000 s.entries agentA.text (js "n:1") 60000 60001).2 = false
      ∧ (∃ t, Accepted 60000 0 sharedNonce agentA (js "n:1") t ∧ 60000 - t ≤ 60000)
      ∧ (2 : ℕ∞) = {p : Did × JsString |
          ∃ t, Accepted 60000 0 sharedNonce p.1 p.2 t ∧ 60000 - t ≤ 60000}.encard := by
  obtain ⟨s, hs⟩ := Option.isSome_iff_exists.mp
    (by decide : (run (step 60000) (initial 0) sharedNonce).isSome = true)
  have hend : (run (step 60000) (initial 0) sharedNonce).map (fun s => (s.now,
      (assertFresh 60000 s.entries agentA.text (js "n:1") 60000 60001).2,
      (size 60000 s.entries 60000).2)) = some (30000, false, 2) := by decide
  rw [hs, Option.map_some, Option.some.injEq, Prod.mk.injEq, Prod.mk.injEq] at hend
  obtain ⟨hnow, hrejected, hsize⟩ := hend
  have hexact := rejects_exactly_replays hs
  have hcheck := (hexact.1 agentA (js "n:1") 60000 60001 (by omega) (by decide)).1
  have hcount := hexact.2 60000 (by omega)
  rw [hsize] at hcount
  exact ⟨s, hs, hrejected, hcheck.mp hrejected, hcount⟩

end A2aAgentLayer.Protocol.NonceHistory
