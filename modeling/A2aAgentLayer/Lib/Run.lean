import Mathlib.Data.List.Infix

/-!
# Runs of a guarded step function

A system is a step function `σ → ε → Option σ`; `none` says that the event is not enabled in that
state.  A run folds a list of events.  The facts below are the ones a safety proof needs: a run
splits at any point, every prefix of a run is a run, and a property of the pair (history, state)
that one step preserves holds along every run.

Nothing here depends on what the states and the events are.
-/

namespace A2aAgentLayer.Lib.Run

variable {σ ε : Type*} (step : σ → ε → Option σ)

/-- The state after a list of events, or `none` as soon as one event is not enabled. -/
def run (s : σ) : List ε → Option σ
  | [] => some s
  | e :: es => (step s e).bind fun m => run m es

@[simp] theorem run_nil (s : σ) : run step s [] = some s := rfl

theorem run_cons (s : σ) (e : ε) (es : List ε) :
    run step s (e :: es) = (step s e).bind fun m => run step m es := rfl

theorem run_append (s : σ) (es fs : List ε) :
    run step s (es ++ fs) = (run step s es).bind fun m => run step m fs := by
  induction es generalizing s with
  | nil => rfl
  | cons e es ih =>
      simp only [List.cons_append, run_cons, Option.bind_assoc, ih]

theorem run_append_eq_some {s t : σ} {es fs : List ε} :
    run step s (es ++ fs) = some t ↔
      ∃ m, run step s es = some m ∧ run step m fs = some t := by
  rw [run_append, Option.bind_eq_some_iff]

/-- The last event of a run is a step from the state the earlier events reach. -/
theorem run_snoc {s t : σ} {es : List ε} {e : ε} :
    run step s (es ++ [e]) = some t ↔ ∃ m, run step s es = some m ∧ step m e = some t := by
  simp only [run_append_eq_some, run_cons, run_nil, Option.bind_fun_some]

/-- **Splitting a run at one of its events.** -/
theorem run_split {s t : σ} {es fs : List ε} {e : ε} (h : run step s (es ++ e :: fs) = some t) :
    ∃ m m', run step s es = some m ∧ step m e = some m' ∧ run step m' fs = some t := by
  obtain ⟨m, hm, h⟩ := (run_append_eq_some step).mp h
  obtain ⟨m', hm', h⟩ := Option.bind_eq_some_iff.mp h
  exact ⟨m, m', hm, hm', h⟩

/-- **History induction.**  A property of history and state that holds at the start and that every
enabled step preserves holds after every run. -/
theorem run_induction {s₀ : σ} {P : List ε → σ → Prop} (init : P [] s₀)
    (next : ∀ es s e t, run step s₀ es = some s → P es s → step s e = some t → P (es ++ [e]) t) :
    ∀ es s, run step s₀ es = some s → P es s := by
  intro es
  induction es using List.reverseRecOn with
  | nil =>
      intro s h
      obtain rfl := Option.some.inj h
      exact init
  | append_singleton es e ih =>
      intro t h
      obtain ⟨s, hs, hstep⟩ := (run_snoc step).mp h
      exact next es s e t hs (ih s hs) hstep

/-- A state invariant that every enabled step preserves is carried by every run. -/
theorem run_invariant {Inv : σ → Prop} (next : ∀ s e t, Inv s → step s e = some t → Inv t)
    {es : List ε} {s t : σ} (hs : Inv s) (h : run step s es = some t) : Inv t := by
  induction es generalizing s with
  | nil => exact Option.some.inj h ▸ hs
  | cons e es ih =>
      obtain ⟨m, hm, h⟩ := Option.bind_eq_some_iff.mp h
      exact ih (next s e m hs hm) h

/-- A relation between states that is reflexive, transitive and respected by every step relates the
two ends of every run. -/
theorem run_monotone {R : σ → σ → Prop} (refl : ∀ s, R s s)
    (trans : ∀ a b c, R a b → R b c → R a c) (next : ∀ s e t, step s e = some t → R s t)
    {es : List ε} {s t : σ} (h : run step s es = some t) : R s t := by
  induction es generalizing s with
  | nil => exact Option.some.inj h ▸ refl s
  | cons e es ih =>
      obtain ⟨m, hm, h⟩ := Option.bind_eq_some_iff.mp h
      exact trans s m t (next s e m hm) (ih h)

/-! ### Conditions on the steps of a run -/

/-- Where an element of `l ++ [o]` can stand. -/
theorem concat_eq_append_cons {α : Type*} {l xs ys : List α} {o a : α} :
    l ++ [o] = xs ++ a :: ys ↔
      (ys = [] ∧ l = xs ∧ o = a) ∨ ∃ zs, ys = zs ++ [o] ∧ l = xs ++ a :: zs := by
  constructor
  · intro h
    rcases List.eq_nil_or_concat ys with rfl | ⟨zs, b, rfl⟩
    · obtain ⟨rfl, hlast⟩ := List.append_inj' h rfl
      exact .inl ⟨rfl, rfl, (List.cons.inj hlast).1⟩
    · rw [List.concat_eq_append, ← List.cons_append, ← List.append_assoc] at h
      obtain ⟨rfl, hlast⟩ := List.append_inj' h rfl
      exact .inr ⟨zs, by rw [List.concat_eq_append, (List.cons.inj hlast).1], rfl⟩
  · rintro (⟨rfl, rfl, rfl⟩ | ⟨zs, rfl, rfl⟩)
    · rfl
    · simp

/-- An entry of `l ++ [o]` is an entry of `l`, or the last one. -/
theorem getElem?_concat_eq_some {α : Type*} {l : List α} {o a : α} {i : ℕ} :
    (l ++ [o])[i]? = some a ↔ l[i]? = some a ∨ i = l.length ∧ a = o := by
  rcases Nat.lt_trichotomy i l.length with hlt | rfl | hgt
  · rw [List.getElem?_append_left hlt, or_iff_left fun h => by omega]
  · rw [List.getElem?_concat_length, List.getElem?_eq_none le_rfl, Option.some.injEq]
    exact ⟨fun h => .inr ⟨rfl, h.symm⟩, fun h => (h.resolve_left nofun).2.symm⟩
  · rw [List.getElem?_eq_none (by rw [List.length_append]; exact hgt),
      List.getElem?_eq_none hgt.le]
    exact iff_of_false nofun fun h => by
      rcases h with h | h
      · cases h
      · omega

/-- At most one element passes a test when none passes before one that does. -/
theorem countP_le_one {α : Type*} {p : α → Bool} {l : List α}
    (h : ∀ xs a ys, l = xs ++ a :: ys → p a = true → ∀ b ∈ xs, p b = false) :
    l.countP p ≤ 1 := by
  induction l with
  | nil => exact Nat.zero_le 1
  | cons a l ih =>
      cases hp : p a with
      | false =>
          rw [List.countP_cons_of_neg (by simp [hp])]
          refine ih fun xs b ys hl hb c hc => ?_
          exact h (a :: xs) b ys (by rw [hl, List.cons_append]) hb c (List.mem_cons_of_mem a hc)
      | true =>
          have hzero : l.countP p = 0 := by
            refine List.countP_eq_zero.mpr fun b hb hpb => ?_
            obtain ⟨xs, ys, rfl⟩ := List.append_of_mem hb
            have hpa := h (a :: xs) b ys rfl hpb a (List.mem_cons_self ..)
            rw [hp] at hpa
            cases hpa
          rw [List.countP_cons_of_pos hp, hzero]

/-- Every event of a run meets a condition in the state before it. -/
def AllSteps (C : σ → ε → Prop) (s₀ : σ) (es : List ε) : Prop :=
  ∀ ps e qs m, es = ps ++ e :: qs → run step s₀ ps = some m → C m e

variable {step} in
theorem AllSteps.mono {C D : σ → ε → Prop} {s₀ : σ} {es : List ε} (h : AllSteps step C s₀ es)
    (hCD : ∀ s e, C s e → D s e) : AllSteps step D s₀ es :=
  fun ps e qs m hes hm => hCD m e (h ps e qs m hes hm)

variable {step} in
theorem AllSteps.and {C D : σ → ε → Prop} {s₀ : σ} {es : List ε} (hC : AllSteps step C s₀ es)
    (hD : AllSteps step D s₀ es) : AllSteps step (fun s e => C s e ∧ D s e) s₀ es :=
  fun ps e qs m hes hm => ⟨hC ps e qs m hes hm, hD ps e qs m hes hm⟩

variable {step} in
theorem AllSteps.of_prefix {C : σ → ε → Prop} {s₀ : σ} {es ps : List ε}
    (h : AllSteps step C s₀ es) (hps : ps <+: es) : AllSteps step C s₀ ps := by
  obtain ⟨qs, rfl⟩ := hps
  rintro xs e ys s rfl hs
  exact h xs e (ys ++ qs) s (by simp) hs

theorem allSteps_snoc {C : σ → ε → Prop} {s₀ : σ} {es : List ε} {e : ε} :
    AllSteps step C s₀ (es ++ [e]) ↔
      AllSteps step C s₀ es ∧ ∀ m, run step s₀ es = some m → C m e := by
  constructor
  · intro h
    refine ⟨?_, fun m hm => h es e [] m rfl hm⟩
    rintro ps f qs m rfl hm
    exact h ps f (qs ++ [e]) m (by simp) hm
  · rintro ⟨hes, he⟩ ps f qs m heq hm
    rcases concat_eq_append_cons.mp heq with ⟨-, rfl, rfl⟩ | ⟨zs, -, hsplit⟩
    · exact he m hm
    · exact hes ps f zs m hsplit hm

theorem allSteps_snoc_of_run {C : σ → ε → Prop} {s₀ s : σ} {es : List ε} {e : ε}
    (h : run step s₀ es = some s) :
    AllSteps step C s₀ (es ++ [e]) ↔ AllSteps step C s₀ es ∧ C s e := by
  rw [allSteps_snoc, h]
  simp only [Option.some.injEq, forall_eq']

theorem allSteps_nil (C : σ → ε → Prop) (s₀ : σ) : AllSteps step C s₀ [] := by
  intro ps e qs m h
  simp at h

theorem allSteps_cons_of_step {C : σ → ε → Prop} {s t : σ} {e : ε} {es : List ε}
    (hstep : step s e = some t) :
    AllSteps step C s (e :: es) ↔ C s e ∧ AllSteps step C t es := by
  constructor
  · intro h
    refine ⟨h [] e es s rfl rfl, ?_⟩
    rintro ps f qs m rfl hm
    refine h (e :: ps) f qs m rfl ?_
    rw [run_cons, hstep]
    exact hm
  · rintro ⟨he, hes⟩ ps f qs m heq hm
    cases ps with
    | nil =>
        obtain ⟨rfl, rfl⟩ := List.cons.inj heq
        obtain rfl := Option.some.inj hm
        exact he
    | cons g ps =>
        obtain ⟨rfl, rfl⟩ := List.cons.inj heq
        rw [run_cons, hstep] at hm
        exact hes ps f qs m rfl hm

theorem allSteps_cons_of_stuck {C : σ → ε → Prop} {s : σ} {e : ε} {es : List ε}
    (hstep : step s e = none) : AllSteps step C s (e :: es) ↔ C s e := by
  constructor
  · exact fun h => h [] e es s rfl rfl
  · intro he ps f qs m heq hm
    cases ps with
    | nil =>
        obtain ⟨rfl, rfl⟩ := List.cons.inj heq
        obtain rfl := Option.some.inj hm
        exact he
    | cons g ps =>
        obtain ⟨rfl, rfl⟩ := List.cons.inj heq
        rw [run_cons, hstep] at hm
        cases hm

/-- The conditions of a run can be tested along it. -/
instance decidableAllSteps (C : σ → ε → Prop) [∀ s e, Decidable (C s e)] :
    ∀ (s : σ) (es : List ε), Decidable (AllSteps step C s es)
  | s, [] => .isTrue (allSteps_nil step C s)
  | s, e :: es =>
      match hstep : step s e with
      | some t =>
          have := decidableAllSteps C t es
          decidable_of_iff _ (allSteps_cons_of_step step hstep).symm
      | none => decidable_of_iff (C s e) (allSteps_cons_of_stuck step hstep).symm

/-- **When every step of a run respects a relation.**  If a step from a state that meets an
invariant respects it exactly on a condition, all steps do exactly if they all meet the condition.
-/
theorem steps_iff {Inv : σ → Prop} {R : σ → σ → Prop} {C : σ → ε → Prop} {s₀ : σ} (hinv : Inv s₀)
    (keeps : ∀ s e t, Inv s → step s e = some t → Inv t)
    (next : ∀ s e t, Inv s → step s e = some t → (R s t ↔ C s e)) {es : List ε} {s : σ}
    (hrun : run step s₀ es = some s) :
    (∀ ps e qs m m', es = ps ++ e :: qs → run step s₀ ps = some m → step m e = some m' → R m m')
      ↔ AllSteps step C s₀ es := by
  constructor
  · rintro h ps e qs m rfl hm
    obtain ⟨n, m', hn, hstep, -⟩ := run_split step hrun
    obtain rfl := Option.some.inj (hm.symm.trans hn)
    exact (next m e m' (run_invariant step keeps hinv hm) hstep).mp (h ps e qs m m' rfl hm hstep)
  · intro h ps e qs m m' hes hm hstep
    exact (next m e m' (run_invariant step keeps hinv hm) hstep).mpr (h ps e qs m hes hm)

/-- History induction along the runs whose steps all meet a condition. -/
theorem run_induction_of_steps {C : σ → ε → Prop} {s₀ : σ} {P : List ε → σ → Prop}
    (init : P [] s₀)
    (next : ∀ es s e t, run step s₀ es = some s → AllSteps step C s₀ es → P es s → C s e →
      step s e = some t → P (es ++ [e]) t) :
    ∀ es s, run step s₀ es = some s → AllSteps step C s₀ es → P es s := by
  refine run_induction step (fun _ => init) ?_
  intro es s e t hrun ih hstep hall
  obtain ⟨hes, he⟩ := (allSteps_snoc step).mp hall
  exact next es s e t hrun hes (ih hes) (he s hrun) hstep

/-- **When a property of history and state holds at every moment of a run.**  If a step keeps the
property exactly on a condition, the property holds throughout a run exactly if all its steps meet
the condition. -/
theorem throughout_history_iff {Good : List ε → σ → Prop} {C : σ → ε → Prop} {s₀ : σ}
    (hgood : Good [] s₀)
    (next : ∀ es s e t, run step s₀ es = some s → Good es s → step s e = some t →
      (Good (es ++ [e]) t ↔ C s e)) :
    ∀ es s, run step s₀ es = some s →
      ((∀ ps m, ps <+: es → run step s₀ ps = some m → Good ps m) ↔ AllSteps step C s₀ es) := by
  refine run_induction step (iff_of_true ?_ (allSteps_nil step C s₀)) ?_
  · intro ps m hps hm
    obtain rfl := List.prefix_nil.mp hps
    exact Option.some.inj hm ▸ hgood
  intro es s e t hrun ih hstep
  rw [allSteps_snoc_of_run step hrun, ← ih]
  constructor
  · intro h
    have hbefore : ∀ ps m, ps <+: es → run step s₀ ps = some m → Good ps m := fun ps m hps hm =>
      h ps m (hps.trans (List.prefix_append es [e])) hm
    exact ⟨hbefore, (next es s e t hrun (hbefore es s List.prefix_rfl hrun) hstep).mp
      (h (es ++ [e]) t List.prefix_rfl ((run_snoc step).mpr ⟨s, hrun, hstep⟩))⟩
  · rintro ⟨hbefore, hC⟩ ps m hps hm
    rcases List.prefix_concat_iff.mp hps with rfl | hps
    · obtain ⟨s', hrun', hstep'⟩ := (run_snoc step).mp hm
      obtain rfl := Option.some.inj (hrun.symm.trans hrun')
      obtain rfl := Option.some.inj (hstep.symm.trans hstep')
      exact (next es s e t hrun (hbefore es s List.prefix_rfl hrun) hstep).mpr hC
    · exact hbefore ps m hps hm

/-- The same for a property of the state, and steps from states that meet an invariant. -/
theorem throughout_iff {Inv Good : σ → Prop} {C : σ → ε → Prop} {s₀ : σ} (hinv : Inv s₀)
    (hgood : Good s₀) (keeps : ∀ s e t, Inv s → step s e = some t → Inv t)
    (next : ∀ s e t, Inv s → Good s → step s e = some t → (Good t ↔ C s e)) :
    ∀ es s, run step s₀ es = some s →
      ((∀ ps m, ps <+: es → run step s₀ ps = some m → Good m) ↔ AllSteps step C s₀ es) := by
  have hnext : ∀ (es : List ε) s e t, run step s₀ es = some s → Good s → step s e = some t →
      (Good t ↔ C s e) := fun es s e t hrun hs hstep =>
    next s e t (run_invariant step keeps hinv hrun) hs hstep
  exact throughout_history_iff step hgood hnext

end A2aAgentLayer.Lib.Run
