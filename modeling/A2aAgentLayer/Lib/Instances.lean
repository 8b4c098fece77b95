import Mathlib.Data.List.Forall2
import A2aAgentLayer.Lib.Run

/-!
# Instances that do not touch each other

A system starts instances of one machine, at any time and as many as it likes, and each later event
is for one of them.  Whatever the order, an instance is where its own events take it
(`instance_run`), and it holds what holds of a single machine (`instance_invariant`).  Where the
instances write to one log, the entries of an instance are those it writes on its own
(`logged_run`).

Nothing here depends on what the machine is.
-/

namespace A2aAgentLayer.Lib.Instances

open A2aAgentLayer.Lib.Run

variable {α σ ε : Type*}

/-- What happens to a system of instances. -/
inductive Event (α ε : Type*) where
  | start (a : α)
  | act (i : ℕ) (e : ε)

variable (init : α → σ) (next : σ → ε → Option σ)

def step (instances : List σ) : Event α ε → Option (List σ)
  | .start a => some (instances ++ [init a])
  | .act i e => (instances[i]?.bind fun s => next s e).map fun t => instances.set i t

theorem step_act {instances after : List σ} {i : ℕ} {e : ε} :
    step init next instances (.act i e) = some after ↔
      ∃ s t, instances[i]? = some s ∧ next s e = some t ∧ after = instances.set i t := by
  rw [step, Option.map_eq_some_iff]
  constructor
  · rintro ⟨t, ht, rfl⟩
    obtain ⟨s, hs, hnext⟩ := Option.bind_eq_some_iff.mp ht
    exact ⟨s, t, hs, hnext, rfl⟩
  · rintro ⟨s, t, hs, hnext, rfl⟩
    exact ⟨t, Option.bind_eq_some_iff.mpr ⟨s, hs, hnext⟩, rfl⟩

/-- What the instances were started with, in order. -/
def starts (es : List (Event α ε)) : List α :=
  es.filterMap fun
    | .start a => some a
    | .act _ _ => none

def Event.for? (i : ℕ) : Event α ε → Option ε
  | .start _ => none
  | .act j e => if j = i then some e else none

/-- The events for one instance. -/
def eventsOf (i : ℕ) (es : List (Event α ε)) : List ε := es.filterMap (Event.for? i)

@[simp] theorem starts_start (es : List (Event α ε)) (a : α) :
    starts (es ++ [.start a]) = starts es ++ [a] := List.filterMap_append

@[simp] theorem starts_act (es : List (Event α ε)) (i : ℕ) (e : ε) :
    starts (es ++ [.act i e]) = starts es := by
  rw [starts, List.filterMap_append]
  exact List.append_nil _

@[simp] theorem eventsOf_start (es : List (Event α ε)) (i : ℕ) (a : α) :
    eventsOf i (es ++ [.start a]) = eventsOf i es := by
  rw [eventsOf, List.filterMap_append]
  exact List.append_nil _

@[simp] theorem eventsOf_act_self (es : List (Event α ε)) (i : ℕ) (e : ε) :
    eventsOf i (es ++ [.act i e]) = eventsOf i es ++ [e] := by
  have hfor : Event.for? i (.act i e : Event α ε) = some e := if_pos rfl
  rw [eventsOf, List.filterMap_append, List.filterMap_cons_some hfor, List.filterMap_nil, eventsOf]

theorem eventsOf_act_of_ne {i j : ℕ} (h : j ≠ i) (es : List (Event α ε)) (e : ε) :
    eventsOf i (es ++ [.act j e]) = eventsOf i es := by
  have hfor : Event.for? i (.act j e : Event α ε) = none := if_neg h
  rw [eventsOf, List.filterMap_append, List.filterMap_cons_none hfor, List.filterMap_nil,
    List.append_nil, eventsOf]

/-- No event is for an instance that has not been started. -/
theorem eventsOf_of_length_le {es : List (Event α ε)} {instances : List σ}
    (h : run (step init next) [] es = some instances) :
    instances.length = (starts es).length ∧ ∀ i, instances.length ≤ i → eventsOf i es = [] := by
  refine run_induction (step init next)
    (P := fun es instances => instances.length = (starts es).length
      ∧ ∀ i, instances.length ≤ i → eventsOf i es = []) ⟨rfl, fun _ _ => rfl⟩ ?_ es instances h
  intro es s e t _ ih hstep
  cases e with
  | start a =>
      obtain rfl := Option.some.inj hstep
      refine ⟨by simp [ih.1], fun i hi => ?_⟩
      rw [eventsOf_start]
      exact ih.2 i (by simp at hi; omega)
  | act j e =>
      obtain ⟨s', t', hs', -, rfl⟩ := (step_act init next).mp hstep
      have hj : j < s.length := (List.getElem?_eq_some_iff.mp hs').1
      rw [List.length_set, starts_act]
      refine ⟨ih.1, fun i hi => ?_⟩
      rw [eventsOf_act_of_ne (by omega)]
      exact ih.2 i hi

/-- **An instance is where its own events take it.** -/
theorem instance_run {es : List (Event α ε)} {instances : List σ}
    (h : run (step init next) [] es = some instances) (i : ℕ) :
    instances[i]? = (starts es)[i]?.bind fun a => run next (init a) (eventsOf i es) := by
  revert i
  refine run_induction (step init next)
    (P := fun es instances => ∀ i, instances[i]?
      = (starts es)[i]?.bind fun a => run next (init a) (eventsOf i es)) (fun _ => rfl) ?_ es
    instances h
  intro es s e t hrun ih hstep i
  obtain ⟨hlength, hnone⟩ := eventsOf_of_length_le init next hrun
  cases e with
  | start a =>
      obtain rfl := Option.some.inj hstep
      rw [starts_start, eventsOf_start]
      rcases Nat.lt_trichotomy i s.length with hlt | rfl | hgt
      · rw [List.getElem?_append_left hlt, List.getElem?_append_left (hlength ▸ hlt), ih i]
      · rw [List.getElem?_concat_length, hlength, List.getElem?_concat_length, ← hlength,
          hnone _ (Nat.le_refl _)]
        rfl
      · rw [List.getElem?_eq_none (by simp; omega), List.getElem?_eq_none (by simp; omega)]
        rfl
  | act j e =>
      obtain ⟨s', t', hs', hnext, rfl⟩ := (step_act init next).mp hstep
      have hj : j < s.length := (List.getElem?_eq_some_iff.mp hs').1
      rw [starts_act]
      by_cases hij : j = i
      · subst hij
        rw [ih j] at hs'
        obtain ⟨a, ha, hrun'⟩ := Option.bind_eq_some_iff.mp hs'
        rw [List.getElem?_set_self hj, eventsOf_act_self, ha, Option.bind_some]
        exact ((run_snoc next).mpr ⟨s', hrun', hnext⟩).symm
      · rw [List.getElem?_set_ne hij, eventsOf_act_of_ne hij, ih i]

/-- An instance that is there was started, and its own events brought it there. -/
theorem exists_run {es : List (Event α ε)} {instances : List σ}
    (h : run (step init next) [] es = some instances) {i : ℕ} {s : σ}
    (hs : instances[i]? = some s) :
    ∃ a, (starts es)[i]? = some a ∧ run next (init a) (eventsOf i es) = some s := by
  rw [instance_run init next h] at hs
  exact Option.bind_eq_some_iff.mp hs

/-- **What holds of one machine holds of every instance.** -/
theorem instance_invariant {I : α → List ε → σ → Prop} (start : ∀ a, I a [] (init a))
    (keeps : ∀ a es s e t, run next (init a) es = some s → I a es s → next s e = some t →
      I a (es ++ [e]) t)
    {es : List (Event α ε)} {instances : List σ} (h : run (step init next) [] es = some instances)
    {i : ℕ} {s : σ} (hs : instances[i]? = some s) :
    ∃ a, (starts es)[i]? = some a ∧ I a (eventsOf i es) s := by
  obtain ⟨a, ha, hrun⟩ := exists_run init next h hs
  exact ⟨a, ha, run_induction next (start a) (keeps a) _ s hrun⟩

/-! ### One log -/

section Log

variable {ω : Type*} (write : σ → ε → Option (σ × List ω))

/-- A machine that keeps what it writes. -/
def keeping (s : σ × List ω) (e : ε) : Option (σ × List ω) :=
  (write s.1 e).map fun t => (t.1, s.2 ++ t.2)

/-- Instances that write to one log; each entry tells who wrote it. -/
def stepLogged (s : List σ × List (ℕ × ω)) : Event α ε → Option (List σ × List (ℕ × ω))
  | .start a => some (s.1 ++ [init a], s.2)
  | .act i e =>
      (s.1[i]?.bind fun x => write x e).map fun t =>
        (s.1.set i t.1, s.2 ++ t.2.map fun entry => (i, entry))

/-- The entries of one instance. -/
def entriesOf (i : ℕ) (log : List (ℕ × ω)) : List ω :=
  log.filterMap fun entry => if entry.1 = i then some entry.2 else none

theorem entriesOf_append (i : ℕ) (log more : List (ℕ × ω)) :
    entriesOf i (log ++ more) = entriesOf i log ++ entriesOf i more := List.filterMap_append

theorem entriesOf_map (i j : ℕ) (entries : List ω) :
    entriesOf i (entries.map fun entry => (j, entry)) = if j = i then entries else [] := by
  rw [entriesOf, List.filterMap_map]
  split_ifs with h
  · simp [h]
  · simp [h]

/-- **The instances and their parts of the log are what each of them makes on its own.** -/
theorem logged_run {es : List (Event α ε)} {s : List σ × List (ℕ × ω)}
    (h : run (stepLogged init write) ([], []) es = some s) :
    ∃ kept, run (step (fun a => (init a, [])) (keeping write)) [] es = some kept
      ∧ s.1 = kept.map Prod.fst ∧ (∀ i x, kept[i]? = some x → x.2 = entriesOf i s.2)
      ∧ ∀ entry ∈ s.2, entry.1 < s.1.length := by
  refine run_induction (stepLogged init write)
    (P := fun es s => ∃ kept, run (step (fun a => (init a, [])) (keeping write)) [] es = some kept
      ∧ s.1 = kept.map Prod.fst ∧ (∀ i x, kept[i]? = some x → x.2 = entriesOf i s.2)
      ∧ ∀ entry ∈ s.2, entry.1 < s.1.length) ⟨[], rfl, rfl, nofun,
        fun _ h => absurd h List.not_mem_nil⟩ ?_ es s h
  intro es s e t _ ⟨kept, hrun, hfst, hlog, hbound⟩ hstep
  cases e with
  | start a =>
      obtain rfl := Option.some.inj hstep
      refine ⟨kept ++ [(init a, [])], (run_snoc _).mpr ⟨kept, hrun, rfl⟩, by simp [hfst],
        fun i x hx => ?_, fun entry hentry => ?_⟩
      · rcases getElem?_concat_eq_some.mp hx with hx | ⟨rfl, rfl⟩
        · exact hlog i x hx
        · refine (List.filterMap_eq_nil_iff.mpr fun entry hentry => if_neg ?_).symm
          have := hbound entry hentry
          rw [hfst, List.length_map] at this
          omega
      · have := hbound entry hentry
        simp only [List.length_append]
        omega
  | act j e =>
      obtain ⟨⟨t', entries⟩, ht, rfl⟩ := Option.map_eq_some_iff.mp hstep
      obtain ⟨s', hs', hwrite⟩ := Option.bind_eq_some_iff.mp ht
      rw [hfst, List.getElem?_map, Option.map_eq_some_iff] at hs'
      obtain ⟨x, hx, rfl⟩ := hs'
      have hj : j < kept.length := (List.getElem?_eq_some_iff.mp hx).1
      have hkeeping : keeping write x e = some (t', x.2 ++ entries) := by
        rw [keeping, hwrite, Option.map_some]
      refine ⟨kept.set j (t', x.2 ++ entries), (run_snoc _).mpr ⟨kept, hrun,
        (step_act _ _).mpr ⟨x, _, hx, hkeeping, rfl⟩⟩, ?_, fun i y hy => ?_, fun entry hentry => ?_⟩
      · simp only [hfst, List.map_set]
      · simp only [entriesOf_append, entriesOf_map]
        by_cases hij : j = i
        · subst hij
          rw [List.getElem?_set_self hj, Option.some.injEq] at hy
          rw [if_pos rfl, ← hy, hlog j x hx]
        · rw [List.getElem?_set_ne hij] at hy
          rw [if_neg hij, List.append_nil, hlog i y hy]
      · rw [List.length_set]
        rcases List.mem_append.mp hentry with hentry | hentry
        · exact hbound entry hentry
        · obtain ⟨entry, -, rfl⟩ := List.mem_map.mp hentry
          rw [hfst, List.length_map]
          exact hj

/-- What holds of one machine and all it has written holds of every instance and its part of the
log. -/
theorem logged_invariant {I : α → List ε → σ → List ω → Prop} (start : ∀ a, I a [] (init a) [])
    (keeps : ∀ a es s lines e t more, I a es s lines → write s e = some (t, more) →
      I a (es ++ [e]) t (lines ++ more))
    {es : List (Event α ε)} {s : List σ × List (ℕ × ω)}
    (h : run (stepLogged init write) ([], []) es = some s) {i : ℕ} {x : σ} (hx : s.1[i]? = some x) :
    ∃ a, (starts es)[i]? = some a ∧ I a (eventsOf i es) x (entriesOf i s.2) := by
  obtain ⟨kept, hrun, hfst, hlog, -⟩ := logged_run init write h
  rw [hfst, List.getElem?_map, Option.map_eq_some_iff] at hx
  obtain ⟨y, hy, rfl⟩ := hx
  obtain ⟨a, ha, hinv⟩ := instance_invariant (fun a => (init a, [])) (keeping write)
    (I := fun a es y => I a es y.1 y.2) start (fun a es y e z _ hy hstep => by
      obtain ⟨⟨t, more⟩, ht, rfl⟩ := Option.map_eq_some_iff.mp hstep
      exact keeps a es y.1 y.2 e t more hy ht) hrun hy
  exact ⟨a, ha, hlog i y hy ▸ hinv⟩

omit init write in
/-- What one instance gains is gained by all of them together. -/
theorem filterMap_set_perm {β : Type*} {measure : σ → Option β} {xs : List σ} {i : ℕ} {x y : σ}
    (hx : xs[i]? = some x) {log more : List β} (hlog : log.Perm (xs.filterMap measure))
    (hmore : ((measure x).toList ++ more).Perm (measure y).toList) :
    (log ++ more).Perm ((xs.set i y).filterMap measure) := by
  have hcons : ∀ (z : σ) (zs : List σ),
      (z :: zs).filterMap measure = (measure z).toList ++ zs.filterMap measure := by
    intro z zs
    rw [List.filterMap_cons]
    cases measure z <;> rfl
  obtain ⟨hi, rfl⟩ := List.getElem?_eq_some_iff.mp hx
  have hsplit : xs = xs.take i ++ xs[i] :: xs.drop (i + 1) := by
    rw [List.getElem_cons_drop, List.take_append_drop]
  rw [hsplit, List.filterMap_append, hcons] at hlog
  rw [List.set_eq_take_append_cons_drop, if_pos hi, List.filterMap_append, hcons]
  refine (hlog.append_right more).trans ?_
  rw [List.append_assoc, List.append_assoc]
  refine List.Perm.append_left _ ((List.perm_append_comm.append_left _).trans ?_)
  rw [← List.append_assoc]
  exact hmore.append_right _

/-- **What is read off the log is what the instances have, in some order.** -/
theorem logged_perm {β : Type*} {measure : σ → Option β} {r : ω → Option β} {I : σ → Prop}
    (start : ∀ a, I (init a) ∧ measure (init a) = none)
    (keeps : ∀ x e y more, I x → write x e = some (y, more) →
      I y ∧ ((measure x).toList ++ more.filterMap r).Perm (measure y).toList)
    {es : List (Event α ε)} {s : List σ × List (ℕ × ω)}
    (h : run (stepLogged init write) ([], []) es = some s) :
    (s.2.filterMap fun entry => r entry.2).Perm (s.1.filterMap measure) := by
  refine (run_induction (stepLogged init write)
    (P := fun _ s => (∀ x ∈ s.1, I x)
      ∧ (s.2.filterMap fun entry => r entry.2).Perm (s.1.filterMap measure))
    ⟨fun _ h => absurd h List.not_mem_nil, List.Perm.refl _⟩ ?_ es s h).2
  intro es s e t _ ⟨hinv, hperm⟩ hstep
  cases e with
  | start a =>
      obtain rfl := Option.some.inj hstep
      refine ⟨fun x hx => ?_, ?_⟩
      · rcases List.mem_append.mp hx with hx | hx
        · exact hinv x hx
        · rw [List.mem_singleton.mp hx]
          exact (start a).1
      · rw [List.filterMap_append, List.filterMap_cons_none (start a).2, List.filterMap_nil,
          List.append_nil]
        exact hperm
  | act i e =>
      obtain ⟨⟨y, more⟩, ht, rfl⟩ := Option.map_eq_some_iff.mp hstep
      obtain ⟨x, hx, hwrite⟩ := Option.bind_eq_some_iff.mp ht
      obtain ⟨hy, hmore⟩ := keeps x e y more (hinv x (List.mem_of_getElem? hx)) hwrite
      refine ⟨fun z hz => ?_, ?_⟩
      · rcases List.mem_or_eq_of_mem_set hz with hz | rfl
        · exact hinv z hz
        · exact hy
      · rw [List.filterMap_append, List.filterMap_map]
        exact filterMap_set_perm hx hperm hmore

/-! ### Two systems side by side -/

variable {α' ε' σ' ω' : Type*} {init} {write} {init' : α' → σ'}
  {write' : σ' → ε' → Option (σ' × List ω')}

/-- Events of two systems that correspond. -/
inductive Paired (A : α → α' → Prop) (Q : ε → ε' → Prop) : Event α ε → Event α' ε' → Prop
  | start {a : α} {a' : α'} (h : A a a') : Paired A Q (.start a) (.start a')
  | act (i : ℕ) {e : ε} {e' : ε'} (h : Q e e') : Paired A Q (.act i e) (.act i e')

theorem forall₂_set {R : σ → σ' → Prop} {xs : List σ} {xs' : List σ'} (h : List.Forall₂ R xs xs')
    {y : σ} {y' : σ'} (hy : R y y') (i : ℕ) : List.Forall₂ R (xs.set i y) (xs'.set i y') := by
  induction h generalizing i with
  | nil => exact .nil
  | cons hx hxs ih =>
      cases i with
      | zero => exact .cons hy hxs
      | succ i => exact .cons hx (ih i)

/-- **What a step of one machine keeps alike, the runs of two systems keep alike.** -/
theorem logged_related {A : α → α' → Prop} {Q : ε → ε' → Prop} {R : σ → σ' → Prop}
    (start : ∀ a a', A a a' → R (init a) (init' a'))
    (keeps : ∀ x x' e e' y, R x x' → Q e e' → write x e = some y →
      ∃ y', write' x' e' = some y' ∧ R y.1 y'.1)
    {es : List (Event α ε)} {es' : List (Event α' ε')} (hes : List.Forall₂ (Paired A Q) es es')
    {s t : List σ × List (ℕ × ω)} (s' : List σ' × List (ℕ × ω')) (hs : List.Forall₂ R s.1 s'.1)
    (h : run (stepLogged init write) s es = some t) :
    ∃ t', run (stepLogged init' write') s' es' = some t' ∧ List.Forall₂ R t.1 t'.1 := by
  induction hes generalizing s s' with
  | nil => exact ⟨s', rfl, Option.some.inj h ▸ hs⟩
  | cons hpair _ ih =>
      obtain ⟨m, hm, h⟩ := Option.bind_eq_some_iff.mp h
      cases hpair with
      | start ha =>
          obtain rfl := Option.some.inj hm
          exact ih (s'.1 ++ [_], s'.2) (List.rel_append hs (.cons (start _ _ ha) .nil)) h
      | @act i e e' he =>
          obtain ⟨y, hy, rfl⟩ := Option.map_eq_some_iff.mp hm
          obtain ⟨x, hx, hwrite⟩ := Option.bind_eq_some_iff.mp hy
          obtain ⟨hi, rfl⟩ := List.getElem?_eq_some_iff.mp hx
          have hi' : i < s'.1.length := hs.length_eq ▸ hi
          obtain ⟨y', hy', hR⟩ := keeps _ _ _ _ y (hs.get hi hi') he hwrite
          have hstep : stepLogged init' write' s' (.act i e')
              = some (s'.1.set i y'.1, s'.2 ++ y'.2.map fun entry => (i, entry)) := by
            rw [stepLogged, List.getElem?_eq_getElem hi', Option.bind_some]
            exact congrArg (Option.map _) hy'
          obtain ⟨t', ht', hRt⟩ := ih (s'.1.set i y'.1, _) (forall₂_set hs hR i) h
          refine ⟨t', ?_, hRt⟩
          rw [run_cons, hstep, Option.bind_some, ht']

end Log

end A2aAgentLayer.Lib.Instances
