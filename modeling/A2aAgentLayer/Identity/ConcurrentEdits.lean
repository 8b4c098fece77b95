import A2aAgentLayer.Identity.AgentRows
import A2aAgentLayer.Lib.Run

/-!
# Concurrent edits of one agent

`update` and `deactivate` read the row with `findOne`, change the entity and save it.  Calls
interleave between the two steps.  A save writes the whole entity over the stored row, so it also
writes back what the call read in columns it was not asked to change.
-/

namespace A2aAgentLayer.Identity.ConcurrentEdits

open A2aAgentLayer.Lib.Utf16 A2aAgentLayer.Lib.JsObject A2aAgentLayer.Lib.Run
open A2aAgentLayer.Identity.AgentRows

inductive Operation where
  | update (data : UpdateAgentDto)
  | deactivate
  deriving DecidableEq

/-- The entity a call saves. -/
def edited (operation : Operation) (agent : Entity) : Entity :=
  match operation with
  | .update data => assign agent data
  | .deactivate => deactivated agent

/-- A call that has read the row; `done` once it has saved. -/
structure Call where
  operation : Operation
  found : Agent
  done : Bool
  deriving DecidableEq

/-- A save, with the row it found in the table; `saved` is missing when the table refused it. -/
structure Save where
  operation : Operation
  found : Agent
  before : Agent
  saved : Option Agent
  deriving DecidableEq

/-- The row after the save. -/
def Save.after (sv : Save) : Agent := sv.saved.getD sv.before

structure State where
  row : Agent
  calls : List Call
  saves : List Save
  deriving DecidableEq

inductive Event where
  | findOne (operation : Operation)
  | save (call : ℕ)
  deriving DecidableEq

def initial (row : Agent) : State := ⟨row, [], []⟩

/-- The save of a call that read the given row. -/
def saveOf (operation : Operation) (found before : Agent) : Save :=
  ⟨operation, found, before, save before (edited operation found.entity)⟩

def step (s : State) : Event → Option State
  | .findOne operation => some { s with calls := s.calls ++ [⟨operation, s.row, false⟩] }
  | .save i =>
      match s.calls[i]? with
      | some ⟨operation, found, false⟩ =>
          let sv := saveOf operation found s.row
          some
            { row := sv.after
              calls := s.calls.set i ⟨operation, found, true⟩
              saves := s.saves ++ [sv] }
      | _ => none

/-! ### What a save does -/

/-- An update changes only the columns its DTO names. -/
def OnlyNamed (sv : Save) : Prop :=
  ∀ data, sv.operation = .update data → AgreeOutside data sv.before sv.after

/-- The DTO sets a column to `null`, or the call read the columns it does not name as they are
stored now. -/
def FreshRead (operation : Operation) (found stored : Agent) : Prop :=
  ∀ data, operation = .update data → ¬ data.HasNull → AgreeOutside data found stored

theorem onlyNamed_iff (operation : Operation) (found before : Agent) :
    OnlyNamed (saveOf operation found before) ↔ FreshRead operation found before := by
  constructor
  · rintro honly data rfl hnull
    obtain ⟨row, hrow⟩ := exists_save_assign hnull found before
    have hafter : (saveOf (.update data) found before).after = row := by
      simp only [Save.after, saveOf, edited, hrow, Option.getD_some]
    have hkept := honly data rfl
    rw [hafter] at hkept
    exact (save_assign hrow).trans hkept.symm
  · rintro hfresh data rfl
    by_cases hnull : data.HasNull
    · have hafter : (saveOf (.update data) found before).after = before := by
        simp only [Save.after, saveOf, edited, save_assign_of_hasNull hnull, Option.getD_none]
      rw [hafter]
      exact .refl data _
    · obtain ⟨row, hrow⟩ := exists_save_assign hnull found before
      have hafter : (saveOf (.update data) found before).after = row := by
        simp only [Save.after, saveOf, edited, hrow, Option.getD_some]
      rw [hafter]
      exact (hfresh data rfl hnull).symm.trans (save_assign hrow)

theorem deactivate_after (found before : Agent) :
    (saveOf .deactivate found before).after.status = .inactive := by
  simp [Save.after, saveOf, edited, deactivated, save, Agent.entity]

/-! ### Runs -/

/-- The saves of a state's next step read fresh columns. -/
def ReadsFresh (s : State) (e : Event) : Prop :=
  ∀ i operation found, e = .save i → s.calls[i]? = some ⟨operation, found, false⟩ →
    FreshRead operation found s.row

theorem step_cases {s t : State} {e : Event} (h : step s e = some t) :
    (∃ operation, e = .findOne operation
        ∧ t = { s with calls := s.calls ++ [⟨operation, s.row, false⟩] })
      ∨ ∃ i operation found, e = .save i ∧ s.calls[i]? = some ⟨operation, found, false⟩
        ∧ t = { row := (saveOf operation found s.row).after
                calls := s.calls.set i ⟨operation, found, true⟩
                saves := s.saves ++ [saveOf operation found s.row] } := by
  cases e with
  | findOne operation => exact .inl ⟨operation, rfl, (Option.some.inj h).symm⟩
  | save i =>
      rw [step] at h
      split at h
      next operation found hcall =>
        exact .inr ⟨i, operation, found, rfl, hcall, (Option.some.inj h).symm⟩
      · cases h

/-- The call sets the status on purpose. -/
def NamesStatus (operation : Operation) : Prop :=
  ∃ data, operation = .update data ∧ data.status ≠ .undefined

/-- A save that names no status keeps an inactive agent inactive. -/
theorem inactive_after {operation : Operation} {found before : Agent}
    (honly : OnlyNamed (saveOf operation found before)) (hstatus : ¬ NamesStatus operation)
    (hbefore : before.status = .inactive) :
    (saveOf operation found before).after.status = .inactive := by
  cases operation with
  | deactivate => exact deactivate_after found before
  | update data =>
      have hundefined : data.status = .undefined := by
        by_contra hne
        exact hstatus ⟨data, rfl, hne⟩
      exact ((honly data rfl).status hundefined).symm.trans hbefore

theorem onlyNamed_throughout_iff {row : Agent} :
    ∀ es s, run step (initial row) es = some s →
      ((∀ sv ∈ s.saves, OnlyNamed sv) ↔ AllSteps step ReadsFresh (initial row) es) := by
  refine run_induction step ?_ ?_
  · exact iff_of_true nofun (allSteps_nil step _ _)
  intro es s e t hrun ih hstep
  rw [allSteps_snoc_of_run step hrun, ← ih]
  rcases step_cases hstep with ⟨operation, rfl, rfl⟩ | ⟨i, operation, found, rfl, hcall, rfl⟩
  · exact ⟨fun h => ⟨h, nofun⟩, fun h => h.1⟩
  · have hfresh : ReadsFresh s (.save i) ↔ OnlyNamed (saveOf operation found s.row) := by
      rw [onlyNamed_iff]
      constructor
      · exact fun h => h i operation found rfl hcall
      · rintro h i' operation' found' heq hcall'
        obtain rfl := Event.save.inj heq
        obtain ⟨rfl, rfl, -⟩ := Call.mk.inj (Option.some.inj (hcall.symm.trans hcall'))
        exact h
    rw [hfresh]
    simp only [List.mem_append, List.mem_singleton, or_imp, forall_and, forall_eq]

theorem inactive_since_deactivate {row : Agent} :
    ∀ es s, run step (initial row) es = some s →
      AllSteps step ReadsFresh (initial row) es →
      ∀ xs sv ys, s.saves = xs ++ sv :: ys → sv.operation = .deactivate →
        (∀ sv' ∈ ys, ¬ NamesStatus sv'.operation) → s.row.status = .inactive := by
  refine run_induction_of_steps step ?_ ?_
  · intro xs sv ys hsaves
    simp [initial] at hsaves
  intro es s e t hrun hall inv hfresh hstep xs sv ys hsaves hdeactivate hnames
  rcases step_cases hstep with ⟨operation, rfl, rfl⟩ | ⟨i, operation, found, rfl, hcall, rfl⟩
  · exact inv xs sv ys hsaves hdeactivate hnames
  · rcases concat_eq_append_cons.mp hsaves with ⟨-, -, rfl⟩ | ⟨zs, rfl, hold⟩
    · obtain rfl : operation = .deactivate := hdeactivate
      exact deactivate_after found s.row
    · have hinactive := inv xs sv zs hold hdeactivate fun sv' hsv' =>
        hnames sv' (List.mem_append_left _ hsv')
      have honly := (onlyNamed_iff operation found s.row).mpr (hfresh i operation found rfl hcall)
      exact inactive_after honly (hnames _ (List.mem_append_right _ (List.mem_singleton_self _)))
        hinactive

/-- **Concurrent edits.**  In a run of interleaved calls every update changes only the columns its
DTO names exactly if, at every save of an update, the columns the DTO does not name are stored as
the call read them.  On that condition an agent stays inactive after a completed `deactivate` until
an update names a status. -/
theorem concurrent_edits_iff {row : Agent} {es : List Event} {s : State}
    (hrun : run step (initial row) es = some s) :
    ((∀ sv ∈ s.saves, OnlyNamed sv) ↔ AllSteps step ReadsFresh (initial row) es)
      ∧ (AllSteps step ReadsFresh (initial row) es →
        ∀ xs sv ys, s.saves = xs ++ sv :: ys → sv.operation = .deactivate →
          (∀ sv' ∈ ys, ¬ NamesStatus sv'.operation) → s.row.status = .inactive) :=
  ⟨onlyNamed_throughout_iff es s hrun, inactive_since_deactivate es s hrun⟩

/-- The row of an active agent. -/
def activeAgent : Agent :=
  { id := js "5c1f", agentDid := js "did:prom:agent-1", owner := js "0xabc", publicKey := js "0xkey"
    endpoint := js "http://agent:8080", status := .active }

/-- A body with a new endpoint only. -/
def newEndpoint : UpdateAgentDto := ⟨.undefined, .value (js "http://moved:8080"), .undefined⟩

/-- An update and a later deactivation, one after the other. -/
def oneAfterTheOther : List Event :=
  [.findOne (.update newEndpoint), .save 0, .findOne .deactivate, .save 1]

theorem concurrent_edits_iff_oneAfterTheOther : ∃ s,
    run step (initial activeAgent) oneAfterTheOther = some s
      ∧ s.row = { activeAgent with endpoint := js "http://moved:8080", status := .inactive }
      ∧ ((∀ sv ∈ s.saves, OnlyNamed sv)
        ↔ AllSteps step ReadsFresh (initial activeAgent) oneAfterTheOther) := by
  obtain ⟨s, hs⟩ := Option.isSome_iff_exists.mp
    (by decide : (run step (initial activeAgent) oneAfterTheOther).isSome = true)
  obtain rfl := Option.some.inj (hs.symm.trans rfl)
  exact ⟨_, hs, by decide, (concurrent_edits_iff hs).1⟩

/-- A deactivation between the two steps of an update. -/
def deactivatedMeanwhile : List Event :=
  [.findOne (.update newEndpoint), .findOne .deactivate, .save 1, .save 0]

/-- The update, whose DTO has no status, makes the deactivated agent active again. -/
theorem deactivation_undone : newEndpoint.valid = true ∧ ∃ s,
    run step (initial activeAgent) deactivatedMeanwhile = some s
      ∧ s.saves.map (fun sv => (sv.operation, sv.after.status))
        = [(.deactivate, .inactive), (.update newEndpoint, .active)]
      ∧ ¬ ∀ sv ∈ s.saves, OnlyNamed sv := by
  obtain ⟨s, hs⟩ := Option.isSome_iff_exists.mp
    (by decide : (run step (initial activeAgent) deactivatedMeanwhile).isSome = true)
  obtain rfl := Option.some.inj (hs.symm.trans rfl)
  refine ⟨by decide, _, hs, by decide, fun honly => ?_⟩
  have hkept :=
    (honly _ (List.mem_cons_of_mem _ (List.mem_cons_self ..)) newEndpoint rfl).status rfl
  exact absurd hkept (by decide)

end A2aAgentLayer.Identity.ConcurrentEdits
