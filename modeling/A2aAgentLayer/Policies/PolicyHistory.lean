import A2aAgentLayer.Metering.Ledger
import A2aAgentLayer.Policies.StoredRules

/-!
# The stored policies

Policies are created and updated with the bodies of requests as they come.  A creation saves the
body as an entity, so a body that carries the id of a stored policy is written over it.  An update
writes the columns that its body names, the id and the agent among them, or fails as a whole.

A request is one step, and its answer is left out.  `updatedAt` is converted with the other columns
but not kept, since nothing reads it.
-/

namespace A2aAgentLayer.Policies.PolicyHistory

open A2aAgentLayer.Lib.Utf16 A2aAgentLayer.Lib.JsonTree A2aAgentLayer.Lib.JsObject
open A2aAgentLayer.Lib.EntityTable A2aAgentLayer.Lib.Run
open A2aAgentLayer.Metering.Ledger (Body Columns required nullable carriedId sampleColumns)
open A2aAgentLayer.Policies.Evaluator A2aAgentLayer.Policies.StoredRules

/-! ### Rows -/

/-- A row of `policies`. -/
structure PolicyRow where
  agentId : JsString
  name : JsString
  rules : Json
  signature : Option JsString
  isActive : Bool
  createdAt : ℤ

/-- What the columns of the table store, that of booleans among them. -/
structure PolicyColumns extends Columns where
  boolean : Json → Option Bool

/-- The row of a policy, new or after an update. -/
def policyRow (cols : PolicyColumns) (body : Body) (now : ℤ) (stored : Option PolicyRow) :
    Option PolicyRow := do
  let agentId ← required cols.varchar body (js "agentId") (stored.map (·.agentId))
  let name ← required cols.varchar body (js "name") (stored.map (·.name))
  let rules ← required cols.jsonb body (js "rules") (stored.map (·.rules))
  let signature ← nullable cols.varchar body (js "signature") (stored.bind (·.signature))
  let isActive ← required cols.boolean body (js "isActive")
    (some ((stored.map (·.isActive)).getD true))
  let createdAt ← required cols.timestamp body (js "createdAt")
    (some ((stored.map (·.createdAt)).getD now))
  let _ ← required cols.timestamp body (js "updatedAt") (some now)
  return { agentId, name, rules, signature, isActive, createdAt }

/-! ### Requests -/

/-- What an update may name. -/
def updatable : List JsString :=
  [js "id", js "agentId", js "name", js "rules", js "signature", js "isActive", js "createdAt",
    js "updatedAt"]

inductive Request where
  | create (body : Body) (generated : JsString) (now : ℤ)
  | update (id : JsString) (body : Body)

section Requests

variable (cols : PolicyColumns)

/-- `UPDATE policies SET … WHERE id = …`.  `none` is a request that throws. -/
def update (table : Table JsString PolicyRow) (path : JsString) (body : Body) :
    Option (Table JsString PolicyRow) :=
  if body.all fun m => updatable.contains m.1 then
    (cols.uuid (.str path)).bind fun id =>
      match table.lookup id with
      | none => some table
      | some row =>
          (required cols.uuid body (js "id") (some id)).bind fun newId =>
            if newId ≠ id ∧ (table.lookup newId).isSome = true then none
            else (policyRow cols body 0 (some row)).map fun row' =>
              table.map fun entry => if entry.1 = id then (newId, row') else entry
  else none

def Request.reply (table : Table JsString PolicyRow) :
    Request → Option (Table JsString PolicyRow)
  | .create body generated now =>
      save table (carriedId cols.toColumns body) generated (policyRow cols body now)
  | .update path body => PolicyHistory.update cols table path body

/-- A request that throws leaves the policies as they are. -/
def step (table : Table JsString PolicyRow) (request : Request) :
    Option (Table JsString PolicyRow) :=
  some ((request.reply cols table).getD table)

end Requests

/-- The active policies of an agent. -/
def activeRows (table : Table JsString PolicyRow) (agentId : JsString) :
    List (JsString × PolicyRow) :=
  table.filter fun entry => decide (entry.2.agentId = agentId ∧ entry.2.isActive = true)

/-- `assertAllowed` decides so.  The table has its rows in no order, and the policies are asked as
they come. -/
def Decides (table : Table JsString PolicyRow) (agentId : JsString)
    (ctx : PolicyEvaluationContext) (d : PolicyDecision) : Prop :=
  ∃ rows : List (JsString × PolicyRow), rows.Perm (activeRows table agentId)
    ∧ decideStored (rows.map fun entry => entry.2.rules) ctx = some d

section Writes

variable {cols : PolicyColumns}

end Writes

/-! ### Decisions along a run -/

def changedAt : JsString := js "2026-01-02T00:00:00.000Z"

def denylisting : JsString := js "6b1f4c1e-0d3a-4c55-9a58-2f3c1b7f0e11"

/-- A policy of an agent, whose deny rule names no subjects, one of another agent, and an update
that switches the first one off and sends its time of change back as it was read. -/
def switchedOff : List Request :=
  [ .create [(js "agentId", .str (js "did:prom:b")), (js "name", .str (js "blocked")),
      (js "rules", .obj [(js "accessRules", .arr [.obj [(js "effect", .str (js "deny"))]])])]
      denylisting 1000,
    .create [(js "agentId", .str (js "did:prom:c")), (js "name", .str (js "open")),
      (js "rules", .obj [])] (js "0d6a7c2b-5a0e-4f0b-8f53-0e5e7b0a9c3d") 1001,
    .update denylisting [(js "isActive", .bool false),
      (js "updatedAt", .str changedAt)] ]

end A2aAgentLayer.Policies.PolicyHistory
