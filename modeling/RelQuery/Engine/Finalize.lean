import RelQuery.Engine.Basic
import RelQuery.Plan.Expansion
import RelQuery.Query.Select
import RelQuery.Query.Write
import RelQuery.ResultSet.Basic

/-!
# Finishing statements

A statement that is complete is planned and written; only then is it logged and run.
-/

namespace RelQuery

variable {σ : Type}

namespace Statement

def plan (ctx : Context σ) (withFields : Bool) (statement : Statement) : Session.Run σ Plan := do
  Plan.ofRelations ctx withFields statement.relations
    (← Session.ofExcept statement.mainTable)

def prepareSelect (ctx : Context σ) (statement : Statement) : Session.Run σ (Prepared × Plan) := do
  let plan ← statement.plan ctx true
  let query ← Session.ofExcept (statement.selectQuery plan)
  return (query.prepare ctx.dialect, plan)

/-- Plan a select and write the query for the number of its rows.  Joins count, columns do not. -/
def prepareCount (ctx : Context σ) (statement : Statement) : Session.Run σ Prepared := do
  let plan ← statement.plan ctx false
  let query ← Session.ofExcept (statement.countQuery plan)
  return query.prepare ctx.dialect

def prepare (ctx : Context σ) (statement : Statement) : Session.Run σ Prepared := do
  match statement.activity with
  | .select => return (← statement.prepareSelect ctx).1
  | .insert => return (← Session.ofExcept statement.insertQuery).prepare ctx.dialect
  | .update => return (← Session.ofExcept statement.updateQuery).prepare ctx.dialect
  | .delete => return (← Session.ofExcept statement.deleteQuery).prepare ctx.dialect

/-- Write a select and log it; its rows are fetched later. -/
def resultSet (ctx : Context σ) (statement : Statement) : Session.Run σ ResultSet := do
  let table ← Session.ofExcept statement.mainTable
  let (prepared, plan) ← statement.prepareSelect ctx
  ctx.record prepared
  return { prepared, plan, shaping := statement.shaping, aliasName := table.reference }

end Statement

/-- Finish the select under construction. -/
def Engine.all (ctx : Context σ) : Engine.Run σ ResultSet := do
  let statement ← Engine.finish .all
  Engine.inSession (statement.resultSet ctx)

end RelQuery
