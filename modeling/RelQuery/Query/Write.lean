import RelQuery.Predicate.Scope
import RelQuery.Query.Basic
import RelQuery.Statement.Basic

/-!
# Statements as queries: writes

An insert or an update writes the values that were set, restricted to the field list if that names
any column.  A delete needs a condition.
-/

namespace RelQuery.Statement

/-- The columns that the field list names. -/
def namedColumns (statement : Statement) : List String :=
  statement.fields.filterMap fun field => match field.name with
    | .column name => some name
    | _ => none

def writable (statement : Statement) : List (String × Value) :=
  let allowed := statement.namedColumns
  statement.values.entries.filter fun (column, _) => allowed.isEmpty || allowed.contains column

/-- The values to write, of which there must be one. -/
def requireValues (statement : Statement) (table : String) :
    Except Error (List (String × Value)) :=
  if statement.writable.isEmpty then misuse (.noValues statement.activity table)
  else .ok statement.writable

/-- A value to write as part of a query. -/
def valueSlot (entry : String × Value) : Except Error (Identifier × Slot) := do
  return (← Identifier.parse entry.1, ⟨entry.1, entry.2⟩)

def insertQuery (statement : Statement) : Except Error (Query Slot) := do
  let table ← statement.mainTable
  let values ← (← statement.requireValues table.name).mapM valueSlot
  return .insert (← Identifier.parse table.name) values

def updateQuery (statement : Statement) : Except Error (Query Slot) := do
  let table ← statement.mainTable
  let values ← (← statement.requireValues table.name).mapM valueSlot
  let name ← Identifier.parse table.name
  return .update name values (← statement.conditions.predicate {})

def deleteQuery (statement : Statement) : Except Error (Query Slot) := do
  let table ← statement.mainTable
  if statement.conditions.isEmpty then misuse (.deleteWithoutConditions table.name)
  else
    let name ← Identifier.parse table.name
    return .delete name (← statement.conditions.predicate {})

end RelQuery.Statement
