import RelQuery.Clause.Field
import RelQuery.Clause.Limit
import RelQuery.Clause.Table
import RelQuery.Relation.Basic
import RelQuery.Value.Column

/-!
# Statements under construction

A statement collects its clauses one call at a time, in any order, and is written when it is
complete.

* `Statement` is the collection.
* `Statement.aliases` are the names in use; `addJoin` and `addRelation` take new ones only.
-/

namespace RelQuery

/-- The clauses of a statement. -/
structure Statement where
  activity : Activity
  table : Option TableRef := none
  fields : List Field := []
  conditions : Conditions := .empty
  joins : List Join := []
  order : List OrderTerm := []
  limit : Option Limit := none
  values : Row := .empty
  relations : List Relation := []
  /-- The shape that the rows are wanted in. -/
  shaping : Option Shaping := none

namespace Statement

def ofTable (activity : Activity) (table : TableRef) : Statement :=
  { activity, table := some table }

/-- The main table, without which nothing can be written. -/
def mainTable (statement : Statement) : Except Error TableRef :=
  match statement.table with
  | some table => .ok table
  | none => misuse (.noTable statement.activity)

/-! ## Aliases -/

/-- The names in use: the main table, the joins, the relations. -/
def aliases (statement : Statement) : List String :=
  (statement.table.map TableRef.reference).toList ++ statement.joins.map Join.aliasName ++
    Relation.aliasesOfAll statement.relations

def checkFree (statement : Statement) (aliasName : String) : Except Error Unit :=
  if statement.aliases.contains aliasName then misuse (.aliasTaken aliasName) else .ok ()

/-! ## Clauses -/

def addJoin (statement : Statement) (join : Join) : Except Error Statement := do
  statement.checkFree join.aliasName
  return { statement with joins := statement.joins ++ [join] }

/-- Add joins in order, each with a condition. -/
def addJoins (statement : Statement) : List Join → Except Error Statement
  | [] => .ok statement
  | join :: joins => do
    if join.on.isEmpty then misuse (.joinWithoutCondition join.aliasName)
    else (← statement.addJoin join).addJoins joins

/-- Add a relation whose names are all new. -/
def addRelation (statement : Statement) (relation : Relation) : Except Error Statement := do
  relation.aliases.forM statement.checkFree
  return { statement with relations := statement.relations ++ [relation] }

def restrict (statement : Statement) (conditions : Conditions) : Statement :=
  { statement with conditions := statement.conditions.extend conditions }

def addOrder (statement : Statement) (terms : List OrderTerm) : Statement :=
  { statement with order := statement.order ++ terms }

/-- Add values to write, from a value that must be an object. -/
def addValues (statement : Statement) (what : String) (data : Value) : Except Error Statement := do
  return { statement with values := statement.values.merge (← Row.ofValue what data) }

end Statement

end RelQuery
