import RelQuery.Plan.Basic
import RelQuery.Predicate.Scope
import RelQuery.Query.Basic
import RelQuery.Statement.Basic

/-!
# Statements as queries: selects

A select is built from its own clauses and the plan of its relations.  As soon as anything is joined
every column is qualified: a bare one belongs to the main table.

* `Frame` is what all parts of a select agree on: the main table and the joins.
* `Statement.selectFields` is the select list: the fields asked for, the keys that deferred
  relations read, and the columns of joined relations.
* `Statement.source` is the part that `Statement.selectQuery` and `Statement.countQuery` share.
-/

namespace RelQuery

/-- The main table of a select, by reference, and all joins. -/
structure Frame where
  main : String
  joins : List Join

namespace Frame

/-- The names of the tables in the select. -/
def joined (frame : Frame) : List String := frame.main :: frame.joins.map Join.aliasName

/-- The table of a bare column, once anything is joined. -/
def qualifier (frame : Frame) : Option String :=
  if frame.joins.isEmpty then none else some frame.main

end Frame

/-- A join as part of a query.  Its condition compares columns with columns: texts name columns, and
a bare column belongs to the joined table. -/
def Join.item (joined : List String) (join : Join) : Except Error (JoinItem Slot) := do
  if join.on.isEmpty then misuse (.joinWithoutCondition join.aliasName)
  else
    let scope : Scope := { defaultTable := some join.aliasName, parameterize := false, joined }
    let on ← join.on.predicate scope
    let table ← Identifier.parse join.table
    if join.aliasName = join.table then return ⟨join.kind, table, none, on⟩
    else return ⟨join.kind, table, some (← Identifier.parse join.aliasName), on⟩

def Field.item (frame : Frame) (field : Field) : Except Error SelectItem := do
  let selected ← match field.name with
    | .raw text => pure (Selected.raw text)
    | .all => Selected.column <$> Identifier.parse (field.table.getD frame.main ++ ".*")
    | .column name => Selected.column <$> Identifier.column (field.table <|> frame.qualifier) name
  return ⟨selected, ← field.aliasName.mapM Identifier.parse⟩

namespace Statement

def frame (statement : Statement) (plan : Plan) : Except Error Frame := do
  return ⟨(← statement.mainTable).reference, statement.joins ++ plan.joins⟩

/-- A field with a bare `*` taken apart: all columns of the main table and of each join. -/
def expandStar (statement : Statement) (frame : Frame) (field : Field) : List Field :=
  if field = { name := .all } then
    Field.allOf frame.main :: statement.joins.map fun join => Field.allOf join.aliasName
  else [field]

def selectFields (statement : Statement) (plan : Plan) (frame : Frame) : List Field :=
  let own :=
    if statement.fields.isEmpty then [Field.allOf frame.main]
    else plan.rootKeys.foldl (Field.ensure frame.main)
      (statement.fields.flatMap (statement.expandStar frame))
  own ++ plan.fields

def source (statement : Statement) (frame : Frame) : Except Error (Source Slot) := do
  let table ← statement.mainTable
  let name ← Identifier.parse table.name
  let aliasName ← table.aliasName.mapM Identifier.parse
  let joins ← frame.joins.mapM (Join.item frame.joined)
  let scope : Scope := { defaultTable := frame.qualifier, joined := frame.joined }
  return ⟨name, aliasName, joins, ← statement.conditions.predicate scope⟩

/-- A term of the order as part of a query.  A name that a field of the select list was given is
taken as it is. -/
def orderItem (frame : Frame) (fields : List Field) (term : OrderTerm) :
    Except Error OrderItem := do
  let column ←
    if Scope.isQualified term.field || (fields.filterMap Field.aliasName).contains term.field then
      Identifier.parse term.field
    else Identifier.column frame.qualifier term.field
  return ⟨column, term.direction⟩

def selectQuery (statement : Statement) (plan : Plan) : Except Error (Query Slot) := do
  let frame ← statement.frame plan
  let fields := statement.selectFields plan frame
  let items ← fields.mapM (Field.item frame)
  let source ← statement.source frame
  let order ← statement.order.mapM (orderItem frame fields)
  return .select items source order statement.limit

/-- A select as a query for the number of its rows. -/
def countQuery (statement : Statement) (plan : Plan) : Except Error (Query Slot) := do
  return .count (← statement.source (← statement.frame plan))

end Statement

end RelQuery
