import RelQuery.Engine.Running
import RelQuery.Table.Basic
import RelQuery.Table.FetchMode
import RelQuery.Table.FetchOptions

/-!
# Working with a table

Fetching from a table opens a select, gives it the clauses of the options, and finishes it in the
way that the mode asks for.  Writing a row decides between an insert and an update by its id.

* `Table.fetch` returns what the mode promises, as a `Fetched`.
* `Table.matchesAny`, `Table.get`, `Table.save` and `Table.remove` are the everyday calls.

All of them work on an engine that may have statements under construction, and leave those alone.
-/

namespace RelQuery

variable {σ : Type}

/-- What a fetch returned. -/
inductive Fetched where
  | rows (result : ResultSet)
  | row (row : Option Row)
  | count (n : Nat)
  | keyed (object : Row)
  | values (values : List Value)
  | value (v : Value)

/-- The values without those that equal an earlier one; `seen` came before. -/
def Value.distinctFrom (seen : List Value) : List Value → List Value
  | [] => []
  | v :: values =>
    if seen.any (·.same v) then distinctFrom seen values
    else v :: distinctFrom (v :: seen) values

/-- The values without those that equal an earlier one. -/
def Value.distinct (values : List Value) : List Value := distinctFrom [] values

namespace Table

/-- The reference to a table in a statement. -/
def reference (table : Table) : TableRef := TableRef.parse table.name

/-! ## Fetching -/

/-- The fields of a fetch: those asked for, and those that the mode reads. -/
def fetchFields (table : Table) (mode : FetchMode) (options : FetchOptions) :
    Except Error (List Field) := do
  let required ← mode.requiredColumns (!options.fields.isEmpty)
  return required.foldl (Field.ensure table.name) options.fields

/-- Give the select under construction the clauses of a fetch. -/
def applyOptions (fields : List Field) (contained : List Relation) (options : FetchOptions) :
    Engine.Run σ Unit := do
  if !fields.isEmpty then Engine.fields fields
  if !options.joins.isEmpty then Engine.join options.joins
  options.conditions.forM Engine.filter
  options.order.forM Engine.orderTerm
  options.limit.forM Engine.limit
  contained.forM Engine.contain

/-- Finish the select under construction in the way of a mode. -/
def finishFetch (ctx : Context σ) : FetchMode → Engine.Run σ Fetched
  | .all => return .rows (← Engine.all ctx)
  | .first => return .row (← Engine.first ctx)
  | .count => return .count (← Engine.count ctx)
  | .id => do
    let result ← Engine.all ctx
    return .keyed (← Engine.inSession (ResultSet.once (result.keyedBy ctx "id")))
  | .column field => do
    let result ← Engine.all ctx
    return .values (← Engine.inSession (ResultSet.once (result.column ctx field)))
  | .columnUnique field => do
    let result ← Engine.all ctx
    let values ← Engine.inSession (ResultSet.once (result.column ctx field))
    return .values (Value.distinct values)
  | .unique field => do
    let row ← Engine.first ctx
    return .value ((row.bind (·.get? field)).getD .null)
  | .combine values key => do
    let result ← Engine.all ctx
    return .keyed (← Engine.inSession
      (ResultSet.once (result.combine ctx values key Shaping.defaultGlue)))

/-- Fetch from a table.  What can fail without a statement fails before one is opened. -/
def fetch (ctx : Context σ) (table : Table) (mode : FetchMode) (options : FetchOptions) :
    Engine.Run σ Fetched := do
  let contained ← Engine.inSession (Session.ofExcept (options.contain.mapM table.association))
  let fields ← Engine.inSession (Session.ofExcept (table.fetchFields mode options))
  Engine.find table.reference
  applyOptions fields contained options
  Engine.inSession (Session.emit (.tableFetch table.name))
  finishFetch ctx mode

/-- Whether any row matches a condition. -/
def matchesAny (ctx : Context σ) (table : Table) (conditions : Conditions) :
    Engine.Run σ Bool := do
  Engine.find table.reference
  Engine.filter conditions
  Engine.matchesAny ctx

def get (ctx : Context σ) (table : Table) (id : Value) (fields : List Field) :
    Engine.Run σ (Option Row) := do
  Engine.find table.reference
  if !fields.isEmpty then Engine.fields fields
  Engine.byId ctx id

/-! ## Writing -/

/-- The condition that a row has an id. -/
def hasId (id : Value) : Conditions := Conditions.empty.eq "id" (Operand.ofValue id)

/-- Write a row: over the row with its id, or as a new one if it has none. -/
def save (ctx : Context σ) (table : Table) (row : Row) : Engine.Run σ Execution := do
  let (id, row) := row.take? "id"
  match id.filter fun id => !id.isNull with
  | some id =>
    Engine.update table.reference
    Engine.set row.toValue
    Engine.filter (hasId id)
    Engine.execute ctx
  | none =>
    Engine.insert table.reference
    Engine.values row.toValue
    Engine.execute ctx

def remove (ctx : Context σ) (table : Table) (id : Value) : Engine.Run σ Execution := do
  if id.isNull then
    throw (.configuration (.deleteWithoutId table.name))
  else
    Engine.delete table.reference
    Engine.filter (hasId id)
    Engine.execute ctx

end Table

end RelQuery
