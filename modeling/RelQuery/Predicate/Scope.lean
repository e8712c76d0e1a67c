import RelQuery.Condition.Basic
import RelQuery.Predicate.Basic

/-!
# Conditions in a scope

What a condition says depends on where it stands: which tables are joined, which of them a bare
column belongs to, and whether values are parameters or part of the text.

* `Scope` is that context.
* `Scope.links` turns the entries of a condition into the links of a predicate.  A connector holds
  until the next one; an entry that contributes nothing is left out.
* `Conditions.predicate` does so for a whole condition.

Three things nest.  A group starts over with `AND`.  A condition under the alias of a joined table
is about that table.  A condition under any other key forces the key on everything inside, and its
parts are alternatives.
-/

namespace RelQuery

/-- The context of a condition. -/
structure Scope where
  /-- The table of a column that names none. -/
  defaultTable : Option String := none
  /-- The connector before any other is given. -/
  connector : Connector := .and
  /-- The column that every comparison is about, whatever its own key says. -/
  forcedKey : Option String := none
  /-- Whether values become parameters.  Otherwise texts name columns and other values are
  literals, as in the condition of a join. -/
  parameterize : Bool := true
  /-- The aliases of the tables in the statement. -/
  joined : List String := []

namespace Scope

/-! ## Columns and comparisons -/

/-- The field and the operator of a clause.  Where a key is forced, the clause's own key only
contributes its operator, and may be nothing but one. -/
def resolveKey (scope : Scope) (key : String) (op : Option Operator) : String × Option Operator :=
  match scope.forcedKey with
  | some forced => (forced, op <|> Operator.parse? key <|> (Operator.splitKey key).2)
  | none =>
    let (field, keyOp) := Operator.splitKey key
    (field, op <|> keyOp)

/-- Whether a field names its table. -/
def isQualified (field : String) : Bool := field.toList.contains '.'

def columnOf (scope : Scope) (field : String) : Except Error Identifier :=
  if isQualified field then Identifier.parse field
  else Identifier.column scope.defaultTable field

/-- The base of the name of a parameter that a field is compared with. -/
def parameterBase (scope : Scope) (field : String) : String :=
  match isQualified field, scope.defaultTable with
  | false, some table => "cnd_" ++ table ++ "_" ++ field
  | _, _ => "cnd_" ++ field

/-- The operator that a comparison with null is written with. -/
def nullOperator : Operator → Operator
  | .eq => .is
  | .ne => .isNot
  | op => op

/-- The right-hand side of an operator: `IN` takes a list. -/
def sideOf {ρ : Type} (op : Operator) (a : Atom ρ) : Side ρ :=
  if op = .within then .many [a] else .one a

/-- What a field is compared with when the value is not null. -/
def atomOf (scope : Scope) (field : String) (v : Value) : Except Error (Atom Slot) :=
  if scope.parameterize then
    .ok (.param ⟨scope.parameterBase field, v.normalized⟩)
  else match v with
    | .str s => (Identifier.parse s).map .column
    | v => .ok (.literal v.normalized)

/-- The comparison of a field with one value.  Null is written into the text. -/
def compareValue (scope : Scope) (field : String) (op : Operator) (v : Value) :
    Except Error (Comparison Slot) := do
  let column ← scope.columnOf field
  if v.isNull then
    return ⟨column, nullOperator op, .one (.literal .null)⟩
  else
    return ⟨column, op, sideOf op (← scope.atomOf field v)⟩

/-- The comparison of a field with another column. -/
def compareColumn (scope : Scope) (field : String) (op : Operator) (other : String) :
    Except Error (Comparison Slot) := do
  let column ← scope.columnOf field
  return ⟨column, op, .one (.column (← Identifier.parse other))⟩

/-- The test that a field is one of some values.  No column is one of no values. -/
def compareList (scope : Scope) (field : String) (items : List Value) :
    Except Error (Comparison Slot) := do
  let column ← scope.columnOf field
  let atoms := if items.isEmpty then [.literal .null] else items.map fun v => .literal v.normalized
  return ⟨column, .within, .many atoms⟩

/-- A chain as one term; an empty one contributes nothing. -/
def chainOf {ρ : Type} (links : List (Connector × Term ρ)) : Option (Term ρ) :=
  if links.isEmpty then none else some (.chain links)

def grouped (scope : Scope) : Scope := { scope with connector := .and, forcedKey := none }

/-- The scope of a condition on a joined table. -/
def inTable (scope : Scope) (aliasName : String) : Scope :=
  { scope with defaultTable := some aliasName, connector := .and, forcedKey := none }

/-- The scope of alternatives for one column. -/
def forced (scope : Scope) (field : String) : Scope :=
  { scope with forcedKey := some field, connector := .or }

/-! ## Alternatives -/

mutual

/-- One alternative: a comparison, or for a list the alternatives in it.  The key of an alternative
is read again, as the key of any clause. -/
def alternative (scope : Scope) (op : Operator) (key : String) :
    Value → Except Error (Option (Term Slot))
  | .arr items => do
    return chainOf (← scope.alternatives op (Operator.splitKey key).1 items)
  | v => do
    return some (.test (← scope.compareValue (Operator.splitKey key).1 op v))

/-- A link for each value that contributes one, all joined by `OR`. -/
def alternatives (scope : Scope) (op : Operator) (key : String) :
    List Value → Except Error (List (Connector × Term Slot))
  | [] => return []
  | v :: items => do
    let term ← scope.alternative op key v
    let links ← scope.alternatives op key items
    match term with
    | some term => return (.or, term) :: links
    | none => return links

end

/-! ## Entries -/

mutual

/-- The term of a clause, if it contributes one. -/
def clause (scope : Scope) (key : String) (op : Option Operator) :
    Operand → Except Error (Option (Term Slot))
  | .nested entries => do
    let aliasName := Text.trim key
    if scope.forcedKey.isNone && scope.joined.contains aliasName then
      return chainOf (← (scope.inTable aliasName).links none entries)
    else
      let (field, op) := scope.resolveKey key op
      if op.isSome then misuse (.nestedOperator field)
      else return chainOf (← (scope.forced field).links none entries)
  | .list items => do
    let (field, op) := scope.resolveKey key op
    match op.getD .within with
    | .within => return some (.test (← scope.compareList field items))
    | op => return chainOf (← scope.grouped.alternatives op field items)
  | .column other => do
    let (field, op) := scope.resolveKey key op
    return some (.test (← scope.compareColumn field (op.getD .eq) other))
  | .scalar v => do
    let (field, op) := scope.resolveKey key op
    return some (.test (← scope.compareValue field (op.getD .eq) v))

/-- The links of a list of entries; `current` is the connector that was given last. -/
def links (scope : Scope) (current : Option Connector) :
    List Entry → Except Error (List (Connector × Term Slot))
  | [] => return []
  | .connector c :: entries => scope.links (some c) entries
  | .clause key op operand :: entries => do
    let term ← scope.clause key op operand
    let rest ← scope.links current entries
    match term with
    | some term => return (current.getD scope.connector, term) :: rest
    | none => return rest
  | .group inner :: entries => do
    let term := chainOf (← scope.grouped.links none inner)
    let rest ← scope.links current entries
    match term with
    | some term => return (current.getD scope.connector, term) :: rest
    | none => return rest

end

end Scope

/-- What a condition says in a scope. -/
def Conditions.predicate (c : Conditions) (scope : Scope) : Except Error (Predicate Slot) :=
  (scope.links none c.entries).map Predicate.mk

end RelQuery
