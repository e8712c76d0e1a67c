import RelQuery.Clause.Join
import RelQuery.Clause.Limit
import RelQuery.Clause.Order
import RelQuery.Predicate.Basic

/-!
# Queries

A query is a statement whose names have all been read: nothing is left in it that could fail.  Like
a predicate it is built with slots and written with named parameters.

* `Query` is the type.  `Source` is the part that a select and a count share: what they read from,
  and which of it.
* `Query.bind` names the slots in the order in which they are written.
* `Query.text` writes a query in a dialect; `Query.prepare` does both.
* `Prepared` is the result: a text with named placeholders, and the values of the names.
-/

namespace RelQuery

/-! ## The type -/

/-- What an entry of a select list is computed from. -/
inductive Selected where
  | column (c : Identifier)
  /-- An expression, written as it is. -/
  | raw (text : String)

/-- An entry of a select list. -/
structure SelectItem where
  selected : Selected
  aliasName : Option Identifier

/-- A joined table. -/
structure JoinItem (ρ : Type) where
  kind : JoinType
  table : Identifier
  /-- The name in the statement, where it differs from the table's. -/
  aliasName : Option Identifier
  on : Predicate ρ

/-- What a query reads from: a table, joined tables, and a filter. -/
structure Source (ρ : Type) where
  table : Identifier
  aliasName : Option Identifier
  joins : List (JoinItem ρ)
  filter : Predicate ρ

/-- A column to sort by. -/
structure OrderItem where
  column : Identifier
  direction : Direction

/-- A query. -/
inductive Query (ρ : Type) where
  | select (items : List SelectItem) (source : Source ρ) (order : List OrderItem)
      (limit : Option Limit)
  | count (source : Source ρ)
  | insert (table : Identifier) (values : List (Identifier × ρ))
  | update (table : Identifier) (values : List (Identifier × ρ)) (filter : Predicate ρ)
  | delete (table : Identifier) (filter : Predicate ρ)

def Query.activity {ρ : Type} : Query ρ → Activity
  | select .. => .select
  | count .. => .select
  | insert .. => .insert
  | update .. => .update
  | delete .. => .delete

/-! ## Naming the parameters -/

/-- Name the slots in the condition of a join. -/
def JoinItem.bind (join : JoinItem Slot) : StateM Bindings (JoinItem String) :=
  return ⟨join.kind, join.table, join.aliasName, ← join.on.bind⟩

/-- Name the slots of a source, joins first. -/
def Source.bind (source : Source Slot) : StateM Bindings (Source String) :=
  return ⟨source.table, source.aliasName, ← source.joins.mapM JoinItem.bind, ← source.filter.bind⟩

def Query.bindValues (values : List (Identifier × Slot)) :
    StateM Bindings (List (Identifier × String)) :=
  values.mapM fun (column, slot) => return (column, ← slot.bind)

/-- Name the slots of a query, in the order in which they are written. -/
def Query.bind : Query Slot → StateM Bindings (Query String)
  | select items source order limit => return select items (← source.bind) order limit
  | count source => return count (← source.bind)
  | insert table values => return insert table (← bindValues values)
  | update table values filter => return update table (← bindValues values) (← filter.bind)
  | delete table filter => return delete table (← filter.bind)

/-! ## Writing -/

/-- A name in addition to another one. -/
def aliasText (dialect : Dialect) : Option Identifier → String
  | some aliasName => " AS " ++ aliasName.text dialect
  | none => ""

/-- An entry of a select list in text. -/
def SelectItem.text (dialect : Dialect) (item : SelectItem) : String :=
  (match item.selected with
    | .column c => c.text dialect
    | .raw text => text) ++ aliasText dialect item.aliasName

def JoinItem.text (dialect : Dialect) (join : JoinItem String) : String :=
  " " ++ join.kind.sql ++ " " ++ join.table.text dialect ++ aliasText dialect join.aliasName ++
    " ON " ++ join.on.text dialect

/-- A filter in text; nothing if it restricts nothing. -/
def filterText (dialect : Dialect) (filter : Predicate String) : String :=
  if filter.isEmpty then "" else " WHERE " ++ filter.text dialect

def Source.text (dialect : Dialect) (source : Source String) : String :=
  " FROM " ++ source.table.text dialect ++ aliasText dialect source.aliasName ++
    String.join (source.joins.map (JoinItem.text dialect)) ++ filterText dialect source.filter

def OrderItem.text (dialect : Dialect) (item : OrderItem) : String :=
  item.column.text dialect ++ " " ++ item.direction.sql

/-- An order in text; nothing without a term. -/
def orderText (dialect : Dialect) (order : List OrderItem) : String :=
  if order.isEmpty then ""
  else " ORDER BY " ++ ", ".intercalate (order.map (OrderItem.text dialect))

/-- A limit in text; nothing if it limits nothing. -/
def limitText (dialect : Dialect) (limit : Option Limit) : String :=
  match limit.bind fun limit => dialect.limit limit.offset limit.count with
  | some clause => " " ++ clause
  | none => ""

def Query.text (dialect : Dialect) : Query String → String
  | select items source order limit =>
    "SELECT " ++ ", ".intercalate (items.map (SelectItem.text dialect)) ++ source.text dialect ++
      orderText dialect order ++ limitText dialect limit
  | count source => "SELECT COUNT(*) AS " ++ dialect.quote "count" ++ source.text dialect
  | insert table values =>
    "INSERT INTO " ++ table.text dialect ++
      " (" ++ ", ".intercalate (values.map fun (column, _) => column.text dialect) ++
      ") VALUES (" ++ ", ".intercalate (values.map fun (_, name) => ":" ++ name) ++ ")"
  | update table values filter =>
    "UPDATE " ++ table.text dialect ++ " SET " ++
      ", ".intercalate (values.map fun (column, name) => column.text dialect ++ " = :" ++ name) ++
      filterText dialect filter
  | delete table filter => "DELETE FROM " ++ table.text dialect ++ filterText dialect filter

/-! ## Prepared statements -/

/-- A statement that is ready to run. -/
structure Prepared where
  activity : Activity
  sql : String
  bindings : Bindings
  deriving Inhabited

/-- Name the slots of a query and write it. -/
def Query.prepare (dialect : Dialect) (query : Query Slot) : Prepared :=
  let (named, bindings) := query.bind.run .empty
  ⟨query.activity, named.text dialect, bindings⟩

/-- A prepared statement for a reader: the text, and a line for each parameter. -/
def Prepared.text (prepared : Prepared) : String :=
  prepared.sql ++
    String.join (prepared.bindings.params.map fun (name, v) => "\n  :" ++ name ++ " = " ++ v.text)

end RelQuery
