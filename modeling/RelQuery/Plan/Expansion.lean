import RelQuery.Clause.Table
import RelQuery.Plan.Basic
import RelQuery.Session.Basic

/-!
# Expanding relations

The plan of a select follows from its relations: keys that were not declared are inferred from the
names of the tables, and the columns of joined tables are looked up unless fields were declared.

* `Link.joinCondition` is the condition on which a relation to one row is joined.
* `Link.deferred` is what a relation to many rows is put off as.
* `Relation.expand` makes the plan of a relation, `Plan.ofRelations` that of a select.
-/

namespace RelQuery

variable {σ : Type}

/-! ## Keys -/

namespace Link

/-- The convention that the keys of a relation are inferred by. -/
def namingOr (link : Link) (naming : Naming) : Naming := link.naming.getD naming

/-- The inferred condition of a joined relation: the child references the parent, or the parent the
child. -/
def inferredCondition (link : Link) (naming : Naming) (parentAlias parentTable : String) :
    Conditions :=
  match link.mode with
  | .hasOne =>
    let key := link.foreignKey.getD (naming.foreignKey parentTable)
    Conditions.empty.column (link.aliasName ++ "." ++ key)
      (parentAlias ++ "." ++ link.bindingKeyOrId)
  | _ =>
    let key := link.foreignKey.getD (naming.foreignKey link.table)
    Conditions.empty.column (link.aliasName ++ "." ++ link.bindingKeyOrId)
      (parentAlias ++ "." ++ key)

/-- The condition on which a relation is joined. -/
def joinCondition (link : Link) (naming : Naming) (parentAlias parentTable : String) :
    Conditions :=
  match link.replacement with
  | some replacement => replacement
  | none =>
    (link.inferredCondition naming parentAlias parentTable).extend (link.conditions.getD .empty)

/-- The join of a relation to one row. -/
def join (link : Link) (naming : Naming) (parentAlias parentTable : String) : Join :=
  (Join.mk link.table link.aliasName link.joinKind .empty).restrict
    (link.joinCondition naming parentAlias parentTable)

/-- The junction table of a relation that has one. -/
def junction? (link : Link) (naming : Naming) (parentTable : String) : Option Junction :=
  if link.mode = .belongsToMany then
    some {
      table := link.through.getD (naming.junction parentTable link.table)
      targetForeignKey := link.targetForeignKey.getD (naming.foreignKey link.table)
      targetKey := link.targetKey.getD "id" }
  else none

end Link

/-- What a relation to many rows is put off as. -/
def Relation.deferred (relation : Relation) (naming : Naming) (parentTable : String)
    (path : List String) : Deferred where
  relation := relation
  path := path
  parentKey := relation.link.bindingKeyOrId
  childKey := relation.link.foreignKey.getD (naming.foreignKey parentTable)
  junction := relation.link.junction? naming parentTable

/-! ## Columns -/

/-- The columns with the keys added that relations to many rows read from them. -/
def Plan.withKeys (columns : List String) (nested : List Relation) : List String :=
  (nested.filter fun relation => !relation.link.mode.isToOne).foldl
    (fun columns relation =>
      let key := relation.link.bindingKeyOrId
      if columns.contains key then columns else columns ++ [key])
    columns

/-- The columns of a joined relation: the declared fields, or else all columns of the table. -/
def Context.relationColumns (ctx : Context σ) (link : Link) (nested : List Relation) :
    Session.Run σ (List String) := do
  let columns ← if link.fields.isEmpty then ctx.columns link.table else pure link.fields
  if columns.isEmpty then throw (.configuration (.noColumns link.table link.aliasName))
  else return Plan.withKeys columns nested

/-- The select field of a column of a joined relation. -/
def Plan.fieldOf (aliasName column : String) : Field where
  table := some aliasName
  name := .column column
  aliasName := some (Plan.prefixed aliasName column)

/-! ## Plans -/

namespace Relation

mutual

/-- The plan of a relation of a parent.  `path` leads from a row to the parent, and is empty for the
main table.  Without `withFields` only joins are planned and no columns are looked up. -/
def expand (ctx : Context σ) (withFields : Bool) (parentAlias parentTable : String)
    (path : List String) : Relation → Session.Run σ Plan
  | ⟨link, nested⟩ => do
    Session.emit (.expanding link.aliasName link.mode parentAlias)
    let naming := link.namingOr ctx.naming
    if link.mode.isToOne then
      let columns ← if withFields then ctx.relationColumns link nested else pure []
      let deeper := path ++ [link.aliasName]
      let inner ← expandAll ctx withFields link.aliasName link.table deeper nested
      return {
        joins := link.join naming parentAlias parentTable :: inner.joins
        fields := columns.map (Plan.fieldOf link.aliasName) ++ inner.fields
        nodes := [⟨link.aliasName, columns, inner.nodes⟩]
        deferred := inner.deferred
        rootKeys := inner.rootKeys }
    else
      let deferred := (Relation.mk link nested).deferred naming parentTable path
      return {
        deferred := [deferred]
        rootKeys := if path.isEmpty then [deferred.parentKey] else [] }

/-- The plan of the relations of a parent, in order. -/
def expandAll (ctx : Context σ) (withFields : Bool) (parentAlias parentTable : String)
    (path : List String) : List Relation → Session.Run σ Plan
  | [] => return {}
  | relation :: relations => do
    let plan ← expand ctx withFields parentAlias parentTable path relation
    return plan.append (← expandAll ctx withFields parentAlias parentTable path relations)

end

end Relation

/-- The plan of the relations of a main table. -/
def Plan.ofRelations (ctx : Context σ) (withFields : Bool) (relations : List Relation)
    (main : TableRef) : Session.Run σ Plan :=
  Relation.expandAll ctx withFields main.reference main.name [] relations

end RelQuery
