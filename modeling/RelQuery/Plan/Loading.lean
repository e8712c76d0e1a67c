import RelQuery.Engine.Clauses
import RelQuery.Engine.Finalize
import RelQuery.Plan.Folding

/-!
# Loading deferred relations

A relation to many rows is loaded by one select for all parents: the keys of the parents are
collected, the related rows are fetched by these keys, and each parent gets the rows of its key.
However many parents there are, a relation costs one query.

* `Deferred.keys` collects the keys, once each.
* `Deferred.request` is the select of the related rows, `Deferred.groups` their assignment to keys.
* `Deferred.embed` puts the rows of a key into its owners.
* `Deferred.attachAll` does all of this for the relations of a select, and
  `ResultSet.materialize` for a result set.  The related rows are a result set themselves, so the
  two recurse; what bounds the recursion is how deep the relations nest.
-/

namespace RelQuery

variable {σ : Type}

namespace Deferred

/-! ## Keys of the parents -/

/-- The object that owns a relation: the row itself, or what stands at the end of the path. -/
def ownerAt (row : Row) : List String → Option Row
  | [] => some row
  | aliasName :: path =>
    match row.get? aliasName with
    | some (.obj members) => ownerAt ⟨members⟩ path
    | _ => none

/-- The values of the parents' keys, in order of first appearance; equal keys count once, and null
is no key.  `seen` are the keys so far. -/
def keysFrom (deferred : Deferred) (seen : List String) : List Row → Except Error (List Value)
  | [] => .ok []
  | row :: rows =>
    match ownerAt row deferred.path with
    | none => deferred.keysFrom seen rows
    | some owner => do
      let value ← owner.require deferred.parentKey deferred.relation.aliasName
      match value.key? with
      | none => deferred.keysFrom seen rows
      | some key =>
        if seen.contains key then deferred.keysFrom seen rows
        else return value :: (← deferred.keysFrom (key :: seen) rows)

/-- The values of the parents' keys. -/
def keys (deferred : Deferred) (rows : List Row) : Except Error (List Value) :=
  deferred.keysFrom [] rows

/-! ## The related rows -/

/-- The name of the junction table's key in the fetched rows. -/
def pivotKey : String := "__pivot_parent_key"

/-- A field of the related table, qualified where it stands beside a junction table. -/
def qualified (table : String) (field : Field) : Field :=
  match field.table, field.name with
  | none, .column _ => { field with table := some table }
  | none, .all => { field with table := some table }
  | _, _ => field

/-- The declared fields of a relation. -/
def declaredFields (deferred : Deferred) : List Field :=
  deferred.relation.link.fields.map Field.parse

/-- The fields that the related rows are fetched with, if not all of them: the declared ones and the
key that is matched. -/
def requestFields (deferred : Deferred) : List Field :=
  let table := deferred.relation.link.table
  match deferred.junction with
  | none =>
    if deferred.relation.link.fields.isEmpty then []
    else Field.ensure table deferred.declaredFields deferred.childKey
  | some junction =>
    let own :=
      if deferred.relation.link.fields.isEmpty then [Field.allOf table]
      else deferred.declaredFields.map (qualified table)
    own ++ [{ table := some junction.table, name := .column deferred.childKey,
              aliasName := some pivotKey }]

def junctionJoin (deferred : Deferred) (junction : Junction) : Join :=
  ⟨junction.table, junction.table, .inner,
    Conditions.empty.column (junction.table ++ "." ++ junction.targetForeignKey)
      (deferred.relation.link.table ++ "." ++ junction.targetKey)⟩

/-- The column that the keys of the parents are compared with. -/
def filterKey (deferred : Deferred) : String :=
  match deferred.junction with
  | none => deferred.childKey
  | some junction => junction.table ++ "." ++ deferred.childKey

/-- The condition on the related rows. -/
def requestFilter (deferred : Deferred) (keys : List Value) : Conditions :=
  match deferred.relation.link.replacement with
  | some replacement => replacement
  | none =>
    (Conditions.empty.within deferred.filterKey keys).extend
      (deferred.relation.link.conditions.getD .empty)

/-- Write the select of the related rows, on an engine of its own. -/
def request (ctx : Context σ) (deferred : Deferred) (keys : List Value) :
    Engine.Run σ ResultSet := do
  Engine.find (TableRef.parse deferred.relation.link.table)
  if !deferred.requestFields.isEmpty then
    Engine.fields deferred.requestFields
  match deferred.junction with
  | none => pure ()
  | some junction => Engine.join [deferred.junctionJoin junction]
  Engine.filter (deferred.requestFilter keys)
  deferred.relation.link.order.forM Engine.orderTerm
  deferred.relation.nested.forM Engine.contain
  Engine.all ctx

/-- The key of a related row, and the row without the junction table's column. -/
def keyOf (deferred : Deferred) (row : Row) : Option Value × Row :=
  match deferred.junction with
  | some _ => row.take? pivotKey
  | none => (row.get? deferred.childKey, row)

/-- The related rows with their keys, in order; rows without a key are left out. -/
def groups (deferred : Deferred) : List Row → Except Error (List (String × Row))
  | [] => .ok []
  | row :: rows =>
    match deferred.keyOf row with
    | (none, _) => .error (.missingKey deferred.childKey deferred.relation.aliasName)
    | (some value, row) => do
      let rest ← deferred.groups rows
      match value.key? with
      | some key => return (key, row) :: rest
      | none => return rest

/-! ## Embedding -/

def groupOf (groups : List (String × Row)) (key : Option String) : List Row :=
  match key with
  | some key => (groups.filter fun (k, _) => k == key).map Prod.snd
  | none => []

/-- What an owner gets: its rows, as many as it keeps, in the shape that was declared. -/
def embedded (deferred : Deferred) (rows : List Row) : Except Error Value :=
  let link := deferred.relation.link
  let kept := match link.limit with
    | some limit => rows.take limit
    | none => rows
  match link.shape with
  | some shape => shape.apply kept link.aliasName
  | none => .ok (Rows.toValue kept)

def embedInOwner (deferred : Deferred) (groups : List (String × Row)) (owner : Row) :
    Except Error Row := do
  let key := (owner.get? deferred.parentKey).bind Value.key?
  return owner.insert deferred.relation.aliasName (← deferred.embedded (groupOf groups key))

/-- Change the object at the end of a path; a row without one stays as it is. -/
def changeAt (change : Row → Except Error Row) : List String → Row → Except Error Row
  | [], row => change row
  | aliasName :: path, row =>
    match row.get? aliasName with
    | some (.obj members) => do
      return row.insert aliasName (← changeAt change path ⟨members⟩).toValue
    | _ => .ok row

def embed (deferred : Deferred) (groups : List (String × Row)) (rows : List Row) :
    Except Error (List Row) :=
  rows.mapM (changeAt (deferred.embedInOwner groups) deferred.path)

/-! ## All relations of a select -/

/-- Fetch the rows of some keys and assign them; no keys need no query. -/
def load (materialize : ResultSet → Session.Run σ (List Row)) (ctx : Context σ)
    (deferred : Deferred) (keys : List Value) : Session.Run σ (List (String × Row)) := do
  if keys.isEmpty then return []
  else
    let link := deferred.relation.link
    Session.emit (.loading link.aliasName link.mode keys.length)
    let result ← Engine.alone (deferred.request ctx keys)
    let rows ← materialize result
    Session.ofExcept (deferred.groups rows)

/-- Load relations one after the other, each with the keys that were collected for it. -/
def attachEach (materialize : ResultSet → Session.Run σ (List Row)) (ctx : Context σ) :
    List (Deferred × List Value) → List Row → Session.Run σ (List Row)
  | [], rows => return rows
  | (deferred, keys) :: rest, rows => do
    let groups ← deferred.load materialize ctx keys
    let rows ← Session.ofExcept (deferred.embed groups rows)
    attachEach materialize ctx rest rows

/-- Load the relations of some rows.  The keys for all of them are collected before anything is
embedded. -/
def attachAll (materialize : ResultSet → Session.Run σ (List Row)) (ctx : Context σ)
    (deferreds : List Deferred) (rows : List Row) : Session.Run σ (List Row) := do
  if deferreds.isEmpty || rows.isEmpty then return rows
  else
    let batches ← Session.ofExcept (deferreds.mapM fun deferred => deferred.keys rows)
    attachEach materialize ctx (deferreds.zip batches) rows

end Deferred

namespace ResultSet

/-- Run the statement and fold the joined relations. -/
def flatRows (ctx : Context σ) (result : ResultSet) : Session.Run σ (List Row) := do
  return (← ctx.fetch result.prepared).map (Row.fold result.plan.nodes)

/-- Fetch the rows with all relations in them, deferred ones down to a depth. -/
def materializeTo (ctx : Context σ) : Nat → ResultSet → Session.Run σ (List Row)
  | 0, result => result.flatRows ctx
  | depth + 1, result => do
    let rows ← result.flatRows ctx
    Deferred.attachAll (materializeTo ctx depth) ctx result.plan.deferred rows

/-- Fetch the rows with all relations in them.  Deferred relations nest no deeper than the plan
says, so no relation is left out. -/
def materialize (ctx : Context σ) (result : ResultSet) : Session.Run σ (List Row) :=
  result.materializeTo ctx result.plan.depth

end ResultSet

end RelQuery
