import RelQuery.Clause.Join
import RelQuery.Clause.Order
import RelQuery.Identifier
import RelQuery.Naming
import RelQuery.Relation.Mode
import RelQuery.Shaping

/-!
# Relations

A relation is declared once and loaded with any select that contains it: which table it reaches, by
which keys, on which further conditions, and what of it is wanted.  Relations nest.

* `Link` is what is declared about one relation; `Relation` is a link with the relations nested in
  it.
* `Relation.aliases` are the names that a relation takes in the statement that contains it.
* `Relation.check` accepts a declaration.  Options that a mode has no use for are refused, not
  ignored.
-/

namespace RelQuery

/-- What is declared about one relation.  An omitted key is inferred when the relation is used. -/
structure Link where
  mode : RelationMode
  /-- The key under which related rows are embedded, and the alias of a joined table. -/
  aliasName : String
  table : String
  /-- The referenced column: on the child of a `belongsTo`, else on the parent. -/
  bindingKey : Option String := none
  /-- The referencing column: on the parent of a `belongsTo`, on the junction table, or on the
  child. -/
  foreignKey : Option String := none
  /-- The junction table. -/
  through : Option String := none
  /-- The column of the junction table that references the related table. -/
  targetForeignKey : Option String := none
  /-- The column of the related table that the junction table references. -/
  targetKey : Option String := none
  joinType : Option JoinType := none
  /-- A further restriction of the inferred condition. -/
  conditions : Option Conditions := none
  /-- A condition in place of the inferred one. -/
  replacement : Option Conditions := none
  fields : List String := []
  shape : Option Shaping := none
  /-- The number of rows that each parent keeps. -/
  limit : Option Nat := none
  order : List OrderTerm := []
  naming : Option Naming := none
  deriving Inhabited

/-- A relation with the relations nested in it. -/
structure Relation where
  link : Link
  nested : List Relation
  deriving Inhabited

namespace Link

/-- A relation to a table under the table's own name. -/
def ofTable (mode : RelationMode) (table : String) : Link := { mode, aliasName := table, table }

def bindingKeyOrId (link : Link) : String := link.bindingKey.getD "id"

/-- The kind of the join of a relation that is joined. -/
def joinKind (link : Link) : JoinType := link.joinType.getD .left

/-- The names in a declaration that become part of a statement, in the order of checking. -/
def names (link : Link) : List String :=
  let keys :=
    [link.bindingKey, link.foreignKey, link.through, link.targetForeignKey, link.targetKey]
  [link.aliasName, link.table] ++ keys.filterMap id

/-- Whether the declaration has a key that only a junction table needs. -/
def hasJunctionKeys (link : Link) : Bool :=
  link.through.isSome || link.targetForeignKey.isSome || link.targetKey.isSome

/-- Whether the declaration shapes, limits or orders each parent's rows. -/
def hasShaping (link : Link) : Bool :=
  link.shape.isSome || link.limit.isSome || !link.order.isEmpty

def fault? (link : Link) : Option RelationFault :=
  match link.names.findSome? Identifier.partFault? with
  | some fault => some (.name fault)
  | none =>
    if link.mode ≠ .belongsToMany ∧ link.hasJunctionKeys then some .junctionKeys
    else if link.mode.isToOne && link.hasShaping then some .shaping
    else if !link.mode.isToOne && link.joinType.isSome then some .joinType
    else if link.conditions.isSome && link.replacement.isSome then some .bothConditions
    else none

end Link

namespace Relation

def aliasName (relation : Relation) : String := relation.link.aliasName

/-- A relation to a table under the table's own name, with nothing nested. -/
def ofTable (mode : RelationMode) (table : String) : Relation := ⟨.ofTable mode table, []⟩

mutual

/-- The aliases that a relation takes in the statement that contains it.  A joined relation brings
those of the relations nested in it along. -/
def aliases : Relation → List String
  | ⟨link, nested⟩ => link.aliasName :: (if link.mode.isToOne then aliasesOfAll nested else [])

/-- The aliases that some relations take. -/
def aliasesOfAll : List Relation → List String
  | [] => []
  | relation :: relations => aliases relation ++ aliasesOfAll relations

end

mutual

/-- How deep relations nest, this one included. -/
def depth : Relation → Nat
  | ⟨_, nested⟩ => depthOfAll nested + 1

def depthOfAll : List Relation → Nat
  | [] => 0
  | relation :: relations => max (depth relation) (depthOfAll relations)

end

mutual

/-- Accept a declaration and those nested in it. -/
def check : Relation → Except Error Unit
  | ⟨link, nested⟩ =>
    match link.fault? with
    | some fault => misuse (.relation link.mode link.aliasName fault)
    | none => checkNested link [] nested

/-- Accept relations nested in `link`; their aliases differ from each other and from `seen`. -/
def checkNested (link : Link) (seen : List String) : List Relation → Except Error Unit
  | [] => .ok ()
  | relation :: relations => do
    check relation
    if seen.contains relation.aliasName then
      misuse (.relation link.mode link.aliasName (.nestedAlias relation.aliasName))
    else checkNested link (relation.aliasName :: seen) relations

end

end Relation

end RelQuery
