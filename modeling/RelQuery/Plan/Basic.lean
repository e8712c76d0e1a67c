import RelQuery.Clause.Field
import RelQuery.Relation.Basic

/-!
# Plans

What the relations of a select add to it.  Relations to one row become joins and extra columns,
relations to many rows are put off until there are parent rows.

* `Plan` is the sum of all additions; plans of neighbouring relations are appended.
* `Node` says how extra columns are folded into objects, `Deferred` what is loaded later.
* `Plan.prefixed` names the extra columns so that they can be told apart.
-/

namespace RelQuery

/-- A joined relation whose columns are folded out of the parent row. -/
structure Node where
  aliasName : String
  columns : List String
  children : List Node

/-- The junction table of a deferred relation. -/
structure Junction where
  table : String
  /-- Its column that references the related table. -/
  targetForeignKey : String
  /-- The column of the related table that is referenced. -/
  targetKey : String
  deriving DecidableEq, Repr

/-- A relation to many rows, to be loaded when the parent rows are there. -/
structure Deferred where
  relation : Relation
  /-- The aliases that lead from a row to the object that owns the relation. -/
  path : List String
  /-- The column that is read from the owner. -/
  parentKey : String
  /-- The column of the related rows, or of the junction table, that is matched with it. -/
  childKey : String
  junction : Option Junction

/-- What relations add to a select. -/
structure Plan where
  joins : List Join := []
  fields : List Field := []
  nodes : List Node := []
  deferred : List Deferred := []
  /-- The columns of the main table that deferred relations read. -/
  rootKeys : List String := []

namespace Plan

/-- The name that a column of a joined relation has in the parent row. -/
def prefixed (aliasName column : String) : String := "__contain_" ++ aliasName ++ "__" ++ column

/-- Whether a plan neither joins nor defers anything. -/
def isEmpty (plan : Plan) : Bool := plan.joins.isEmpty && plan.deferred.isEmpty

/-- The additions of both plans; a key that both read is listed once. -/
def append (plan other : Plan) : Plan where
  joins := plan.joins ++ other.joins
  fields := plan.fields ++ other.fields
  nodes := plan.nodes ++ other.nodes
  deferred := plan.deferred ++ other.deferred
  rootKeys := plan.rootKeys ++ other.rootKeys.filter fun key => !plan.rootKeys.contains key

def depth (plan : Plan) : Nat :=
  Relation.depthOfAll (plan.deferred.map Deferred.relation)

end Plan

end RelQuery
