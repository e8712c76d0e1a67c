import RelQuery.Plan.Basic
import RelQuery.Query.Basic
import RelQuery.Value.Row

/-!
# Result sets

A select that is finished has not run yet.  Its result set knows how to run it and what to do with
the rows; it runs at the first look at the rows, and keeps them from then on.
-/

namespace RelQuery

/-- The rows of a select, fetched when they are first asked for. -/
structure ResultSet where
  /-- The statement that fetches the rows. -/
  prepared : Prepared
  /-- How relations are embedded in them. -/
  plan : Plan
  shaping : Option Shaping
  /-- The name of the rows in errors. -/
  aliasName : String
  /-- The rows, once they were fetched. -/
  rows : Option (List Row) := none

namespace ResultSet

def isMaterialized (result : ResultSet) : Bool := result.rows.isSome

/-- The result set with rows in place of its own. -/
def setRows (result : ResultSet) (rows : List Row) : ResultSet := { result with rows := some rows }

end ResultSet

end RelQuery
