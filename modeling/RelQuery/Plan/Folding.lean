import RelQuery.Plan.Basic
import RelQuery.Value.Row

/-!
# Folding joined relations

The rows of a select are flat: the columns of a joined relation stand beside those of its parent,
under prefixed names.  Folding takes them out again and puts an object in their place.

* `Node.extract` takes one relation out of a row, together with the relations under it.
* `Row.fold` does so for all relations of a row.
-/

namespace RelQuery

/-- Take the columns of a joined relation out of a row.  The result is the rest of the row, the
columns under their own names, and whether any of them holds a value. -/
def Node.extractColumns (aliasName : String) :
    List String → Row → Row → Bool → Row × Row × Bool
  | [], row, object, found => (row, object, found)
  | column :: columns, row, object, found =>
    let (value, row) := row.take? (Plan.prefixed aliasName column)
    let value := value.getD .null
    extractColumns aliasName columns row (object.insert column value) (found || !value.isNull)

mutual

/-- Take a joined relation out of a row: the object of its columns and of the relations under it, or
null if none of its own columns holds a value. -/
def Node.extract : Node → Row → Value × Row
  | ⟨aliasName, columns, children⟩, row =>
    let (row, object, found) := Node.extractColumns aliasName columns row .empty false
    let (object, row) := Node.extractAll children object row
    (if found then object.toValue else .null, row)

/-- Take relations out of a row and put each into an object under its alias. -/
def Node.extractAll : List Node → Row → Row → Row × Row
  | [], object, row => (object, row)
  | node :: nodes, object, row =>
    let (value, row) := Node.extract node row
    Node.extractAll nodes (object.insert node.aliasName value) row

end

/-- The row with its joined relations as objects, in the order of the relations. -/
def Row.fold (nodes : List Node) (row : Row) : Row :=
  nodes.foldl (fun row node =>
    let (value, rest) := node.extract row
    rest.insert node.aliasName value) row

end RelQuery
