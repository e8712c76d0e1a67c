import RelQuery.Text.Blank

/-!
# Main tables

The table that a statement is about, possibly under another name.
-/

namespace RelQuery

/-- The main table of a statement. -/
structure TableRef where
  name : String
  aliasName : Option String := none
  deriving DecidableEq, Repr, Inhabited

namespace TableRef

/-- The name by which the rest of the statement refers to the table. -/
def reference (table : TableRef) : String := table.aliasName.getD table.name

/-- Read `users`, `users u` or `users AS u`. -/
def parse (s : String) : TableRef :=
  match Text.words s with
  | [name, aliasName] => ⟨name, some aliasName⟩
  | [name, word, aliasName] =>
    if Text.sameKeyword word "as" then ⟨name, some aliasName⟩ else ⟨Text.trim s, none⟩
  | _ => ⟨Text.trim s, none⟩

end TableRef

end RelQuery
