import RelQuery.Relation.Basic

/-!
# Tables

A table is declared with its associations: the relations that a fetch can ask for by alias.

* `Table.associate` declares an association, `Table.association` finds one.
* `Registry` holds declarations by name.  A declaration that is at fault fails when it is looked up.
-/

namespace RelQuery

/-- A table with its associations, in the order of declaration. -/
structure Table where
  name : String
  associations : List Relation := []

namespace Table

def association (table : Table) (aliasName : String) : Except Error Relation :=
  match table.associations.find? (·.aliasName == aliasName) with
  | some relation => .ok relation
  | none => misuse (.unknownAssociation aliasName table.name)

/-- Declare an association under an alias that is neither the table's name nor taken. -/
def associate (table : Table) (relation : Relation) : Except Error Table := do
  relation.check
  let taken := table.name :: table.associations.map Relation.aliasName
  if relation.aliasName ∈ taken then
    misuse (.associationTwice relation.aliasName table.name)
  else return { table with associations := table.associations ++ [relation] }

end Table

/-- Declarations of tables by name. -/
structure Registry where
  declarations : List (String × Except Error Table)

namespace Registry

def empty : Registry := ⟨[]⟩

/-- Register a declaration, in place of one of the same name. -/
def register (registry : Registry) (name : String) (table : Except Error Table) : Registry :=
  ⟨(name, table) :: registry.declarations⟩

def contains (registry : Registry) (name : String) : Bool :=
  (registry.declarations.lookup name).isSome

def get (registry : Registry) (name : String) : Except Error Table :=
  match registry.declarations.lookup name with
  | some table => table
  | none => misuse (.unregisteredTable name)

end Registry

end RelQuery
