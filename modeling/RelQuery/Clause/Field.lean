import RelQuery.Text.Blank

/-!
# Fields of a select

A field is what one entry of a select list asks for: a column, all columns of a table, or an
expression that is taken as it is.

* `Field` is the type; `Field.parse` reads the short form, such as `p.title AS heading`.
* `Field.covers` says whether a field already brings a column into the result under its own name.
-/

namespace RelQuery

/-- What an entry of a select list selects. -/
inductive FieldName where
  | column (name : String)
  | all
  /-- An expression, written as it is. -/
  | raw (text : String)
  deriving DecidableEq, Repr, Inhabited

/-- An entry of a select list. -/
structure Field where
  table : Option String := none
  name : FieldName
  aliasName : Option String := none
  deriving DecidableEq, Repr, Inhabited

namespace Field

/-- A column of the main table. -/
def column (name : String) : Field := { name := .column name }

def allOf (table : String) : Field := { table := some table, name := .all }

/-! ## Reading -/

/-- Whether `cs` begins with the word `AS` between two spaces. -/
def beginsWithAs (cs : List Char) : Bool := (cs.take 4).map Char.toUpper == " AS ".toList

/-- How many parentheses are open after a character; a closing one too many is ignored. -/
def depthAfter (depth : Nat) (c : Char) : Nat :=
  if c = '(' then depth + 1 else if c = ')' then depth - 1 else depth

/-- The texts before and after the last `AS` between spaces outside parentheses. -/
def splitAlias? (depth : Nat) : List Char → Option (List Char × List Char)
  | [] => none
  | c :: cs =>
    match splitAlias? (depthAfter depth c) cs with
    | some (body, aliasName) => some (c :: body, aliasName)
    | none =>
      if depth = 0 && beginsWithAs (c :: cs) then some ([], (c :: cs).drop 4) else none

/-- The texts before and after the last point. -/
def splitTable? : List Char → Option (List Char × List Char)
  | [] => none
  | c :: cs =>
    match splitTable? cs with
    | some (table, name) => some (c :: table, name)
    | none => if c = '.' then some ([], cs) else none

/-- A field without an alias: an expression if it has a parenthesis, all columns for `*`, or a
column, with a table before the last point. -/
def ofBody (body : String) : Field :=
  if body.toList.contains '(' then { name := .raw body }
  else if body = "*" then { name := .all }
  else match splitTable? body.toList with
    | none => column body
    | some (table, name) =>
      { table := some (String.ofList table)
        name := if name = ['*'] then .all else .column (String.ofList name) }

/-- Read a field in its short form. -/
def parse (spec : String) : Field :=
  let spec := Text.trim spec
  match splitAlias? 0 spec.toList with
  | none => ofBody spec
  | some (body, aliasName) =>
    let field := ofBody (Text.trim (String.ofList body))
    { field with aliasName := some (Text.trim (String.ofList aliasName)) }

/-! ## Names in the result -/

/-- The name under which the field stands in a row, if it is known before the statement runs. -/
def outputName? (field : Field) : Option String :=
  match field.aliasName, field.name with
  | some aliasName, _ => some aliasName
  | none, .column name => some name
  | none, _ => none

/-- Whether the field brings a column of a table into the result under the column's own name.  A
field that names no table is about the main one; an expression counts by its alias. -/
def covers (field : Field) (table column : String) (isMain : Bool) : Bool :=
  let sameTable := match field.table with
    | some t => t == table
    | none => isMain
  match field.name with
  | .all => sameTable
  | .column name => sameTable && name == column && (field.aliasName.all (· == column))
  | .raw _ => field.aliasName == some column

/-- Whether some field of a list covers a column. -/
def anyCovers (fields : List Field) (table column : String) : Bool :=
  fields.any (·.covers table column true)

/-- The fields with a column of the main table added, unless it is covered. -/
def ensure (table : String) (fields : List Field) (column : String) : List Field :=
  if anyCovers fields table column then fields else fields ++ [Field.column column]

end Field

end RelQuery
