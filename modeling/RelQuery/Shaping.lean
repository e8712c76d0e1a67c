import RelQuery.Error
import RelQuery.Value.Row

/-!
# Shaping rows

A list of rows is often wanted in another shape: one of its columns, or an object that is keyed by
one of them.

* `Rows.column`, `Rows.combine`, `Rows.keyedBy` and `Rows.groupedBy` are the shapes.
* `Shaping` is the choice of one of them; `Shaping.apply` makes it.

Keys are compared in text form, so the number `5` and the text `5` are one key.  A row whose key is
null is left out; a row without the key column is an error.
-/

namespace RelQuery

/-! ## The shapes -/

namespace Rows

/-- The values of a column; null where a row lacks it. -/
def column (rows : List Row) (field : String) : List Value :=
  rows.map fun row => (row.get? field).getD .null

/-- The key that a row has in a column. -/
def keyOf (aliasName field : String) (row : Row) : Except Error (Option String) :=
  match row.get? field with
  | some v => .ok v.key?
  | none => .error (.missingKey field aliasName)

/-- Put one value per row into an object, under the key of the row.  `put` sees what the object
has so far. -/
def collect (aliasName field : String) (put : Row → String → Row → Row) :
    Row → List Row → Except Error Row
  | object, [] => .ok object
  | object, row :: rows => do
    match ← keyOf aliasName field row with
    | some key => collect aliasName field put (put object key row) rows
    | none => collect aliasName field put object rows

/-- The texts of some columns of a row, joined by `glue`; absent columns and nulls are left out. -/
def glued (values : List String) (glue : String) (row : Row) : String :=
  glue.intercalate (((values.filterMap row.get?).filter fun v => !v.isNull).map Value.plainText)

/-- An object from keys to the joined texts of some columns. -/
def combine (rows : List Row) (values : List String) (key glue aliasName : String) :
    Except Error Row :=
  let put (object : Row) (k : String) (row : Row) := object.insert k (.str (glued values glue row))
  collect aliasName key put .empty rows

/-- An object from keys to rows; of two rows with one key the later one stays. -/
def keyedBy (rows : List Row) (field aliasName : String) : Except Error Row :=
  let put (object : Row) (k : String) (row : Row) := object.insert k row.toValue
  collect aliasName field put .empty rows

/-- The group of a key with one more row. -/
def appendTo (group : Option Value) (row : Row) : Value :=
  match group with
  | some (.arr members) => .arr (members ++ [row.toValue])
  | _ => .arr [row.toValue]

/-- An object from keys to the lists of rows with that key. -/
def groupedBy (rows : List Row) (field aliasName : String) : Except Error Row :=
  let put (object : Row) (k : String) (row : Row) := object.insert k (appendTo (object.get? k) row)
  collect aliasName field put .empty rows

def toValue (rows : List Row) : Value := .arr (rows.map Row.toValue)

end Rows

/-! ## The choice -/

/-- A shape for a list of rows. -/
inductive Shaping where
  | column (field : String)
  | combine (values : List String) (key glue : String)
  | keyedBy (field : String)
  | groupedBy (field : String)
  deriving DecidableEq, Repr, Inhabited

namespace Shaping

/-- The text between combined values unless another one is chosen. -/
def defaultGlue : String := " "

/-- The shaping with another text between combined values. -/
def withGlue (shaping : Shaping) (glue : String) : Shaping :=
  match shaping with
  | combine values key _ => combine values key glue
  | other => other

/-- Shape rows; `aliasName` is the name of the rows in errors. -/
def apply (shaping : Shaping) (rows : List Row) (aliasName : String) : Except Error Value :=
  match shaping with
  | column field => .ok (.arr (Rows.column rows field))
  | combine values key glue => (Rows.combine rows values key glue aliasName).map Row.toValue
  | keyedBy field => (Rows.keyedBy rows field aliasName).map Row.toValue
  | groupedBy field => (Rows.groupedBy rows field aliasName).map Row.toValue

end Shaping

end RelQuery
