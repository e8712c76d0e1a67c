import RelQuery.Error
import RelQuery.Text.Blank

/-!
# Fetch modes

What a fetch from a table returns: rows, one row, a number, or one of the shapes that rows can take.
-/

namespace RelQuery

/-- What a fetch returns. -/
inductive FetchMode where
  | all
  | first
  | count
  /-- The rows by their id. -/
  | id
  | column (field : String)
  /-- The values of a column, each once. -/
  | columnUnique (field : String)
  /-- The value of a column in the first row. -/
  | unique (field : String)
  /-- The joined texts of some columns, by a key. -/
  | combine (values : List String) (key : String)
  deriving DecidableEq, Repr

namespace FetchMode

/-- The name of a mode as modes are compared: small ASCII letters and underscores. -/
def canonicalName (name : String) : String :=
  String.ofList ((Text.lowerAscii name).toList.map fun c => if c = '-' then '_' else c)

/-- The first argument of a mode that needs one. -/
def argument (name what : String) : List String → Except Error String
  | arg :: _ => .ok arg
  | [] => misuse (.fetchModeArgument name what)

/-- The combination that a list of arguments asks for: the last one is the key, except that a single
one is combined by `id`. -/
def combination : List String → Except Error FetchMode
  | [] => misuse .combineModeArguments
  | [value] => .ok (combine [value] "id")
  | args => .ok (combine args.dropLast (args.getLastD ""))

/-- Read a mode from its name and arguments; arguments that it has no use for are ignored. -/
def parse (name : String) (args : List String) : Except Error FetchMode :=
  let canonical := canonicalName name
  if canonical = "all" then .ok all
  else if canonical = "first" then .ok first
  else if canonical = "count" then .ok count
  else if canonical = "id" then .ok id
  else if canonical = "column" then (argument name "column" args).map column
  else if canonical = "column_unique" ∨ canonical = "columnunique" then
    (argument name "column" args).map columnUnique
  else if canonical = "unique" then (argument name "field" args).map unique
  else if canonical = "combine" then combination args
  else misuse (.unknownFetchMode canonical)

/-- The columns that a mode reads from the rows, where a fetch has to add them to its fields.
`hasFields` says whether the fetch has any. -/
def requiredColumns (hasFields : Bool) : FetchMode → Except Error (List String)
  | id => .ok (if hasFields then ["id"] else [])
  | unique field => .ok [field]
  | combine [] _ => misuse .emptyCombine
  | combine values key => .ok (values ++ [key])
  | _ => .ok []

end FetchMode

end RelQuery
