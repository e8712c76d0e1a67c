import RelQuery.Clause.Field
import RelQuery.Clause.Join
import RelQuery.Clause.Limit
import RelQuery.Clause.Order

/-!
# Fetch options

The clauses of a fetch from a table.  They can be written as data: an object whose members are the
clauses, each optional, and no other members.
-/

namespace RelQuery

/-- The clauses of a fetch. -/
structure FetchOptions where
  fields : List Field := []
  conditions : Option Conditions := none
  joins : List Join := []
  order : List OrderTerm := []
  limit : Option Limit := none
  /-- The aliases of the associations to embed. -/
  contain : List String := []
  deriving Inhabited

namespace FetchOptions

/-- A text, or a list of texts. -/
def textsOf (option : String) : Value → Except Error (List String)
  | .str s => .ok [s]
  | .arr items =>
    match items.mapM Value.str? with
    | some texts => .ok texts
    | none => misuse (.fetchTexts option (.arr items))
  | v => misuse (.fetchTexts option v)

def joinsOf : Value → Except Error (List Join)
  | .obj members => members.mapM fun (aliasName, v) => Join.ofValue aliasName v
  | v => misuse (.fetchJoinShape v)

def readMember (options : FetchOptions) (name : String) (v : Value) :
    Except Error FetchOptions := do
  if name = "fields" then
    return { options with fields := (← textsOf name v).map Field.parse }
  else if name = "conditions" then
    return { options with conditions := some (← Conditions.ofValue v) }
  else if name = "join" then
    return { options with joins := options.joins ++ (← joinsOf v) }
  else if name = "order" then
    let terms ← (← textsOf name v).mapM OrderTerm.parseList
    return { options with order := options.order ++ terms.flatten }
  else if name = "limit" then
    return { options with limit := some (← Limit.ofValue v) }
  else if name = "contain" then
    return { options with contain := ← textsOf name v }
  else misuse (.unknownFetchOption name)

def ofValue : Value → Except Error FetchOptions
  | .obj members => members.foldlM (fun options (name, v) => options.readMember name v) {}
  | v => misuse (.fetchOptionsShape v)

end FetchOptions

end RelQuery
