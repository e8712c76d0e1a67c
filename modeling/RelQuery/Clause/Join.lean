import RelQuery.Condition.Reader

/-!
# Joins

A table joined into a select, under an alias and on a condition.

* `JoinType` is the kind of join.
* `Join` is the clause; `Join.ofValue` reads it as data.
-/

namespace RelQuery

/-- The kind of a join. -/
inductive JoinType where
  | inner
  | left
  | right
  | leftOuter
  | rightOuter
  deriving DecidableEq, Repr, Inhabited

namespace JoinType

def all : List JoinType := [inner, left, right, leftOuter, rightOuter]

def keyword : JoinType → String
  | inner => "INNER"
  | left => "LEFT"
  | right => "RIGHT"
  | leftOuter => "LEFT OUTER"
  | rightOuter => "RIGHT OUTER"

/-- The spelling of a kind in a statement. -/
def sql (kind : JoinType) : String := kind.keyword ++ " JOIN"

/-- Read a keyword, in any case and with any white space between words. -/
def parse (s : String) : Except Error JoinType :=
  match all.find? (·.keyword == Text.keyword s) with
  | some kind => .ok kind
  | none => misuse (.unknownJoinType s)

end JoinType

/-- A joined table. -/
structure Join where
  table : String
  aliasName : String
  kind : JoinType
  on : Conditions
  deriving Inhabited

namespace Join

/-- A left join of a table under its own name, without a condition yet. -/
def ofTable (table : String) : Join := ⟨table, table, .left, .empty⟩

/-- The join with a further condition. -/
def restrict (join : Join) (on : Conditions) : Join := { join with on := join.on.extend on }

/-! ## Joins as data -/

/-- Whether a member belongs to the structured form of a join. -/
def isStructural (name : String) : Bool := ["table", "type", "conditions"].contains name

/-- The table that the structured form names, by default the one of the alias's name. -/
def tableOf (aliasName : String) : Option Value → Except Error String
  | none => .ok aliasName
  | some (.str table) => .ok table
  | some v => misuse (.joinTable aliasName v)

/-- The kind that the structured form names. -/
def kindOf (aliasName : String) : Option Value → Except Error JoinType
  | none => .ok .left
  | some (.str kind) => JoinType.parse kind
  | some v => misuse (.joinType aliasName v)

/-- The condition of the structured form. -/
def conditionOf : Option Value → Except Error Conditions
  | none => .ok .empty
  | some v => Conditions.ofValue v

/-- Read a join under an alias.  An object with no members but `table`, `type` and `conditions` is
the structured form; any other object is the condition itself. -/
def ofValue (aliasName : String) : Value → Except Error Join
  | .obj members => do
    if members.all fun (name, _) => isStructural name then
      let table ← tableOf aliasName (members.lookup "table")
      let kind ← kindOf aliasName (members.lookup "type")
      let on ← conditionOf (members.lookup "conditions")
      return (Join.mk table aliasName kind .empty).restrict on
    else
      return (ofTable aliasName).restrict (← Conditions.ofValue (.obj members))
  | v => misuse (.joinShape aliasName v)

end Join

end RelQuery
