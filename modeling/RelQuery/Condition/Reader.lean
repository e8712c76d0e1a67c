import RelQuery.Condition.Basic

/-!
# Conditions as data

A condition can be written as a value.

* An object has a clause per member.  The member's value is a value or a list of values to compare
  with, an object for a nested condition, or a pair of an operator's spelling and one of those.
* A list has a connector for each text, the clauses of each object in place, and a group for each
  list.

`Conditions.ofValue` reads both forms.
-/

namespace RelQuery

/-- Whether a value is a list or an object. -/
def Value.isCompound : Value → Bool
  | .arr _ => true
  | .obj _ => true
  | _ => false

/-- A list of values to compare with; lists do not nest here. -/
def Operand.scalars (items : List Value) : Except Error Operand :=
  if items.any Value.isCompound then misuse (.conditionList (.arr items)) else .ok (.list items)

namespace Entry

open Operand (scalars)

mutual

/-- The clauses that the members of an object describe. -/
def ofMembers : List (String × Value) → Except Error (List Entry)
  | [] => .ok []
  | (key, v) :: members => do
    let entry ← ofMember key v
    return entry :: (← ofMembers members)

/-- The clause that one member describes. -/
def ofMember (key : String) : Value → Except Error Entry
  | .obj members => do return .clause key none (.nested (← ofMembers members))
  | .arr items => ofList key items
  | v => .ok (.clause key none (.scalar v))

/-- The clause that a list describes: an operator and its operand if it is such a pair, else a list
of values. -/
def ofList (key : String) : List Value → Except Error Entry
  | [first, second] => do
    match (first.str?).bind Operator.parse? with
    | some op => return .clause key (some op) (← operandOf second)
    | none => return .clause key none (← scalars [first, second])
  | items => do return .clause key none (← scalars items)

/-- The operand that a value beside an operator describes. -/
def operandOf : Value → Except Error Operand
  | .arr items => scalars items
  | .obj members => do return .nested (← ofMembers members)
  | v => .ok (.scalar v)

/-- The entries that the items of a list describe. -/
def ofItems : List Value → Except Error (List Entry)
  | [] => .ok []
  | .str s :: items => do
    let connector ← Connector.parse s
    return .connector connector :: (← ofItems items)
  | .obj members :: items => do
    let entries ← ofMembers members
    return entries ++ (← ofItems items)
  | .arr inner :: items => do
    let entries ← ofItems inner
    let rest ← ofItems items
    if entries.all isConnector then return rest
    else return .group entries :: rest
  | v :: _ => misuse (.conditionEntry v)

end

/-- The entries that a value describes. -/
def ofValue : Value → Except Error (List Entry)
  | .null => .ok []
  | .obj members => ofMembers members
  | .arr items => ofItems items
  | v => misuse (.conditionShape v)

end Entry

def Conditions.ofValue (v : Value) : Except Error Conditions :=
  (Entry.ofValue v).map Conditions.mk

end RelQuery
