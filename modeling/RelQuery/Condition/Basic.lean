import RelQuery.Condition.Operator

/-!
# Conditions

A condition is a list of clauses, connectors and groups.  Its order matters: a connector holds for
every clause after it until the next connector.

* `Entry` is one entry of the list, `Operand` the right-hand side of a clause; the two nest.
* `Conditions` is the list, with the calls that append to it.
* `Conditions.extend` appends a whole condition as a further restriction.
-/

namespace RelQuery

mutual

/-- An entry of a condition. -/
inductive Entry where
  | connector (c : Connector)
  /-- A comparison of the column that `key` names.  Without an operator of its own the clause has
  the one at the end of its key, or else the usual one for its operand. -/
  | clause (key : String) (op : Option Operator) (operand : Operand)
  | group (entries : List Entry)

/-- The right-hand side of a clause. -/
inductive Operand where
  | scalar (v : Value)
  /-- The list of an `IN`, or alternatives for any other operator. -/
  | list (items : List Value)
  /-- Another column. -/
  | column (name : String)
  /-- A condition on the joined table that the key names, or alternatives for the column that it
  names. -/
  | nested (entries : List Entry)

end

/-- Whether an entry is a connector, which restricts nothing by itself. -/
def Entry.isConnector : Entry → Bool
  | connector _ => true
  | _ => false

/-- The operand of a value: a list is a list, anything else stands for itself. -/
def Operand.ofValue : Value → Operand
  | .arr items => list items
  | v => scalar v

/-- A condition: its entries in order. -/
structure Conditions where
  entries : List Entry
  deriving Inhabited

namespace Conditions

def empty : Conditions := ⟨[]⟩

/-- Whether there is no clause and no group; connectors alone do not count. -/
def isEmpty (c : Conditions) : Bool := c.entries.all Entry.isConnector

def clauseCount (c : Conditions) : Nat := (c.entries.filter fun e => !e.isConnector).length

/-! ## Appending -/

def push (c : Conditions) (entry : Entry) : Conditions := ⟨c.entries ++ [entry]⟩

/-- Append a clause whose operator comes from its key. -/
def eq (c : Conditions) (key : String) (operand : Operand) : Conditions :=
  c.push (.clause key none operand)

def compare (c : Conditions) (key : String) (op : Operator) (operand : Operand) : Conditions :=
  c.push (.clause key (some op) operand)

/-- Append a clause that a column is one of some values. -/
def within (c : Conditions) (key : String) (items : List Value) : Conditions :=
  c.compare key .within (.list items)

/-- Append a clause that two columns are equal. -/
def column (c : Conditions) (key : String) (other : String) : Conditions :=
  c.eq key (.column other)

def nested (c : Conditions) (key : String) (inner : Conditions) : Conditions :=
  c.eq key (.nested inner.entries)

/-- Append a group, unless it restricts nothing. -/
def group (c : Conditions) (inner : Conditions) : Conditions :=
  if inner.isEmpty then c else c.push (.group inner.entries)

def connector (c : Conditions) (connector : Connector) : Conditions :=
  c.push (.connector connector)

/-- Append a further restriction.  Between two conditions that both restrict stands an explicit
`AND`, so that a connector of the first does not reach into the second. -/
def extend (c other : Conditions) : Conditions :=
  if other.isEmpty then c
  else if c.isEmpty then ⟨c.entries ++ other.entries⟩
  else ⟨c.entries ++ .connector .and :: other.entries⟩

/-! ## Small facts -/

@[simp] theorem extend_empty (c : Conditions) : c.extend empty = c := by
  simp [extend, isEmpty, empty]

end Conditions

end RelQuery
