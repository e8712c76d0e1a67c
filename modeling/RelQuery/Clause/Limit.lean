import RelQuery.Error

/-!
# Limits

How many rows a select skips and how many it returns.
-/

namespace RelQuery

/-- The rows to skip and the rows to take. -/
structure Limit where
  offset : Option Nat := none
  count : Option Nat := none
  deriving DecidableEq, Repr, Inhabited

namespace Limit

/-- The limit of one or two bounds: a count alone, or an offset and a count. -/
def ofBounds (start : Nat) : Option Nat → Limit
  | none => ⟨none, some start⟩
  | some count => ⟨some start, some count⟩

def boundOf (v : Value) : Except Error Nat :=
  match v.nat? with
  | some n => .ok n
  | none => misuse (.limitBound v)

/-- Read a limit: a count, or a list of one or two bounds. -/
def ofValue : Value → Except Error Limit
  | .num n => do return ofBounds (← boundOf (.num n)) none
  | .arr [start] => do return ofBounds (← boundOf start) none
  | .arr [start, count] => do
    let start ← boundOf start
    return ofBounds start (some (← boundOf count))
  | .arr items => misuse (.limitBounds (.arr items))
  | v => misuse (.limitShape v)

/-- The limit that takes one row from where this one begins. -/
def single (limit : Option Limit) : Limit := ⟨limit.bind Limit.offset, some 1⟩

end Limit

end RelQuery
