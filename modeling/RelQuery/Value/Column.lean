import RelQuery.Error
import RelQuery.Text.Numeral
import RelQuery.Value.Row

/-!
# Columns of rows

What callers ask a row for: a column that has to be there, a column as an integer, and the row
itself out of a value that should be one.
-/

namespace RelQuery

namespace Row

/-- A value as a row; `what` names it in the error. -/
def ofValue (what : String) : Value → Except Error Row
  | .obj members => .ok ⟨members⟩
  | v => misuse (.rowShape what v)

/-- The value of a column that has to be there; `aliasName` names the row in the error. -/
def require (row : Row) (column aliasName : String) : Except Error Value :=
  match row.get? column with
  | some v => .ok v
  | none => .error (.missingKey column aliasName)

/-- The integer in a column, as a number or as a numeral. -/
def integer? (row : Row) (column : String) : Option Int :=
  match row.get? column with
  | some (.num n) => n.toInt?
  | some (.str s) => Text.integer? s
  | _ => none

end Row

/-- The value as a count of rows: a natural number, or a numeral with blanks around it. -/
def Value.count? : Value → Option Nat
  | .num n => n.toNat?
  | .str s => Text.natural? (Text.trim s)
  | _ => none

end RelQuery
