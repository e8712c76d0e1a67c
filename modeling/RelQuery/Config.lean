import RelQuery.Dialect
import RelQuery.Naming

/-!
# Configuration

The settings of an engine: the dialect it writes, the suffix of inferred keys, and what it remembers
of the statements it ran.  They can be written as data, where every setting that is left out has its
default and members that are no settings are ignored.
-/

namespace RelQuery

/-- The settings of an engine. -/
structure Config where
  /-- A dialect to write instead of the driver's. -/
  dialect : Option Dialect := none
  /-- What an inferred key has after its stem. -/
  referenceSuffix : String := Naming.defaultSuffix
  /-- Whether statements are kept in the log. -/
  logQueries : Bool := true
  /-- How many statements the log keeps; all of them without a number. -/
  logCapacity : Option Nat := some 100
  /-- How many bytes of a statement an event shows; all of them without a number. -/
  maxSqlLength : Option Nat := some 200
  deriving Inhabited

namespace Config

/-- A setting that may be absent: its default, or what its value reads as. -/
def setting? {α : Type} (members : List (String × Value)) (name : String) (default : α)
    (read? : Value → Option α) : Option α :=
  match members.lookup name with
  | none => some default
  | some v => read? v

/-- A value that may be null, or else reads as something. -/
def nullable? {α : Type} (read? : Value → Option α) : Value → Option (Option α)
  | .null => some none
  | v => (read? v).map some

def bool? : Value → Option Bool
  | .bool b => some b
  | _ => none

/-- Read a configuration; nothing if a setting has a value of a wrong kind. -/
def ofValue? : Value → Option Config
  | .obj members => do
    let unset : Config := {}
    return {
      dialect := ← setting? members "dialect" unset.dialect
        (nullable? fun v => v.str?.bind Dialect.ofName?)
      referenceSuffix := ← setting? members "reference_suffix" unset.referenceSuffix Value.str?
      logQueries := ← setting? members "log_queries" unset.logQueries bool?
      logCapacity := ← setting? members "log_capacity" unset.logCapacity (nullable? Value.nat?)
      maxSqlLength := ← setting? members "max_sql_length" unset.maxSqlLength (nullable? Value.nat?)
    }
  | _ => none

end Config

end RelQuery
