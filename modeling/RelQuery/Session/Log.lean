import RelQuery.Config
import RelQuery.Session.Event

/-!
# The query log

Every statement that is written for a run is announced by an event, and kept in a log if the
configuration asks for that.  The log has room for the newest statements only.

* `Log.cut` shortens a statement to a number of bytes without splitting a character.
* `Log.announcement` is the event of a statement.
* `Log.record` keeps a statement.
-/

namespace RelQuery

/-- Statements in the order of being written. -/
structure Log where
  entries : List Prepared
  deriving Inhabited

namespace Log

def empty : Log := ⟨[]⟩

/-- The longest beginning of `cs` that fits into a number of bytes. -/
def fit : Nat → List Char → List Char
  | _, [] => []
  | room, c :: cs => if c.utf8Size ≤ room then c :: fit (room - c.utf8Size) cs else []

/-- A text that is cut, and marked as cut, if it is longer than a number of bytes. -/
def cut (limit : Option Nat) (s : String) : String :=
  match limit with
  | some bytes => if bytes < s.utf8ByteSize then String.ofList (fit bytes s.toList) ++ "..." else s
  | none => s

def announcement (config : Config) (prepared : Prepared) : Event :=
  .finalized prepared (cut config.maxSqlLength prepared.sql)

/-- The newest entries, as many as there is room for. -/
def trimmed (capacity : Option Nat) (entries : List Prepared) : List Prepared :=
  match capacity with
  | some room => entries.drop (entries.length - room)
  | none => entries

/-- The log with one more statement, if statements are kept. -/
def record (config : Config) (log : Log) (prepared : Prepared) : Log :=
  if config.logQueries then ⟨trimmed config.logCapacity (log.entries ++ [prepared])⟩ else log

end Log

end RelQuery
