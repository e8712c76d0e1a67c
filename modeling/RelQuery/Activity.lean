/-!
# Statements and the calls on them

A statement is built by one call after another, and not every call makes sense for every statement:
values belong to writes, an order to selects.

* `Activity` is what a statement does.
* `Call` is a call on the statement under construction; `Call.allowed` says which statements it is
  for.
-/

namespace RelQuery

/-- What a statement does. -/
inductive Activity where
  | select
  | insert
  | update
  | delete
  deriving DecidableEq, Repr, Inhabited

def Activity.name : Activity → String
  | select => "select"
  | insert => "insert"
  | update => "update"
  | delete => "delete"

/-- The activity under way, by name; `unset` when there is no statement. -/
def Activity.nameOf : Option Activity → String
  | some activity => activity.name
  | none => "unset"

/-- A call on the statement under construction: a clause, or a call that finishes it. -/
inductive Call where
  | fields
  | filter
  | order
  | limit
  | join
  | contain
  | set
  | values
  | shape
  | execute
  | all
  | first
  | last
  | byId
  | count
  deriving DecidableEq, Repr

namespace Call

def name : Call → String
  | fields => "fields"
  | filter => "where"
  | order => "order"
  | limit => "limit"
  | join => "join"
  | contain => "contain"
  | set => "set"
  | values => "values"
  | shape => "shape"
  | execute => "execute"
  | all => "all"
  | first => "first"
  | last => "last"
  | byId => "by_id"
  | count => "count"

def allowed : Call → List Activity
  | fields => [.select, .insert, .update]
  | filter => [.select, .update, .delete]
  | set => [.update]
  | values => [.insert]
  | execute => [.insert, .update, .delete]
  | _ => [.select]

end Call

end RelQuery
