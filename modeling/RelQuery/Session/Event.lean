import RelQuery.Query.Basic

/-!
# Events

What an observer sees of a running engine.  An event has a level, a message and named details.
-/

namespace RelQuery

/-- Something that happened while statements were built and run. -/
inductive Event where
  /-- A statement was written and is about to be run; `shown` is what is shown of its text. -/
  | finalized (prepared : Prepared) (shown : String)
  /-- A statement under construction was given up. -/
  | abandoned (activity : Activity)
  /-- The rows of a deferred relation are about to be loaded, for a number of keys. -/
  | loading (aliasName : String) (mode : RelationMode) (keys : Nat)
  | expanding (aliasName : String) (mode : RelationMode) (parent : String)
  /-- A table is about to be fetched from. -/
  | tableFetch (table : String)
  | driverFailure (failure : DriverFailure) (sql : String)

namespace Event

def level : Event → String
  | finalized .. => "DEBUG"
  | abandoned .. => "DEBUG"
  | loading .. => "DEBUG"
  | expanding .. => "TRACE"
  | tableFetch .. => "TRACE"
  | driverFailure .. => "WARN"

/-- The message and the details of an event, by name. -/
def details : Event → List (String × String)
  | finalized prepared shown =>
    [("message", "statement finalized"), ("activity", prepared.activity.name),
     ("param_count", toString prepared.bindings.size), ("sql", shown)]
  | abandoned activity => [("message", "statement abandoned"), ("activity", activity.name)]
  | loading aliasName mode keys =>
    [("message", "loading related rows"), ("alias", aliasName), ("mode", mode.name),
     ("batch", toString keys)]
  | expanding aliasName mode parent =>
    [("message", "expanding relation"), ("alias", aliasName), ("mode", mode.name),
     ("parent", parent)]
  | tableFetch table => [("message", "table fetch"), ("table", table)]
  | driverFailure failure sql =>
    [("message", "driver failure"), ("code", failure.code.getD "-"), ("message", failure.message),
     ("sql", sql)]

end Event

end RelQuery
