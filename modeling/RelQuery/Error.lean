import RelQuery.Activity
import RelQuery.Bindings.Basic
import RelQuery.Relation.Mode

/-!
# Errors

Every way in which building, loading or running can fail, as a cause.  The wording of each cause is
here and nowhere else.

* `PartFault` and `RelationFault` are the causes that are reported in a context: the identifier or
  the relation they were found in.
* `Misuse` is what is wrong with a name, a descriptor or a statement.
* `DriverFailure` is a refusal of the database.
* `Error` is the error type; `Error.message` is its text.
-/

namespace RelQuery

/-! ## Causes -/

/-- What is wrong with one part of an identifier. -/
inductive PartFault where
  | empty
  | start (c : Char)
  | character (c : Char)
  deriving DecidableEq, Repr

/-- What is wrong with the declaration of a relation. -/
inductive RelationFault where
  | name (fault : PartFault)
  /-- A junction table or a target key on a relation without a junction. -/
  | junctionKeys
  /-- A shape, limit or order on a relation to one row. -/
  | shaping
  /-- A join type on a relation that is not joined. -/
  | joinType
  | bothConditions
  | nestedAlias (aliasName : String)
  deriving DecidableEq, Repr

/-- What is wrong with a name, a descriptor or a statement. -/
inductive Misuse where
  | emptyIdentifier
  | identifierPart (fault : PartFault)
  | identifier (fault : PartFault) (name : String)
  | unknownOperator (text : String)
  | unknownConnector (text : String)
  | unknownJoinType (text : String)
  | conditionShape (v : Value)
  | conditionEntry (v : Value)
  | conditionList (v : Value)
  | nestedOperator (field : String)
  | joinShape (aliasName : String) (v : Value)
  | joinTable (aliasName : String) (v : Value)
  | joinType (aliasName : String) (v : Value)
  | joinWithoutCondition (aliasName : String)
  | orderTerm (text : String)
  | limitBound (v : Value)
  | limitBounds (v : Value)
  | limitShape (v : Value)
  | rowShape (what : String) (v : Value)
  | noTable (activity : Activity)
  | aliasTaken (aliasName : String)
  | noValues (activity : Activity) (table : String)
  | deleteWithoutConditions (table : String)
  | deleteWithoutId (table : String)
  | unboundParameter (name : String)
  | relation (mode : RelationMode) (aliasName : String) (fault : RelationFault)
  | noColumns (table aliasName : String)
  | unknownAssociation (aliasName table : String)
  | associationTwice (aliasName table : String)
  | unregisteredTable (name : String)
  | emptyCombine
  | fetchModeArgument (mode argument : String)
  | combineModeArguments
  | unknownFetchMode (name : String)
  | fetchOptionsShape (v : Value)
  | fetchJoinShape (v : Value)
  | fetchTexts (option : String) (v : Value)
  | unknownFetchOption (name : String)

/-- A refusal of the database, with the vendor's code if it gave one. -/
structure DriverFailure where
  code : Option String
  message : String
  deriving DecidableEq, Repr, Inhabited

/-- Why a call failed. -/
inductive Error where
  /-- The statement under construction is not one the call is for. -/
  | activityMismatch (call : Call) (actual : Option Activity)
  | configuration (misuse : Misuse)
  /-- A row lacks the column that a relation or a projection reads. -/
  | missingKey (key aliasName : String)
  | driver (failure : DriverFailure) (sql : String) (bindings : Bindings)
  /-- A count came back as something else. -/
  | badCount (v : Value)

/-! ## Wording -/

/-- The text of a fault in a part of an identifier. -/
def PartFault.message : PartFault → String
  | empty => "Empty identifier segment"
  | start c => s!"Invalid identifier start character '{c}'"
  | character c => s!"Invalid character '{c}'"

/-- The text of a fault in a relation's declaration. -/
def RelationFault.message : RelationFault → String
  | name fault => fault.message
  | junctionKeys => "through/target keys are only valid for belongsToMany"
  | shaping => "shape/limit/order are only valid for to-many relations"
  | joinType => "join type is only valid for to-one relations"
  | bothConditions => "conditions and replace_conditions are mutually exclusive"
  | nestedAlias aliasName => s!"nested alias '{aliasName}' declared twice"

def Misuse.message : Misuse → String
  | emptyIdentifier => "Identifier cannot be empty"
  | identifierPart fault => fault.message
  | identifier fault name => s!"{fault.message} in identifier '{name}'"
  | unknownOperator text => s!"Unknown operator '{text}'"
  | unknownConnector text => s!"Unknown connector '{text}'"
  | unknownJoinType text => s!"Unknown join type '{text}'"
  | conditionShape v => s!"Conditions must be an object or an array, got {v.text}"
  | conditionEntry v => s!"Unexpected condition entry {v.text}"
  | conditionList v => s!"List values must be scalars, got {v.text}"
  | nestedOperator field => s!"Nested conditions under '{field}' cannot carry an operator"
  | joinShape aliasName v => s!"Join '{aliasName}' must be an object, got {v.text}"
  | joinTable aliasName v => s!"Join '{aliasName}' table must be a string, got {v.text}"
  | joinType aliasName v => s!"Join '{aliasName}' type must be a string, got {v.text}"
  | joinWithoutCondition aliasName => s!"Join '{aliasName}' has no ON condition"
  | orderTerm text => s!"Malformed order term '{text}'"
  | limitBound v => s!"Limit bounds must be non-negative integers, got {v.text}"
  | limitBounds v => s!"Limit expects one or two bounds, got {v.text}"
  | limitShape v => s!"Malformed limit {v.text}"
  | rowShape what v => s!"{what} expects an object, got {v.text}"
  | noTable activity => s!"{activity.name} statement has no table"
  | aliasTaken aliasName => s!"Alias '{aliasName}' is already used in this statement"
  | noValues activity table => s!"{activity.name} on '{table}' has no values to write"
  | deleteWithoutConditions table => s!"DELETE on '{table}' requires conditions"
  | deleteWithoutId table => s!"Cannot delete from '{table}' without an id"
  | unboundParameter name => s!"No value bound for parameter :{name}"
  | relation mode aliasName fault => s!"{mode.name} relation '{aliasName}': {fault.message}"
  | noColumns table aliasName => s!"No columns known for table '{table}' (relation '{aliasName}')"
  | unknownAssociation aliasName table =>
      s!"Association '{aliasName}' is not declared on table '{table}'"
  | associationTwice aliasName table =>
      s!"Association '{aliasName}' declared twice on table '{table}'"
  | unregisteredTable name => s!"Table '{name}' is not registered"
  | emptyCombine => "Combine fetch needs at least one value field"
  | fetchModeArgument mode argument => s!"Fetch mode '{mode}' needs a {argument}"
  | combineModeArguments => "Fetch mode 'combine' needs value fields"
  | unknownFetchMode name => s!"Unknown fetch mode '{name}'"
  | fetchOptionsShape v => s!"Fetch options must be an object, got {v.text}"
  | fetchJoinShape v => s!"'join' must map aliases to join specs, got {v.text}"
  | fetchTexts option v => s!"'{option}' must be a string or a list of strings, got {v.text}"
  | unknownFetchOption name => s!"Unknown fetch option '{name}'"

def DriverFailure.text (failure : DriverFailure) : String :=
  match failure.code with
  | some code => s!"[{code}] {failure.message}"
  | none => failure.message

/-- Activities as a noun phrase with its article, for example `an update/delete`. -/
def Activity.listed (activities : List Activity) : String :=
  let joined := "/".intercalate (activities.map Activity.name)
  match joined.toList with
  | c :: _ => if "aeiou".toList.contains c then s!"an {joined}" else s!"a {joined}"
  | [] => s!"a {joined}"

def Error.message : Error → String
  | activityMismatch call actual =>
    s!"`{call.name}` requires {Activity.listed call.allowed} statement, " ++
      s!"found {Activity.nameOf actual}"
  | configuration misuse => s!"Configuration error: {misuse.message}"
  | missingKey key aliasName => s!"Missing key '{key}' for '{aliasName}'"
  | driver failure sql _ =>
    let code := match failure.code with
      | some code => s!" [{code}]"
      | none => ""
    s!"Driver error{code}: {failure.message} (sql: {sql})"
  | badCount v => s!"COUNT(*) returned {v.text}"

def misuse {α : Type} (cause : Misuse) : Except Error α := .error (.configuration cause)

end RelQuery
