import RelQuery.Error
import RelQuery.Text.Blank

/-!
# Operators and connectors

A condition compares columns, and joins its comparisons with connectors.  Both are chosen by text,
and only the spellings below are ever written into a statement.

* `Operator` is a comparison; `Operator.parse?` reads its spelling.
* `Operator.splitKey` takes an operator off the end of a key such as `age >=`.
* `Connector` joins a comparison to what stands before it.
-/

namespace RelQuery

/-! ## Operators -/

/-- A comparison operator. -/
inductive Operator where
  | eq
  | ne
  | lt
  | gt
  | le
  | ge
  | like
  | notLike
  | within
  | is
  | isNot
  | regexp
  deriving DecidableEq, Repr, Inhabited

namespace Operator

def sql : Operator → String
  | eq => "="
  | ne => "!="
  | lt => "<"
  | gt => ">"
  | le => "<="
  | ge => ">="
  | like => "LIKE"
  | notLike => "NOT LIKE"
  | within => "IN"
  | is => "IS"
  | isNot => "IS NOT"
  | regexp => "REGEXP"

/-- Every operator, in the order in which the end of a key is searched for them: an operator comes
before those whose spelling ends its own. -/
def all : List Operator :=
  [notLike, regexp, isNot, like, ne, le, ge, within, is, eq, lt, gt]

/-- Read a spelling, in any case and with any white space between words; `<>` is another one for
`!=`. -/
def parse? (s : String) : Option Operator :=
  let spelling := Text.keyword s
  if spelling = "<>" then some ne else all.find? (·.sql == spelling)

def parse (s : String) : Except Error Operator :=
  match parse? s with
  | some op => .ok op
  | none => misuse (.unknownOperator s)

/-- Whether an operator is spelled in letters. -/
def isWord (op : Operator) : Bool :=
  match op.sql.toList with
  | c :: _ => c.isAlpha
  | [] => false

/-! ## Operators in keys -/

/-- The characters before an operator's spelling at the end of `key`, if it stands there with a
field before it.  A spelling in letters must be apart from the field, so that `domain` is no `IN`.
-/
def fieldBefore? (key : List Char) (op : Operator) : Option (List Char) :=
  let spelling := op.sql.toList
  let field := key.take (key.length - spelling.length)
  if !spelling.isSuffixOf (key.map Char.toUpper) then none
  else if field.all Text.isBlank then none
  else if op.isWord && !(field.getLast?.any Text.isBlank) then none
  else some field

/-- A key in two: the field, and the operator at its end if it has one. -/
def splitKey (key : String) : String × Option Operator :=
  let trimmed := (Text.trimEnd key).toList
  match all.findSome? fun op => (fieldBefore? trimmed op).map (·, op) with
  | some (field, op) => (Text.trim (String.ofList field), some op)
  | none => (Text.trim key, none)

end Operator

/-! ## Connectors -/

/-- How a comparison or a group is joined to what stands before it. -/
inductive Connector where
  | and
  | or
  | andNot
  | orNot
  | not
  deriving DecidableEq, Repr, Inhabited

namespace Connector

def all : List Connector := [and, or, andNot, orNot, not]

def spelling : Connector → String
  | and => "AND"
  | or => "OR"
  | andNot => "AND NOT"
  | orNot => "OR NOT"
  | not => "NOT"

/-- Read a spelling, in any case and with any white space between words. -/
def parse? (s : String) : Option Connector :=
  all.find? (·.spelling == Text.keyword s)

def parse (s : String) : Except Error Connector :=
  match parse? s with
  | some connector => .ok connector
  | none => misuse (.unknownConnector s)

/-- Whether what follows is an alternative to what stands before. -/
def isOr : Connector → Bool
  | or => true
  | orNot => true
  | _ => false

def negates : Connector → Bool
  | andNot => true
  | orNot => true
  | not => true
  | _ => false

/-- The text of a connector between two comparisons. -/
def between (connector : Connector) : String :=
  (if connector.isOr then "OR" else "AND") ++ (if connector.negates then " NOT" else "")

/-- The text of a connector before the first comparison: of it only the negation is left. -/
def lead (connector : Connector) : String := if connector.negates then "NOT " else ""

end Connector

end RelQuery
