import RelQuery.Error
import RelQuery.Text.Blank

/-!
# Orders

The order of a select, as terms of a column and a direction, read from a list such as
`name, id DESC`.
-/

namespace RelQuery

/-- A direction of sorting. -/
inductive Direction where
  | asc
  | desc
  deriving DecidableEq, Repr, Inhabited

def Direction.sql : Direction → String
  | asc => "ASC"
  | desc => "DESC"

/-- A column to sort by. -/
structure OrderTerm where
  field : String
  direction : Direction := .asc
  deriving DecidableEq, Repr, Inhabited

namespace OrderTerm

/-- Read one term: a column, optionally followed by a direction. -/
def parse (part : String) : Except Error OrderTerm :=
  match Text.words part with
  | [field] => .ok ⟨field, .asc⟩
  | [field, direction] =>
    if Text.sameKeyword direction "asc" then .ok ⟨field, .asc⟩
    else if Text.sameKeyword direction "desc" then .ok ⟨field, .desc⟩
    else misuse (.orderTerm part)
  | _ => misuse (.orderTerm part)

/-- Read terms between commas; blank ones are left out. -/
def parseList (spec : String) : Except Error (List OrderTerm) :=
  (((Text.pieces ',' spec).map Text.trim).filter fun part => !part.isEmpty).mapM parse

end OrderTerm

end RelQuery
