import RelQuery.Dialect
import RelQuery.Error
import RelQuery.Text.Blank

/-!
# Identifiers

Every name of a table, an alias or a column passes through here on its way into a statement.  A name
is a sequence of parts between points; each part is plain enough to stand in any dialect, and is
quoted all the same.

* `Identifier.checkPart` accepts a part: an ASCII letter or an underscore, then letters, digits,
  underscores and dollar signs.
* `Identifier.parse` reads a name; a `*` may stand for its last part.
* `Identifier.text` writes it, each part in quotes.
-/

namespace RelQuery

/-- A name in parts. -/
structure Identifier where
  parts : List String
  deriving DecidableEq, Repr, Inhabited

namespace Identifier

/-! ## Reading -/

/-- Whether a character may begin a part. -/
def isPartStart (c : Char) : Bool := c = '_' || c.isAlpha

/-- Whether a character may stand in a part. -/
def isPartChar (c : Char) : Bool := c = '_' || c = '$' || c.isAlphanum

/-- The fault of a part, if it has one: the first character that may not stand where it does. -/
def partFault? (part : String) : Option PartFault :=
  match part.toList with
  | [] => some .empty
  | c :: cs =>
    if !isPartStart c then some (.start c)
    else (cs.find? fun c => !isPartChar c).map .character

def checkPart (part : String) : Except Error Unit :=
  match partFault? part with
  | none => .ok ()
  | some fault => misuse (.identifierPart fault)

/-- The first fault among the parts of a name; the last part may be `*`. -/
def partsFault? : List String → Option PartFault
  | [] => none
  | [last] => if last = "*" then none else partFault? last
  | part :: rest =>
    match partFault? part with
    | some fault => some fault
    | none => partsFault? rest

/-- Read a name, trimmed. -/
def parse (s : String) : Except Error Identifier :=
  let name := Text.trim s
  if name.isEmpty then misuse .emptyIdentifier
  else
    let parts := Text.pieces '.' name
    match partsFault? parts with
    | some fault => misuse (.identifier fault name)
    | none => .ok ⟨parts⟩

/-- Read the name of a column, of a table if one is given. -/
def column (table : Option String) (name : String) : Except Error Identifier :=
  match table with
  | some table => parse (table ++ "." ++ name)
  | none => parse name

/-! ## Writing -/

/-- The last part: the name of the column or table itself. -/
def name (identifier : Identifier) : String := identifier.parts.getLastD ""

/-- A part as it is written: `*` bare, anything else in quotes. -/
def partText (dialect : Dialect) (part : String) : String :=
  if part = "*" then "*" else dialect.quote part

/-- The parts in quotes, joined by points. -/
def text (dialect : Dialect) (identifier : Identifier) : String :=
  ".".intercalate (identifier.parts.map (partText dialect))

def quote (dialect : Dialect) (s : String) : Except Error String :=
  (parse s).map (text dialect)

end Identifier

end RelQuery
