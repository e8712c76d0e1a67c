import RelQuery.Value.Basic

/-!
# Dialects

Statements differ between databases in three places: how an identifier is quoted, how a text
literal is escaped, and how a number of rows is limited.

* `Dialect` is the database, `Dialect.quote`, `Dialect.literal` and `Dialect.limit` are the three
  places.
-/

namespace RelQuery

/-- The database a statement is written for. -/
inductive Dialect where
  /-- Grave accents around identifiers, backslash escapes, `LIMIT offset, count`. -/
  | mysql
  /-- Double quotes around identifiers, `LIMIT count OFFSET offset`. -/
  | sqlite
  /-- Double quotes around identifiers, `LIMIT count OFFSET offset`. -/
  | postgres
  deriving DecidableEq, Repr, Inhabited

namespace Dialect

def name : Dialect → String
  | mysql => "mysql"
  | sqlite => "sqlite"
  | postgres => "postgres"

def ofName? (s : String) : Option Dialect :=
  [mysql, sqlite, postgres].find? (·.name == s)

/-! ## Identifiers -/

/-- The quote around identifiers. -/
def quoteChar : Dialect → Char
  | mysql => '\x60'
  | _ => '"'

/-- A text between quotes `q`, the quotes inside it doubled. -/
def enclose (q : Char) (s : String) : String :=
  String.ofList (q :: s.toList.flatMap (fun c => if c = q then [q, q] else [c]) ++ [q])

/-- One part of an identifier, quoted. -/
def quote (dialect : Dialect) (part : String) : String := enclose dialect.quoteChar part

/-! ## Literals -/

/-- A character inside a text literal. -/
def literalChar (dialect : Dialect) (c : Char) : List Char :=
  if c = '\x27' then [c, c]
  else if c = '\\' ∧ dialect = mysql then [c, c]
  else [c]

def textLiteral (dialect : Dialect) (s : String) : String :=
  String.ofList ('\x27' :: s.toList.flatMap dialect.literalChar ++ ['\x27'])

/-- A value as a literal.  Lists and objects are literals of their written form. -/
def literal (dialect : Dialect) : Value → String
  | .null => "NULL"
  | .bool b => if b then "1" else "0"
  | .num n => n.text
  | .str s => dialect.textLiteral s
  | v => dialect.textLiteral v.text

/-! ## Limits -/

/-- The clause that skips `offset` rows and takes `count`, if it does either.  To skip without a
count takes an explicit upper bound, except where a bare offset is allowed. -/
def limit (dialect : Dialect) : Option Nat → Option Nat → Option String
  | none, none => none
  | none, some count => some s!"LIMIT {count}"
  | some offset, some count =>
    match dialect with
    | mysql => some s!"LIMIT {offset}, {count}"
    | _ => some s!"LIMIT {count} OFFSET {offset}"
  | some offset, none =>
    match dialect with
    | mysql => some s!"LIMIT {offset}, 18446744073709551615"
    | sqlite => some s!"LIMIT -1 OFFSET {offset}"
    | postgres => some s!"OFFSET {offset}"

/-! ## Small facts -/

@[simp] theorem toList_quote (dialect : Dialect) (part : String) :
    (dialect.quote part).toList =
      dialect.quoteChar :: part.toList.flatMap
        (fun c => if c = dialect.quoteChar then [dialect.quoteChar, dialect.quoteChar] else [c]) ++
        [dialect.quoteChar] := by
  simp [quote, enclose]

end Dialect

end RelQuery
