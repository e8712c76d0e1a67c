import RelQuery.Error

/-!
# Positional placeholders

Some databases number the parameters of a statement instead of naming them.  A statement is turned
over by scanning its text: names after a single colon are placeholders, except inside quotes, and a
double colon is a cast.

* `Piece` is a stretch of the scanned text, `Piece.scan` the scan.
* `Bindings.toPositional` replaces each placeholder and lists its value, once per occurrence.
-/

namespace RelQuery

/-- A scanned stretch of a statement. -/
inductive Piece where
  | copied (c : Char)
  | placeholder (name : String)
  deriving DecidableEq, Repr

namespace Piece

/-- What the scan is inside of. -/
inductive Scanning where
  | plain
  /-- Inside quotes of this kind. -/
  | quoted (quote : Char)
  /-- After a single colon. -/
  | colon
  /-- Inside a name, collected reversed. -/
  | name (collected : List Char)

/-- Whether a character opens a quoted stretch: the quotes of texts and of identifiers. -/
def isQuote (c : Char) : Bool := c = '\x27' || c = '"' || c = '\x60'

/-- The placeholder of a name collected reversed. -/
def named (collected : List Char) : Piece := placeholder (String.ofList collected.reverse)

/-- One character outside quotes and names. -/
def plainStep (c : Char) : List Piece × Scanning :=
  if isQuote c then ([copied c], .quoted c)
  else if c = ':' then ([], .colon)
  else ([copied c], .plain)

/-- One character: the pieces it completes and the state after it. -/
def step (state : Scanning) (c : Char) : List Piece × Scanning :=
  match state with
  | .plain => plainStep c
  | .quoted quote => ([copied c], if c = quote then .plain else .quoted quote)
  | .colon =>
    if c = ':' then ([copied ':', copied ':'], .plain)
    else if Bindings.isNameStart c then ([], .name [c])
    else
      let (pieces, next) := plainStep c
      (copied ':' :: pieces, next)
  | .name collected =>
    if Bindings.isNameChar c then ([], .name (c :: collected))
    else
      let (pieces, next) := plainStep c
      (named collected :: pieces, next)

/-- The pieces of `cs` from a state on. -/
def scanFrom (state : Scanning) : List Char → List Piece
  | [] =>
    match state with
    | .colon => [copied ':']
    | .name collected => [named collected]
    | _ => []
  | c :: cs =>
    let (pieces, next) := step state c
    pieces ++ scanFrom next cs

def scan (sql : String) : List Piece := scanFrom .plain sql.toList

end Piece

namespace Bindings

/-- Replace the placeholders of `pieces`, counting on from `count`. -/
def substitute (bindings : Bindings) (mark : Nat → String) (count : Nat) :
    List Piece → Except Error (List Char × List Value)
  | [] => .ok ([], [])
  | .copied c :: pieces => do
    let (text, values) ← substitute bindings mark count pieces
    return (c :: text, values)
  | .placeholder name :: pieces => do
    match bindings.get? name with
    | none => misuse (.unboundParameter name)
    | some value =>
      let (text, values) ← substitute bindings mark (count + 1) pieces
      return ((mark (count + 1)).toList ++ text, value :: values)

/-- A statement with the `n`-th placeholder written `mark n`, and the values in that order. -/
def toPositional (bindings : Bindings) (sql : String) (mark : Nat → String) :
    Except Error (String × List Value) := do
  let (text, values) ← substitute bindings mark 0 (Piece.scan sql)
  return (String.ofList text, values)

end Bindings

end RelQuery
