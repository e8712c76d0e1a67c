import RelQuery.Value.Row

/-!
# Reading values

The written form of values is read in two passes, each a left-to-right walk that keeps its own
state, so that neither needs to know how deep a value nests.

* `Token.lex?` cuts a text into tokens; what it is inside of is a `Lexing`.
* `Value.ofTokens?` puts tokens together; the lists and objects that are still unfinished are a
  stack of `Frame`s.
* `Value.read?` is the reader.  A member that occurs twice keeps its first place and its last value.
-/

namespace RelQuery

/-! ## Tokens -/

/-- A token of the written form. -/
inductive Token where
  | openList
  | closeList
  | openObject
  | closeObject
  | colon
  | comma
  | value (v : Value)

namespace Token

/-- What a reader of characters is inside of.  Collected characters are kept reversed. -/
inductive Lexing where
  /-- Between tokens. -/
  | between
  /-- In a number or a word. -/
  | word (collected : List Char)
  /-- In a quoted text, possibly after the first half of a surrogate pair. -/
  | quoted (collected : List Char) (half : Option Nat)
  /-- After a backslash in a quoted text. -/
  | escape (collected : List Char) (half : Option Nat)
  /-- In the four digits of a numbered character. -/
  | numbered (collected : List Char) (half : Option Nat) (digits : Nat) (value : Nat)

def punctuation? (c : Char) : Option Token :=
  if c = '[' then some openList
  else if c = ']' then some closeList
  else if c = '\x7b' then some openObject
  else if c = '\x7d' then some closeObject
  else if c = ':' then some colon
  else if c = ',' then some comma
  else none

/-- Whether a character may stand between tokens. -/
def isSpace (c : Char) : Bool := c = ' ' || c = '\t' || c = '\n' || c = '\r'

def ofWord? (word : List Char) : Option Token :=
  if word = "null".toList then some (value .null)
  else if word = "true".toList then some (value (.bool true))
  else if word = "false".toList then some (value (.bool false))
  else (Number.read? word).map fun n => value (.num n)

def hexValue? (c : Char) : Option Nat :=
  if '0' ≤ c ∧ c ≤ '9' then some (c.toNat - '0'.toNat)
  else if 'a' ≤ c ∧ c ≤ 'f' then some (c.toNat - 'a'.toNat + 10)
  else if 'A' ≤ c ∧ c ≤ 'F' then some (c.toNat - 'A'.toNat + 10)
  else none

/-- The character that a letter after a backslash stands for. -/
def escape? (c : Char) : Option Char :=
  if c = '"' ∨ c = '\\' ∨ c = '/' then some c
  else if c = 'b' then some (Char.ofNat 0x08)
  else if c = 't' then some (Char.ofNat 0x09)
  else if c = 'n' then some (Char.ofNat 0x0A)
  else if c = 'f' then some (Char.ofNat 0x0C)
  else if c = 'r' then some (Char.ofNat 0x0D)
  else none

/-- The state after a numbered character: a first half of a surrogate pair waits for the second. -/
def numberedCharacter? (collected : List Char) (half : Option Nat) (n : Nat) : Option Lexing :=
  match half with
  | some high =>
    if 0xDC00 ≤ n ∧ n ≤ 0xDFFF then
      let paired := 0x10000 + (high - 0xD800) * 0x400 + (n - 0xDC00)
      some (.quoted (Char.ofNat paired :: collected) none)
    else none
  | none =>
    if 0xD800 ≤ n ∧ n ≤ 0xDBFF then some (.quoted collected (some n))
    else if 0xDC00 ≤ n ∧ n ≤ 0xDFFF then none
    else some (.quoted (Char.ofNat n :: collected) none)

/-- One character read between tokens. -/
def startStep? (c : Char) : Option (Lexing × List Token) :=
  if isSpace c then some (.between, [])
  else if c = '"' then some (.quoted [] none, [])
  else match punctuation? c with
    | some token => some (.between, [token])
    | none => some (.word [c], [])

/-- One character read: the next state and the tokens that it completes. -/
def step? (state : Lexing) (c : Char) : Option (Lexing × List Token) :=
  match state with
  | .between => startStep? c
  | .word collected =>
    if isSpace c || c = '"' || (punctuation? c).isSome then do
      let token ← ofWord? collected.reverse
      let (next, tokens) ← startStep? c
      some (next, token :: tokens)
    else some (.word (c :: collected), [])
  | .quoted collected half =>
    if c = '\\' then some (.escape collected half, [])
    else if half.isSome || c.toNat < 0x20 then none
    else if c = '"' then some (.between, [value (.str (String.ofList collected.reverse))])
    else some (.quoted (c :: collected) none, [])
  | .escape collected half =>
    if c = 'u' then some (.numbered collected half 0 0, [])
    else if half.isSome then none
    else (escape? c).map fun e => (.quoted (e :: collected) none, [])
  | .numbered collected half digits n => do
    let n := n * 16 + (← hexValue? c)
    if digits < 3 then some (.numbered collected half (digits + 1) n, [])
    else (numberedCharacter? collected half n).map (·, [])

/-- The tokens of `cs` from a state on, after `tokens` (kept reversed). -/
def lexFrom? (state : Lexing) (tokens : List Token) : List Char → Option (List Token)
  | [] =>
    match state with
    | .between => some tokens.reverse
    | .word collected => (ofWord? collected.reverse).map fun token => (token :: tokens).reverse
    | _ => none
  | c :: cs =>
    match step? state c with
    | some (next, completed) => lexFrom? next (completed.reverse ++ tokens) cs
    | none => none

def lex? (s : String) : Option (List Token) := lexFrom? .between [] s.toList

end Token

/-! ## Values -/

namespace Value

/-- A list or an object that is still unfinished. -/
inductive Frame where
  /-- The items so far, reversed. -/
  | list (items : List Value)
  /-- The members so far, in order. -/
  | object (members : List (String × Value))
  /-- The members so far and the name of the next one. -/
  | member (members : List (String × Value)) (name : String)

/-- What the next token may be. -/
inductive Expecting where
  /-- A value, or the end of the list or object that just began. -/
  | first
  /-- A value, or the name of a member. -/
  | next
  /-- The colon after a name. -/
  | colon
  /-- A comma or an end. -/
  | separator

/-- A reader's position: the unfinished frames, innermost first, and what may follow; or a finished
value. -/
inductive Reading where
  | inside (frames : List Frame) (expecting : Expecting)
  | done (v : Value)

/-- A value has been completed inside `frames`. -/
def complete? (v : Value) : List Frame → Option Reading
  | [] => some (.done v)
  | .list items :: frames => some (.inside (.list (v :: items) :: frames) .separator)
  | .member members name :: frames =>
    some (.inside (.object (Row.insertEntry name v members) :: frames) .separator)
  | .object members :: frames =>
    match v with
    | .str name => some (.inside (.member members name :: frames) .colon)
    | _ => none

def readToken? (reading : Reading) (token : Token) : Option Reading :=
  match reading, token with
  | .inside frames .colon, .colon => some (.inside frames .next)
  | .inside frames .separator, .comma => some (.inside frames .next)
  | .inside (.list items :: frames) .separator, .closeList
  | .inside (.list items :: frames) .first, .closeList => complete? (.arr items.reverse) frames
  | .inside (.object members :: frames) .separator, .closeObject
  | .inside (.object members :: frames) .first, .closeObject => complete? (.obj members) frames
  | .inside (.object _ :: _) .first, .openList => none
  | .inside (.object _ :: _) .next, .openList => none
  | .inside (.object _ :: _) .first, .openObject => none
  | .inside (.object _ :: _) .next, .openObject => none
  | .inside frames .first, .openList
  | .inside frames .next, .openList => some (.inside (.list [] :: frames) .first)
  | .inside frames .first, .openObject
  | .inside frames .next, .openObject => some (.inside (.object [] :: frames) .first)
  | .inside frames .first, .value v
  | .inside frames .next, .value v => complete? v frames
  | _, _ => none

/-- The value that a list of tokens spells. -/
def ofTokens? (tokens : List Token) : Option Value :=
  match tokens.foldlM readToken? (.inside [] .next) with
  | some (.done v) => some v
  | _ => none

/-- Read a value from its written form. -/
def read? (s : String) : Option Value := (Token.lex? s).bind ofTokens?

end Value

end RelQuery
