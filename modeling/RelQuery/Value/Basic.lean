import RelQuery.Value.Number

/-!
# Values

Column values, descriptors written as data, and the rows themselves are all values of one format.
The members of an object keep their order: it is the order of the columns of a row, and of the
clauses of a condition.

* `Value` is the type.
* `Value.text` is its compact written form, which also serves as a literal and in messages.
* `Value.same` is equality of values: the order of members does not matter to it.
* `Value.key?` is the form in which values meet as keys, where `5` and `"5"` are one key.
-/

namespace RelQuery

/-- A value: nothing, a truth value, a number, a text, a list, or named members in order. -/
inductive Value where
  | null
  | bool (b : Bool)
  | num (n : Number)
  | str (s : String)
  | arr (items : List Value)
  | obj (members : List (String × Value))
  deriving Inhabited

namespace Value

/-! ## The written form -/

/-- A hexadecimal digit, in small letters. -/
def hexDigit (n : Nat) : Char :=
  if n < 10 then Char.ofNat ('0'.toNat + n) else Char.ofNat ('a'.toNat + (n - 10))

/-- A character inside quotes.  The quote, the backslash and the control characters are escaped,
those with a letter of their own by that letter; everything else stands for itself. -/
def escaped (c : Char) : List Char :=
  if c = '"' then ['\\', '"']
  else if c = '\\' then ['\\', '\\']
  else if c.toNat = 0x08 then ['\\', 'b']
  else if c.toNat = 0x09 then ['\\', 't']
  else if c.toNat = 0x0A then ['\\', 'n']
  else if c.toNat = 0x0C then ['\\', 'f']
  else if c.toNat = 0x0D then ['\\', 'r']
  else if c.toNat < 0x20 then
    ['\\', 'u', '0', '0', hexDigit (c.toNat / 16), hexDigit (c.toNat % 16)]
  else [c]

def quoted (s : String) : String :=
  "\"" ++ String.ofList (s.toList.flatMap escaped) ++ "\""

mutual

/-- The compact written form of a value. -/
def text : Value → String
  | null => "null"
  | bool b => if b then "true" else "false"
  | num n => n.text
  | str s => quoted s
  | arr items => "[" ++ ",".intercalate (texts items) ++ "]"
  | obj members => "\x7b" ++ ",".intercalate (memberTexts members) ++ "\x7d"

/-- The written forms of the items of a list. -/
def texts : List Value → List String
  | [] => []
  | item :: items => text item :: texts items

/-- The written forms of the members of an object. -/
def memberTexts : List (String × Value) → List String
  | [] => []
  | (name, value) :: members => (quoted name ++ ":" ++ text value) :: memberTexts members

end

/-! ## Equality -/

mutual

/-- Equality of values.  Lists agree item by item; objects agree when they have equally many
members and each of the first has an equal one of that name in the second. -/
def same : Value → Value → Bool
  | null, null => true
  | bool a, bool b => a == b
  | num a, num b => a.same b
  | str a, str b => a == b
  | arr as, arr bs => sameItems as bs
  | obj as, obj bs => as.length == bs.length && sameMembers as bs
  | _, _ => false

/-- Equality of lists, item by item. -/
def sameItems : List Value → List Value → Bool
  | [], [] => true
  | a :: as, b :: bs => same a b && sameItems as bs
  | _, _ => false

/-- Whether each member of the first list has an equal one of its name in the second. -/
def sameMembers : List (String × Value) → List (String × Value) → Bool
  | [], _ => true
  | (name, a) :: as, bs =>
    (match bs.lookup name with
      | some b => same a b
      | none => false) && sameMembers as bs

end

/-! ## Views -/

def isNull : Value → Bool
  | null => true
  | _ => false

def str? : Value → Option String
  | str s => some s
  | _ => none

/-- The value as a natural number, if it is an integer that is not negative. -/
def nat? : Value → Option Nat
  | num n => n.toNat?
  | _ => none

def ofInt (i : Int) : Value := num (.int i)

def ofNat (n : Nat) : Value := ofInt n

/-- A truth value as a database sees it: `1` or `0`. -/
def ofBool (b : Bool) : Value := ofInt (if b then 1 else 0)

/-- The value that is bound or written as a literal: truth values become `1` or `0`. -/
def normalized : Value → Value
  | bool b => ofBool b
  | v => v

/-- The form in which a value serves as a key, so that the number `5` and the text `5` are one
key.  Null has none. -/
def key? : Value → Option String
  | null => none
  | str s => some s
  | bool b => some (if b then "1" else "0")
  | v => some v.text

/-- The value as part of a longer text: a text without its quotes, anything else as written. -/
def plainText : Value → String
  | str s => s
  | v => v.text

/-! ## Small facts -/

/-- Only null has no key. -/
theorem key?_eq_none_iff (v : Value) : v.key? = none ↔ v = null := by
  cases v <;> simp [key?]

end Value

end RelQuery
