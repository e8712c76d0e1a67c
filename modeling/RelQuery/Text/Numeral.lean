import RelQuery.Text.Blank

/-!
# Numerals in texts

Databases hand out some numbers as text.  A text counts as a number when it is nothing but digits
with at most a sign in front, and the number fits its word.

* `digits?` reads digits, `natural?` an unsigned 64-bit numeral, `integer?` a signed one.
-/

namespace RelQuery.Text

/-- The value of a list of decimal digits with at least one digit. -/
def digits? (cs : List Char) : Option Nat :=
  if cs.isEmpty || !cs.all Char.isDigit then none
  else some (cs.foldl (fun n c => n * 10 + (c.toNat - '0'.toNat)) 0)

/-- Read an unsigned numeral, with or without a plus in front. -/
def natural? (s : String) : Option Nat :=
  let read := match s.toList with
    | '+' :: rest => digits? rest
    | cs => digits? cs
  read.filter (· < UInt64.size)

/-- Read a signed numeral, with or without a sign in front. -/
def integer? (s : String) : Option Int :=
  match s.toList with
  | '-' :: rest => ((digits? rest).filter (· ≤ UInt64.size / 2)).map fun n => -(n : Int)
  | '+' :: rest => ((digits? rest).filter (· < UInt64.size / 2)).map Int.ofNat
  | cs => ((digits? cs).filter (· < UInt64.size / 2)).map Int.ofNat

end RelQuery.Text
