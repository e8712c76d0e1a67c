import RelQuery.Value.Shortest

/-!
# Numbers of the data format

A number is an integer when it is spelled as one and fits a 64-bit word, and a double otherwise.
The two never mix: `1` and `1.0` are different values and are written differently.

* `Number` is the type, `Number.text` its written form.
* `Number.read?` reads a spelling.  A double is read from the first nineteen or so of its digits,
  those that fit a 64-bit word, scaled by one power of ten; the result can differ from the correctly
  rounded one in the last bit, and that is the value the number has.
* `Number.toNat?` and `Number.toInt?` see integers only.
-/

namespace RelQuery

/-- An integer between `-2 ^ 63` and `2 ^ 64 - 1`, or a double. -/
inductive Number where
  | int (i : Int)
  | double (d : Double)
  deriving DecidableEq, Repr, Inhabited

namespace Number

def greatestWord : Nat := UInt64.size - 1

def greatestSigned : Nat := UInt64.size / 2 - 1

/-! ## Writing -/

/-- Doubles are positional from `0.00001` to sixteen digits before the point, and keep their
point; others have an exponent with a sign and no padding. -/
def layout : Decimal.Layout where
  leastPower := -5
  greatestPower := 15
  keepsPoint := true
  positiveMark := "e+"
  negativeMark := "e-"

def text : Number → String
  | int i => toString i
  | double d => (if d.negative then "-" else "") ++ layout.write (Decimal.shortest d)

/-! ## Views -/

/-- The number as a natural number, if it is an integer that is not negative. -/
def toNat? : Number → Option Nat
  | int (.ofNat n) => some n
  | _ => none

/-- The number as a signed 64-bit integer, if it is an integer in that range. -/
def toInt? : Number → Option Int
  | int i => if i ≤ greatestSigned then some i else none
  | double _ => none

def toDouble? : Number → Option Double
  | int i => (Double.ofNat i.natAbs).map (·.withSign (i < 0))
  | double d => some d

/-- Equality of values: an integer never equals a double, and the two zeros are equal. -/
def same : Number → Number → Bool
  | int i, int j => i == j
  | double x, double y => x.same y
  | _, _ => false

/-! ## Reading -/

def digitValue (c : Char) : Nat := c.toNat - '0'.toNat

/-- Append decimal digits to a significand as long as it stays a 64-bit word; also the number of
digits that went in. -/
def absorb (significand : Nat) : List Char → Nat × Nat
  | [] => (significand, 0)
  | c :: cs =>
    let next := significand * 10 + digitValue c
    if next ≤ greatestWord then
      let (significand, taken) := absorb next cs
      (significand, taken + 1)
    else (significand, 0)

/-- Divide by `10 ^ power`, at most 308 powers at a time. -/
def scaleDown (x : Double) (power : Nat) : Option Double := do
  if power ≤ 308 then
    x.dividedBy (← Double.ofNat (Nat.pow 10 power))
  else if x.isZero then
    return x
  else
    scaleDown (← x.dividedBy (← Double.ofNat (Nat.pow 10 308))) (power - 308)
  termination_by power

/-- Multiply by `10 ^ power`; nothing when the result is beyond the doubles. -/
def scaleUp (x : Double) (power : Nat) : Option Double := do
  if power ≤ 308 then
    x.times (← Double.ofNat (Nat.pow 10 power))
  else if x.isZero then
    return x
  else
    none

/-- The double `significand * 10 ^ exponent`, the significand rounded first. -/
def scaled (negative : Bool) (significand : Nat) (exponent : Int) : Option Double := do
  let x ← Double.ofNat significand
  let magnitude ←
    if 0 ≤ exponent then scaleUp x exponent.toNat else scaleDown x exponent.natAbs
  return magnitude.withSign negative

/-- A number spelled without point and exponent, from its digits. -/
def ofDigits? (negative : Bool) (whole : List Char) : Option Number :=
  let (significand, taken) := absorb 0 whole
  if taken < whole.length then
    (scaled negative significand (whole.length - taken)).map double
  else if !negative then some (int significand)
  else if 0 < significand ∧ significand ≤ greatestSigned + 1 then some (int (-significand))
  else (scaled true significand 0).map double

/-- A number spelled with a point or an exponent, from its digits before and after the point and
its exponent. -/
def ofParts? (negative : Bool) (whole fraction : List Char) (exponent : Int) : Option Number :=
  let (significand, taken) := absorb 0 whole
  let (significand, places) := absorb significand fraction
  let power := exponent + (whole.length - taken : Nat) - places
  (scaled negative significand power).map double

/-- The exponent part of a spelling: an optional sign and at least one digit. -/
def readExponent? (cs : List Char) : Option Int :=
  let (negative, digits) :=
    match cs with
    | '-' :: rest => (true, rest)
    | '+' :: rest => (false, rest)
    | rest => (false, rest)
  if digits.isEmpty || !digits.all Char.isDigit then none
  else
    let size : Int := (digits.foldl (fun n c => n * 10 + digitValue c) 0 : Nat)
    some (if negative then -size else size)

/-- Read the spelling of a number: an optional minus, digits without a superfluous zero in front,
an optional fraction, an optional exponent. -/
def read? (spelling : List Char) : Option Number := do
  let (negative, cs) :=
    match spelling with
    | '-' :: rest => (true, rest)
    | rest => (false, rest)
  let whole := cs.takeWhile Char.isDigit
  let rest := cs.dropWhile Char.isDigit
  if whole.isEmpty || (whole.length > 1 && whole.head? == some '0') then none
  else match rest with
    | [] => ofDigits? negative whole
    | '.' :: rest =>
      let fraction := rest.takeWhile Char.isDigit
      if fraction.isEmpty then none
      else match rest.dropWhile Char.isDigit with
        | [] => ofParts? negative whole fraction 0
        | mark :: rest =>
          if mark = 'e' ∨ mark = 'E' then ofParts? negative whole fraction (← readExponent? rest)
          else none
    | mark :: rest =>
      if mark = 'e' ∨ mark = 'E' then ofParts? negative whole [] (← readExponent? rest) else none

end Number

end RelQuery
