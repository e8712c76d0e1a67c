/-!
# Binary64 numbers

A number with a point or an exponent is kept in double precision.  Nothing here computes with
machine floats: a finite double is an integer times a power of two, and the three operations that
reading a number needs are exact fractions rounded once.

* `Double` is a finite value with its sign, so that the two zeros differ.
* `Double.nearest` rounds a fraction to the nearest double, ties to the even mantissa.
* `Double.ofNat`, `Double.times` and `Double.dividedBy` are the roundings of exact results.
-/

namespace RelQuery

/-- A finite double: `mantissa * 2 ^ exponent`, negated when `negative`.  In canonical form the
mantissa has 53 bits, or fewer at the least exponent `-1074`. -/
structure Double where
  negative : Bool
  mantissa : Nat
  exponent : Int
  deriving DecidableEq, Repr, Inhabited

namespace Double

/-! ## Rounding -/

/-- The integer nearest to `num / den`; a half goes to the even neighbour. -/
def roundDiv (num den : Nat) : Nat :=
  let below := num / den
  let twice := 2 * (num % den)
  if twice < den then below
  else if den < twice then below + 1
  else if below % 2 = 0 then below else below + 1

/-- The least exponent of a double. -/
def leastExponent : Int := -1074

/-- The greatest exponent of a double. -/
def greatestExponent : Int := 971

def zero (negative : Bool) : Double := ⟨negative, 0, leastExponent⟩

/-- The mantissa of `num / den` at an exponent, carried into the next exponent when rounding up
fills it. -/
def atExponent (negative : Bool) (num den : Nat) (exponent : Int) : Option Double :=
  let mantissa := roundDiv (num * Nat.pow 2 (-exponent).toNat) (den * Nat.pow 2 exponent.toNat)
  let rounded : Double :=
    if mantissa = Nat.pow 2 53 then ⟨negative, Nat.pow 2 52, exponent + 1⟩
    else ⟨negative, mantissa, exponent⟩
  if rounded.exponent ≤ greatestExponent then some rounded else none

/-- The double nearest to `num / den`, or nothing when that is beyond the greatest double.  The
binary logarithms leave two exponents to choose from; the smaller one is right unless the quotient
still has 54 bits there. -/
def nearest (negative : Bool) (num den : Nat) : Option Double :=
  if num = 0 then some (zero negative)
  else
    let guess := max ((num.log2 : Int) - den.log2 - 53) leastExponent
    let full := den * Nat.pow 2 guess.toNat * Nat.pow 2 53 ≤ num * Nat.pow 2 (-guess).toNat
    atExponent negative num den (if full then guess + 1 else guess)

/-! ## Operations -/

def num (x : Double) : Nat := x.mantissa * Nat.pow 2 x.exponent.toNat

def den (x : Double) : Nat := Nat.pow 2 (-x.exponent).toNat

/-- Whether the value is a zero of either sign. -/
def isZero (x : Double) : Bool := x.mantissa == 0

/-- The double nearest to a natural number. -/
def ofNat (n : Nat) : Option Double := nearest false n 1

/-- The product of two magnitudes, rounded once. -/
def times (x y : Double) : Option Double := nearest false (x.num * y.num) (x.den * y.den)

/-- The quotient of two magnitudes, rounded once. -/
def dividedBy (x y : Double) : Option Double := nearest false (x.num * y.den) (x.den * y.num)

def withSign (negative : Bool) (x : Double) : Double := { x with negative }

/-- Numeric equality: the two zeros are equal. -/
def same (x y : Double) : Bool := (x.isZero && y.isZero) || x == y

/-! ## Small facts -/

/-- A rounded quotient is one of the two neighbours. -/
theorem roundDiv_eq_or (num den : Nat) :
    roundDiv num den = num / den ∨ roundDiv num den = num / den + 1 := by
  unfold roundDiv
  dsimp only
  split
  · exact .inl rfl
  · split
    · exact .inr rfl
    · split
      · exact .inl rfl
      · exact .inr rfl

end Double

end RelQuery
