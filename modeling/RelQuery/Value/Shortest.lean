import RelQuery.Value.Double

/-!
# Doubles in decimal

A double is written with the fewest digits that still read back to it, and of those with the digits
nearest to its value.  Choosing the digits is exact arithmetic on the mantissa; laying them out is a
matter of taste, and the taste is one record.

* `Decimal.readsBack` is the specification: the decimals that round to a double.
* `Decimal.shortest` searches the decimal grids from coarse to fine.
* `Decimal.Layout` holds the decisions of the written form, `Decimal.Layout.write` follows them.
-/

namespace RelQuery

/-- A decimal magnitude, `digits * 10 ^ scale`. -/
structure Decimal where
  digits : Nat
  scale : Int
  deriving DecidableEq, Repr

namespace Decimal

/-! ## Which digits -/

/-- Compare `d` with `n * 2 ^ e`, exactly. -/
def compareBinary (d : Decimal) (n : Nat) (e : Int) : Ordering :=
  compare (d.digits * Nat.pow 10 d.scale.toNat * Nat.pow 2 (-e).toNat)
    (n * Nat.pow 2 e.toNat * Nat.pow 10 (-d.scale).toNat)

/-- Whether a decimal rounds to the magnitude of `x`: it lies between the midpoints to the two
neighbouring doubles, and a midpoint itself counts when the mantissa is even.  Below a power of two
the lower neighbour is half as far away. -/
def readsBack (x : Double) (d : Decimal) : Bool :=
  let narrow := x.mantissa = Nat.pow 2 52 ∧ Double.leastExponent < x.exponent
  let low := if narrow then 4 * x.mantissa - 1 else 4 * x.mantissa - 2
  let high := 4 * x.mantissa + 2
  let even := x.mantissa % 2 == 0
  let atLow := d.compareBinary low (x.exponent - 2)
  let atHigh := d.compareBinary high (x.exponent - 2)
  (atLow == .gt || (even && atLow == .eq)) && (atHigh == .lt || (even && atHigh == .eq))

/-- The number of decimal digits of `n`; one for zero. -/
def width (n : Nat) : Nat := (toString n).length

/-- The power of ten of the first digit of `num / den`. -/
def leadingPower (num den : Nat) : Int :=
  if den ≤ num then (width (num / den) : Int) - 1
  else -(width ((den + num - 1) / num - 1) : Int)

/-- The multiple of `10 ^ scale` that is nearest to `x` among those that read back to it, if any.
Only the two neighbours of the value on that grid can be; an exact tie goes to the even one. -/
def onGrid (x : Double) (scale : Int) : Option Decimal :=
  let num := x.num * Nat.pow 10 (-scale).toNat
  let den := x.den * Nat.pow 10 scale.toNat
  let below : Decimal := ⟨num / den, scale⟩
  let above : Decimal := ⟨num / den + 1, scale⟩
  match readsBack x below, readsBack x above with
  | true, true => some ⟨Double.roundDiv num den, scale⟩
  | true, false => some below
  | false, true => some above
  | false, false => none

/-- A decimal without zeros at the end of its digits; at most `fuel` of them are dropped. -/
def stripZeros : Nat → Decimal → Decimal
  | 0, d => d
  | fuel + 1, d =>
    if d.digits ≠ 0 ∧ d.digits % 10 = 0 then stripZeros fuel ⟨d.digits / 10, d.scale + 1⟩ else d

/-- The first grid with a hit, of those with `first`, `first + 1`, … digits; the exact value of an
integer when `tries` grids have none. -/
def search (x : Double) (leading : Int) (first : Nat) : Nat → Decimal
  | 0 => ⟨x.num / x.den, 0⟩
  | tries + 1 =>
    match onGrid x (leading + 1 - first) with
    | some d => d
    | none => search x leading (first + 1) tries

/-- The shortest decimal that reads back to the magnitude of `x`; seventeen digits always do. -/
def shortest (x : Double) : Decimal :=
  if x.isZero then ⟨0, 0⟩
  else stripZeros 20 (search x (leadingPower x.num x.den) 1 17)

/-! ## How they are laid out -/

/-- The decisions of a written form: the powers of ten of the first digit between which a number is
written positionally, and whether a whole number keeps its point and a zero. -/
structure Layout where
  leastPower : Int
  greatestPower : Int
  keepsPoint : Bool
  /-- Text before an exponent that is not negative. -/
  positiveMark : String
  /-- Text before the size of a negative exponent. -/
  negativeMark : String

def zeros (n : Nat) : String := String.ofList (List.replicate n '0')

def Layout.positional (layout : Layout) (d : Decimal) : String :=
  let digits := toString d.digits
  if 0 ≤ d.scale then
    digits ++ zeros d.scale.toNat ++ (if layout.keepsPoint then ".0" else "")
  else
    let places := (-d.scale).toNat
    if digits.length ≤ places then "0." ++ zeros (places - digits.length) ++ digits
    else
      let split := digits.length - places
      String.ofList (digits.toList.take split) ++ "." ++ String.ofList (digits.toList.drop split)

/-- A decimal with its point after the first digit and an exponent. -/
def Layout.scientific (layout : Layout) (d : Decimal) (power : Int) : String :=
  let digits := (toString d.digits).toList
  let rest := digits.drop 1
  let mark := if power < 0 then layout.negativeMark else layout.positiveMark
  String.ofList (digits.take 1) ++ (if rest.isEmpty then "" else "." ++ String.ofList rest) ++
    mark ++ toString power.natAbs

/-- A decimal in the form its size asks for. -/
def Layout.write (layout : Layout) (d : Decimal) : String :=
  let power := (width d.digits : Int) - 1 + d.scale
  if layout.leastPower ≤ power ∧ power ≤ layout.greatestPower then layout.positional d
  else layout.scientific d power

/-! ## Small facts -/

/-- A hit on a grid reads back, unless both neighbours do: then it is the nearer of the two. -/
theorem readsBack_of_onGrid {x : Double} {scale : Int} {d : Decimal} (h : onGrid x scale = some d) :
    readsBack x d = true := by
  revert h
  unfold onGrid
  dsimp only
  split <;> intro h <;> simp only [Option.some.injEq, reduceCtorEq] at h
  · subst h
    rename_i hbelow habove
    rcases Double.roundDiv_eq_or (x.num * Nat.pow 10 (-scale).toNat)
      (x.den * Nat.pow 10 scale.toNat) with e | e <;> rw [e] <;> assumption
  · subst h; assumption
  · subst h; assumption

end Decimal

end RelQuery
