import RelQuery.Proofs.Value.Numeral

/-!
# Shortest decimals

The digits of a double are searched for on decimal grids, from coarse to fine.  The search finds
some: the decimals that read back to a double fill an interval around it, and with seventeen digits
the grid is finer than the interval is wide.

* `Double.magnitude` is the exact value of a double, but for its sign.
* **`Decimal.compareBinary_eq`** — decimals are compared by their values.
* **`Decimal.onGrid_ne_none`** — on a grid as fine as that some decimal reads back.
* **`Decimal.readsBack_shortest`** — so the digits that are chosen read back to the double.
-/

namespace RelQuery

/-! ## Powers -/

/-- A power of either sign, as a quotient of two that have none. -/
lemma zpow_mul_toNat {b : ℚ} (hb : b ≠ 0) (k : Int) : b ^ k * b ^ (-k).toNat = b ^ k.toNat := by
  rw [← zpow_natCast, ← zpow_natCast, ← zpow_add₀ hb]
  congr 1
  omega

/-- The exact value of a double, but for its sign. -/
def Double.magnitude (x : Double) : ℚ := x.mantissa * 2 ^ x.exponent

lemma Double.den_pos (x : Double) : 0 < x.den := Nat.pow_pos (by norm_num)

lemma Double.num_eq (x : Double) : (x.num : ℚ) = x.magnitude * x.den := by
  have hpow := zpow_mul_toNat (b := 2) (by norm_num) x.exponent
  simp only [num, den, magnitude, Nat.pow_eq, Nat.cast_mul, Nat.cast_pow, Nat.cast_ofNat]
  rw [mul_assoc, hpow]

namespace Decimal

/-! ## Comparing -/

/-- **Decimals are compared by their values.** -/
theorem compareBinary_eq (d : Decimal) (n : Nat) (e : Int) :
    d.compareBinary n e = compare d.toRat ((n : ℚ) * 2 ^ e) := by
  have hten := zpow_mul_toNat (b := 10) (by norm_num) d.scale
  have htwo := zpow_mul_toNat (b := 2) (by norm_num) e
  -- both sides times the denominators
  set unit : ℚ := 10 ^ (-d.scale).toNat * 2 ^ (-e).toNat with hunit
  have hpos : 0 < unit := by positivity
  have hleft : ((d.digits * 10 ^ d.scale.toNat * 2 ^ (-e).toNat : Nat) : ℚ) = d.toRat * unit := by
    push_cast
    rw [← hten, toRat, hunit]
    ring
  have hright : ((n * 2 ^ e.toNat * 10 ^ (-d.scale).toNat : Nat) : ℚ) = n * 2 ^ e * unit := by
    push_cast
    rw [← htwo, hunit]
    ring
  rw [compareBinary, Nat.pow_eq, Nat.pow_eq, Nat.pow_eq, Nat.pow_eq, ← cmp_eq_compare,
    ← cmp_eq_compare, ← Nat.strictMono_cast.cmp_map_eq (β := ℚ), hleft, hright]
  exact (strictMono_mul_right_of_pos hpos).cmp_map_eq _ _

/-! ## Rounding intervals -/

section

variable {x : Double} {c d : Decimal}

/-- Whether a decimal reads back is a matter of its value. -/
lemma readsBack_congr (h : c.toRat = d.toRat) : readsBack x c = readsBack x d := by
  simp only [readsBack, compareBinary_eq, h]

/-- The lower end of the decimals that read back to a double, in fourths of its last bit. -/
def lowerEnd (x : Double) : Nat :=
  if x.mantissa = Nat.pow 2 52 ∧ Double.leastExponent < x.exponent then 4 * x.mantissa - 1
  else 4 * x.mantissa - 2

/-- A decimal between the two ends reads back. -/
lemma readsBack_of_between (hlow : (lowerEnd x : ℚ) * 2 ^ (x.exponent - 2) < d.toRat)
    (hhigh : d.toRat < ((4 * x.mantissa + 2 : Nat) : ℚ) * 2 ^ (x.exponent - 2)) :
    readsBack x d = true := by
  have hgt : d.compareBinary (lowerEnd x) (x.exponent - 2) = .gt := by
    rw [compareBinary_eq]
    exact compare_gt_iff_gt.mpr hlow
  have hlt : d.compareBinary (4 * x.mantissa + 2) (x.exponent - 2) = .lt := by
    rw [compareBinary_eq]
    exact compare_lt_iff_lt.mpr hhigh
  rw [lowerEnd] at hgt
  simp only [readsBack, hgt, hlt]
  rfl

/-- The value of a double lies between the two ends, and they are further apart than its
sixteenth decimal place. -/
lemma magnitude_between_ends (hzero : x.mantissa ≠ 0) (h : x.mantissa < 2 ^ 53) :
    (lowerEnd x : ℚ) * 2 ^ (x.exponent - 2) < x.magnitude
      ∧ x.magnitude < ((4 * x.mantissa + 2 : Nat) : ℚ) * 2 ^ (x.exponent - 2)
      ∧ x.magnitude < 10 ^ 16 * (((4 * x.mantissa + 2 : Nat) : ℚ) * 2 ^ (x.exponent - 2)
        - lowerEnd x * 2 ^ (x.exponent - 2)) := by
  have hunit : (0 : ℚ) < 2 ^ (x.exponent - 2) := by positivity
  have hmagnitude : x.magnitude = ((4 * x.mantissa : Nat) : ℚ) * 2 ^ (x.exponent - 2) := by
    rw [Double.magnitude, zpow_sub₀ (by norm_num)]
    push_cast
    ring
  have hbounds : lowerEnd x < 4 * x.mantissa
      ∧ 4 * x.mantissa + 10 ^ 16 * lowerEnd x < 10 ^ 16 * (4 * x.mantissa + 2) := by
    rw [lowerEnd]
    split
    case isTrue hnarrow =>
      have hpow : x.mantissa = 2 ^ 52 := hnarrow.1
      omega
    case isFalse => omega
  rw [hmagnitude, ← sub_mul, ← mul_assoc]
  refine ⟨?_, ?_, ?_⟩
  · exact mul_lt_mul_of_pos_right (by exact_mod_cast hbounds.1) hunit
  · exact mul_lt_mul_of_pos_right (by exact_mod_cast Nat.lt_add_of_pos_right (by norm_num)) hunit
  · refine mul_lt_mul_of_pos_right ?_ hunit
    have hcast : ((4 * x.mantissa : Nat) : ℚ) + 10 ^ 16 * (lowerEnd x : ℚ)
        < 10 ^ 16 * ((4 * x.mantissa + 2 : Nat) : ℚ) := by exact_mod_cast hbounds.2
    linarith

/-! ## Grids -/

/-- The next decimal on a grid. -/
lemma toRat_succ (digits : Nat) (scale : Int) :
    (Decimal.mk (digits + 1) scale).toRat = (Decimal.mk digits scale).toRat + 10 ^ scale := by
  simp only [toRat, Nat.cast_add, Nat.cast_one]
  ring

/-- The value of a double lies between its two neighbours on a grid. -/
lemma neighbours (x : Double) (scale : Int) {digits : Nat}
    (h : x.num * Nat.pow 10 (-scale).toNat / (x.den * Nat.pow 10 scale.toNat) = digits) :
    (Decimal.mk digits scale).toRat ≤ x.magnitude
      ∧ x.magnitude < (Decimal.mk (digits + 1) scale).toRat := by
  have hden : 0 < x.den * 10 ^ scale.toNat := Nat.mul_pos x.den_pos (Nat.pow_pos (by norm_num))
  have hpos : (0 : ℚ) < x.den * 10 ^ (-scale).toNat :=
    mul_pos (by exact_mod_cast x.den_pos) (by positivity)
  have hten := zpow_mul_toNat (b := 10) (by norm_num) scale
  have hnumerator : ((x.num * 10 ^ (-scale).toNat : Nat) : ℚ)
      = x.magnitude * (x.den * 10 ^ (-scale).toNat) := by
    push_cast
    rw [x.num_eq]
    ring
  have hdenominator (n : Nat) : ((n * (x.den * 10 ^ scale.toNat) : Nat) : ℚ)
      = (Decimal.mk n scale).toRat * (x.den * 10 ^ (-scale).toNat) := by
    push_cast
    rw [← hten, toRat]
    ring
  rw [Nat.pow_eq, Nat.pow_eq] at h
  refine ⟨?_, ?_⟩
  · rw [← mul_le_mul_iff_of_pos_right hpos, ← hnumerator, ← hdenominator, Nat.cast_le, ← h]
    exact Nat.div_mul_le_self _ _
  · rw [← mul_lt_mul_iff_of_pos_right hpos, ← hnumerator, ← hdenominator, Nat.cast_lt, ← h,
      ← Nat.div_lt_iff_lt_mul hden]
    exact Nat.lt_succ_self _

/-- **A grid has a decimal that reads back**, if it is finer than the interval of these. -/
theorem onGrid_ne_none (hzero : x.mantissa ≠ 0) (h : x.mantissa < 2 ^ 53) {scale : Int}
    (hfine : 10 ^ 16 * (10 : ℚ) ^ scale ≤ x.magnitude) : onGrid x scale ≠ none := by
  obtain ⟨hlow, hhigh, hwide⟩ := magnitude_between_ends hzero h
  intro hnone
  rw [onGrid] at hnone
  generalize hdigits : x.num * Nat.pow 10 (-scale).toNat / (x.den * Nat.pow 10 scale.toNat)
    = digits at hnone
  obtain ⟨hbelow, habove⟩ := neighbours x scale hdigits
  split at hnone
  case h_1 => cases hnone
  case h_2 => cases hnone
  case h_3 => cases hnone
  case h_4 hfalse hfalse' =>
    -- both neighbours are outside of the interval, so it is not wider than the grid
    have hout : (Decimal.mk digits scale).toRat ≤ lowerEnd x * 2 ^ (x.exponent - 2) := by
      by_contra hin
      have htrue := readsBack_of_between (not_le.mp hin) (hbelow.trans_lt hhigh)
      exact Bool.false_ne_true (hfalse.symm.trans htrue)
    have hout' : ((4 * x.mantissa + 2 : Nat) : ℚ) * 2 ^ (x.exponent - 2)
        ≤ (Decimal.mk (digits + 1) scale).toRat := by
      by_contra hin
      have htrue := readsBack_of_between (hlow.trans habove) (not_le.mp hin)
      exact Bool.false_ne_true (hfalse'.symm.trans htrue)
    rw [toRat_succ] at hout'
    linarith

/-! ## The search -/

lemma width_pos (n : Nat) : 0 < width n := by
  rw [width_eq]
  exact Nat.length_toDigits_pos

lemma lt_pow_width (n : Nat) : n < 10 ^ width n := by
  rw [← Nat.length_toDigits_le_iff (by norm_num) (width_pos n), width_eq]

lemma pow_width_le {n : Nat} (h : 0 < n) : 10 ^ (width n - 1) ≤ n := by
  by_contra hlt
  rw [not_le] at hlt
  by_cases hone : width n - 1 = 0
  · rw [hone] at hlt
    omega
  · rw [← Nat.length_toDigits_le_iff (by norm_num) (Nat.pos_of_ne_zero hone), ← width_eq] at hlt
    omega

/-- The first digit of a fraction stands for its power of ten at least. -/
lemma pow_leadingPower_le {num den : Nat} (hnum : 0 < num) (hden : 0 < den) :
    (10 : ℚ) ^ leadingPower num den * den ≤ num := by
  rw [leadingPower]
  split
  case isTrue hle =>
    have hwidth := width_pos (num / den)
    have hpower : (width (num / den) : Int) - 1 = (width (num / den) - 1 : Nat) := by omega
    have hmul : 10 ^ (width (num / den) - 1) * den ≤ num :=
      (Nat.mul_le_mul_right den (pow_width_le (Nat.div_pos hle hden))).trans
        (Nat.div_mul_le_self num den)
    rw [hpower, zpow_natCast]
    exact_mod_cast hmul
  case isFalse =>
    have hwidth := lt_pow_width ((den + num - 1) / num - 1)
    have hceil : den + num - 1 < (den + num - 1) / num * num + num := Nat.lt_div_mul_add hnum
    have hmul : den ≤ 10 ^ width ((den + num - 1) / num - 1) * num :=
      calc den ≤ (den + num - 1) / num * num := by omega
        _ ≤ 10 ^ width ((den + num - 1) / num - 1) * num :=
          Nat.mul_le_mul_right num (by omega)
    rw [zpow_neg, zpow_natCast, inv_mul_le_iff₀ (by positivity)]
    exact_mod_cast hmul

/-- A search that comes to a grid with a hit ends with one. -/
lemma readsBack_search {leading : Int} {last : Nat} (hlast : onGrid x (leading + 1 - last) ≠ none)
    (tries : Nat) {first : Nat} (hfirst : first ≤ last) (htries : last < first + tries) :
    readsBack x (search x leading first tries) = true := by
  induction tries generalizing first with
  | zero => omega
  | succ tries ih =>
      rw [search]
      cases hgrid : onGrid x (leading + 1 - first) with
      | some d => exact readsBack_of_onGrid hgrid
      | none =>
          have hne : first ≠ last := fun heq => hlast (by rw [← heq, hgrid])
          exact ih (by omega) (by omega)

/-- Zeros at the end are dropped without a change of the value. -/
lemma toRat_stripZeros (fuel : Nat) (d : Decimal) : (stripZeros fuel d).toRat = d.toRat := by
  induction fuel generalizing d with
  | zero => rfl
  | succ fuel ih =>
      rw [stripZeros]
      split
      case isTrue hten =>
        have hdigits : (d.digits : ℚ) = 10 * (d.digits / 10 : Nat) := by
          exact_mod_cast show d.digits = 10 * (d.digits / 10) by omega
        rw [ih, toRat, toRat, hdigits, zpow_add_one₀ (by norm_num)]
        ring
      case isFalse => rfl

/-- **The digits of a double read back to it.** -/
theorem readsBack_shortest (h : x.mantissa < 2 ^ 53) : readsBack x (shortest x) = true := by
  rw [shortest]
  split
  case isTrue hzero =>
    have hmantissa : x.mantissa = 0 := by simpa [Double.isZero] using hzero
    have hhigh : compare 0 (2 * 2 ^ (x.exponent - 2).toNat) = .lt :=
      compare_lt_iff_lt.mpr (by positivity)
    simp [readsBack, compareBinary, hmantissa, hhigh]
  case isFalse hzero =>
    have hmantissa : x.mantissa ≠ 0 := by simpa [Double.isZero] using hzero
    have hnum : 0 < x.num := Nat.mul_pos (Nat.pos_of_ne_zero hmantissa) (Nat.pow_pos (by norm_num))
    have hleading : (10 : ℚ) ^ leadingPower x.num x.den ≤ x.magnitude := by
      have hle := pow_leadingPower_le hnum x.den_pos
      rw [x.num_eq] at hle
      exact le_of_mul_le_mul_right hle (by exact_mod_cast x.den_pos)
    have hgrid : onGrid x (leadingPower x.num x.den + 1 - (17 : Nat)) ≠ none := by
      refine onGrid_ne_none hmantissa h (le_trans (le_of_eq ?_) hleading)
      rw [← zpow_natCast, ← zpow_add₀ (by norm_num)]
      congr 1
      omega
    rw [readsBack_congr (toRat_stripZeros 20 _)]
    exact readsBack_search hgrid 17 (by norm_num) (by norm_num)

end

end Decimal

end RelQuery
