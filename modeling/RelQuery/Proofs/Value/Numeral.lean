import Mathlib
import RelQuery.Value.Number

/-!
# Numerals

A number stands in a statement as it is written, without quotes.  A database reads it as a decimal:
digits with at most one point among them, shifted by an exponent.  Nothing is lost in between.

* `Numeral.value?` is the rational number that a numeral stands for.
* `Number.toRat` is the value of a number, of a double that of the digits chosen for it.
* **`Number.value?_text`** — a number is written as a numeral of its value.
-/

namespace RelQuery

/-! ## The reader -/

namespace Numeral

/-- The value of decimal digits, of which there must be one. -/
def natural? (cs : List Char) : Option Nat :=
  if cs ≠ [] ∧ ∀ c ∈ cs, c.isDigit = true then some (Nat.ofDigitChars 10 cs 0) else none

/-- The value of decimal digits with at most a sign in front. -/
def integer? : List Char → Option Int
  | '-' :: cs => (natural? cs).map fun n : Nat => -(n : Int)
  | '+' :: cs => (natural? cs).map Int.ofNat
  | cs => (natural? cs).map Int.ofNat

/-- The exponent behind the digits: none at all, or an integer behind its mark. -/
def exponent? : List Char → Option Int
  | [] => some 0
  | c :: cs => if c = 'e' ∨ c = 'E' then integer? cs else none

/-- The value of digits before and after a point, and of an exponent behind them. -/
def scaled? (whole fraction rest : List Char) : Option ℚ := do
  let n ← natural? (whole ++ fraction)
  let e ← exponent? rest
  return n * 10 ^ (e - fraction.length)

/-- The value of a numeral without a sign. -/
def magnitude? (cs : List Char) : Option ℚ :=
  let whole := cs.takeWhile Char.isDigit
  match cs.dropWhile Char.isDigit with
  | '.' :: rest => scaled? whole (rest.takeWhile Char.isDigit) (rest.dropWhile Char.isDigit)
  | rest => scaled? whole [] rest

/-- The value of a numeral. -/
def value? : List Char → Option ℚ
  | '-' :: cs => (magnitude? cs).map (- ·)
  | cs => magnitude? cs

end Numeral

/-- The value of a decimal. -/
def Decimal.toRat (d : Decimal) : ℚ := d.digits * 10 ^ d.scale

/-- The value of a number.  That of a double is the shortest decimal that reads back to it. -/
def Number.toRat : Number → ℚ
  | int i => i
  | double d => if d.negative then -(Decimal.shortest d).toRat else (Decimal.shortest d).toRat

namespace Numeral

/-! ## Digits -/

lemma natural?_of_isDigit {cs : List Char} (hne : cs ≠ []) (h : ∀ c ∈ cs, c.isDigit = true) :
    natural? cs = some (Nat.ofDigitChars 10 cs 0) := if_pos ⟨hne, h⟩

lemma isDigit_of_natural? {cs : List Char} {n : Nat} (h : natural? cs = some n) :
    ∀ c ∈ cs, c.isDigit = true := by
  by_contra hdigits
  rw [natural?, if_neg fun hcs => hdigits hcs.2] at h
  cases h

lemma isDigit_of_mem_toDigits {n : Nat} {c : Char} (h : c ∈ Nat.toDigits 10 n) :
    c.isDigit = true := Nat.isDigit_of_mem_toDigits (by omega) (by omega) h

lemma natural?_toDigits (n : Nat) : natural? (Nat.toDigits 10 n) = some n := by
  rw [natural?_of_isDigit Nat.toDigits_ne_nil fun c => isDigit_of_mem_toDigits,
    Nat.ofDigitChars_ten_toDigits]

lemma isDigit_of_mem_zeros {k : Nat} {c : Char} (h : c ∈ List.replicate k '0') :
    c.isDigit = true := by
  rw [List.eq_of_mem_replicate h]
  rfl

/-- Zeros behind the digits shift them. -/
lemma natural?_append_zeros (n k : Nat) :
    natural? (Nat.toDigits 10 n ++ List.replicate k '0') = some (n * 10 ^ k) := by
  rw [natural?_of_isDigit (List.append_ne_nil_of_left_ne_nil Nat.toDigits_ne_nil _)
    fun c hc => (List.mem_append.mp hc).elim isDigit_of_mem_toDigits isDigit_of_mem_zeros,
    Nat.ofDigitChars_append, Nat.ofDigitChars_ten_toDigits, Nat.ofDigitChars_replicate_zero,
    Nat.mul_comm]

/-- Zeros before the digits change nothing. -/
lemma natural?_zeros_append (n k : Nat) :
    natural? (List.replicate k '0' ++ Nat.toDigits 10 n) = some n := by
  rw [natural?_of_isDigit (List.append_ne_nil_of_right_ne_nil _ Nat.toDigits_ne_nil)
    fun c hc => (List.mem_append.mp hc).elim isDigit_of_mem_zeros isDigit_of_mem_toDigits,
    Nat.ofDigitChars_append, Nat.ofDigitChars_replicate_zero, Nat.mul_zero,
    Nat.ofDigitChars_ten_toDigits]

/-! ## Points and exponents -/

lemma exponent?_nil : exponent? [] = some 0 := rfl

/-- An exponent does not go on with the digits before it. -/
lemma head?_of_exponent? {rest : List Char} {e : Int} (h : exponent? rest = some e) :
    ∀ c ∈ rest.head?, c.isDigit = false ∧ c ≠ '.' := by
  intro c hc
  cases rest with
  | nil => cases hc
  | cons d rest =>
      cases hc
      rw [exponent?] at h
      split at h
      case isTrue hmark => rcases hmark with rfl | rfl <;> exact ⟨rfl, by decide⟩
      case isFalse => cases h

/-- A run that what follows does not go on with is all of the run. -/
lemma takeWhile_append_of_stop {p : Char → Bool} {cs rest : List Char}
    (hcs : ∀ c ∈ cs, p c = true) (hrest : ∀ c ∈ rest.head?, p c = false) :
    (cs ++ rest).takeWhile p = cs ∧ (cs ++ rest).dropWhile p = rest := by
  rw [List.takeWhile_append_of_pos hcs, List.dropWhile_append_of_pos hcs]
  cases rest with
  | nil => exact ⟨List.append_nil cs, rfl⟩
  | cons c rest =>
      have hc : ¬ p c = true := by simp [hrest c rfl]
      rw [List.takeWhile_cons_of_neg hc, List.dropWhile_cons_of_neg hc, List.append_nil]
      exact ⟨rfl, rfl⟩

/-- Digits with a point among them. -/
lemma magnitude?_pointed {whole fraction rest : List Char} {n : Nat} {e : Int}
    (hn : natural? (whole ++ fraction) = some n) (he : exponent? rest = some e) :
    magnitude? (whole ++ '.' :: (fraction ++ rest))
      = some ((n : ℚ) * 10 ^ (e - fraction.length)) := by
  have hdigits := isDigit_of_natural? hn
  have hstop : ∀ c ∈ ('.' :: (fraction ++ rest)).head?, c.isDigit = false := by
    rintro c ⟨⟩
    rfl
  obtain ⟨hwhole, hpoint⟩ : _ ∧ _ := takeWhile_append_of_stop
    (fun c hc => hdigits c (List.mem_append_left fraction hc)) hstop
  obtain ⟨hfraction, hrest⟩ : _ ∧ _ := takeWhile_append_of_stop
    (fun c hc => hdigits c (List.mem_append_right whole hc))
    fun c hc => (head?_of_exponent? he c hc).1
  simp only [magnitude?, hwhole, hpoint, hfraction, hrest, scaled?, hn, he]
  rfl

/-- Digits without a point. -/
lemma magnitude?_whole {whole rest : List Char} {n : Nat} {e : Int}
    (hn : natural? whole = some n) (he : exponent? rest = some e) :
    magnitude? (whole ++ rest) = some ((n : ℚ) * 10 ^ e) := by
  obtain ⟨hwhole, hrest⟩ := takeWhile_append_of_stop (isDigit_of_natural? hn)
    fun c hc => (head?_of_exponent? he c hc).1
  have hscaled : scaled? whole [] rest = some ((n : ℚ) * 10 ^ e) := by
    simp only [scaled?, List.append_nil, hn, he, List.length_nil, Nat.cast_zero, sub_zero]
    rfl
  rw [← hscaled]
  simp only [magnitude?, hwhole, hrest]
  split
  case h_1 more => exact absurd rfl (head?_of_exponent? he '.' rfl).2
  case h_2 => rfl

/-- A sign is not a digit, so a numeral without one has none. -/
lemma value?_of_magnitude? {cs : List Char} {q : ℚ} (h : magnitude? cs = some q) :
    value? cs = some q := by
  unfold value?
  split
  case h_1 rest => cases h
  case h_2 => exact h

end Numeral

/-! ## Written numbers -/

namespace Decimal

open Numeral

lemma toList_toString (n : Nat) : (toString n).toList = Nat.toDigits 10 n := by
  rw [Nat.toString_eq_ofList_toDigits, String.toList_ofList]

lemma width_eq (n : Nat) : width n = (Nat.toDigits 10 n).length := by
  rw [width, ← toList_toString, String.length_toList]

/-- Zeros behind the digits make up for a smaller power of ten. -/
lemma mul_pow_eq_toRat (d : Decimal) (places : Nat) {e : Int} (h : places + e = d.scale) :
    ((d.digits * 10 ^ places : Nat) : ℚ) * 10 ^ e = d.toRat := by
  rw [toRat, Nat.cast_mul, Nat.cast_pow, Nat.cast_ofNat, mul_assoc, ← zpow_natCast,
    ← zpow_add₀ (by norm_num), h]

/-- Digits with zeros behind them, and a point after that or none. -/
lemma magnitude?_zeros_behind (d : Decimal) (hscale : 0 ≤ d.scale) (keepsPoint : Bool) :
    magnitude? (Nat.toDigits 10 d.digits ++ List.replicate d.scale.toNat '0'
      ++ (if keepsPoint then ".0" else "").toList) = some d.toRat := by
  cases keepsPoint with
  | false =>
      have hread := magnitude?_whole (natural?_append_zeros d.digits d.scale.toNat) exponent?_nil
      rw [mul_pow_eq_toRat d d.scale.toNat (by omega)] at hread
      exact hread
  | true =>
      have hdigits : natural? (Nat.toDigits 10 d.digits ++ List.replicate d.scale.toNat '0'
          ++ ['0']) = some (d.digits * 10 ^ (d.scale.toNat + 1)) := by
        rw [List.append_assoc, ← List.replicate_succ']
        exact natural?_append_zeros d.digits (d.scale.toNat + 1)
      have hread := magnitude?_pointed hdigits exponent?_nil
      rw [mul_pow_eq_toRat d (d.scale.toNat + 1)
        (by rw [List.length_singleton]; omega)] at hread
      exact hread

/-- Digits with a point among them, so many places from their end as the scale says. -/
lemma magnitude?_places (d : Decimal) {whole fraction : List Char}
    (hdigits : natural? (whole ++ fraction) = some d.digits)
    (hplaces : d.scale = -(fraction.length : Int)) :
    magnitude? (whole ++ '.' :: fraction) = some d.toRat := by
  have hread := magnitude?_pointed hdigits exponent?_nil
  rw [zero_sub, ← hplaces, List.append_nil] at hread
  exact hread

/-- A decimal that is written positionally. -/
lemma magnitude?_positional (layout : Layout) (d : Decimal) :
    magnitude? (layout.positional d).toList = some d.toRat := by
  have hlength : (toString d.digits).length = (Nat.toDigits 10 d.digits).length :=
    width_eq d.digits
  rw [Layout.positional]
  split
  case isTrue hscale =>
    simp only [String.toList_append, toList_toString, zeros, String.toList_ofList]
    exact magnitude?_zeros_behind d hscale layout.keepsPoint
  case isFalse hscale =>
    simp only [hlength]
    split
    case isTrue hsmall =>
      simp only [String.toList_append, toList_toString, zeros, String.toList_ofList]
      generalize hzeros : (-d.scale).toNat - (Nat.toDigits 10 d.digits).length = zeros
      have hdigits : natural? (['0'] ++ (List.replicate zeros '0' ++ Nat.toDigits 10 d.digits))
          = some d.digits := natural?_zeros_append d.digits (zeros + 1)
      have hread := magnitude?_places d hdigits
        (by rw [List.length_append, List.length_replicate]; omega)
      exact hread
    case isFalse hlarge =>
      simp only [String.toList_append, toList_toString, String.toList_ofList, List.append_assoc]
      generalize hsplit : (Nat.toDigits 10 d.digits).length - (-d.scale).toNat = split
      have hdigits : natural? ((Nat.toDigits 10 d.digits).take split
          ++ (Nat.toDigits 10 d.digits).drop split) = some d.digits := by
        rw [List.take_append_drop, natural?_toDigits]
      have hread := magnitude?_places d hdigits (by rw [List.length_drop]; omega)
      exact hread

/-- The marks with which a database reads an exponent. -/
structure Layout.Marked (layout : Layout) : Prop where
  positive : layout.positiveMark = "e+"
  negative : layout.negativeMark = "e-"

lemma exponent?_mark {layout : Layout} (h : layout.Marked) (power : Int) :
    exponent? ((if power < 0 then layout.negativeMark else layout.positiveMark).toList
      ++ (toString power.natAbs).toList) = some power := by
  rw [h.positive, h.negative, toList_toString]
  split
  case isTrue hneg =>
    show (natural? (Nat.toDigits 10 power.natAbs)).map (fun n : Nat => -(n : Int)) = _
    rw [natural?_toDigits, Option.map_some]
    exact congrArg some (by omega)
  case isFalse hpos =>
    show (natural? (Nat.toDigits 10 power.natAbs)).map Int.ofNat = _
    rw [natural?_toDigits, Option.map_some]
    exact congrArg some (Int.natAbs_of_nonneg (by omega))

/-- A decimal that is written with an exponent. -/
lemma magnitude?_scientific {layout : Layout} (h : layout.Marked) (d : Decimal) :
    magnitude? (layout.scientific d ((width d.digits : Int) - 1 + d.scale)).toList
      = some d.toRat := by
  have hwidth := width_eq d.digits
  generalize hpower : (width d.digits : Int) - 1 + d.scale = power
  have hexponent := exponent?_mark h power
  simp only [Layout.scientific, String.toList_append, String.toList_ofList, toList_toString,
    List.append_assoc] at hexponent ⊢
  have hdigits : natural? ((Nat.toDigits 10 d.digits).take 1 ++ (Nat.toDigits 10 d.digits).drop 1)
      = some d.digits := by rw [List.take_append_drop, natural?_toDigits]
  have hplaces : power - ((Nat.toDigits 10 d.digits).drop 1).length = d.scale := by
    have hsome := Nat.length_toDigits_pos (b := 10) (n := d.digits)
    rw [List.length_drop]
    omega
  split
  case isTrue hrest =>
    rw [List.isEmpty_iff] at hrest
    rw [hrest, List.length_nil] at hplaces
    rw [hrest, List.append_nil] at hdigits
    have hpower : power = d.scale := by omega
    have hread := magnitude?_whole hdigits hexponent
    rw [toRat, ← hpower]
    exact hread
  case isFalse hrest =>
    have hread := magnitude?_pointed hdigits hexponent
    rw [hplaces] at hread
    simp only [String.toList_append, String.toList_ofList, List.append_assoc]
    exact hread

lemma magnitude?_write {layout : Layout} (h : layout.Marked) (d : Decimal) :
    magnitude? (layout.write d).toList = some d.toRat := by
  rw [Layout.write]
  split
  case isTrue => exact magnitude?_positional layout d
  case isFalse => exact magnitude?_scientific h d

end Decimal

namespace Number

open Numeral

lemma marked_layout : layout.Marked := ⟨rfl, rfl⟩

lemma toList_minus (s : String) : ("-" ++ s).toList = '-' :: s.toList := String.toList_append

/-- **A number is written as a numeral of its value.** -/
theorem value?_text (n : Number) : value? n.text.toList = some n.toRat := by
  cases n with
  | int i =>
      cases i with
      | ofNat n =>
          have hread := magnitude?_whole (natural?_toDigits n) exponent?_nil
          rw [zpow_zero, mul_one, List.append_nil, ← Decimal.toList_toString] at hread
          exact value?_of_magnitude? hread
      | negSucc n =>
          have hread := magnitude?_whole (natural?_toDigits (n + 1)) exponent?_nil
          rw [zpow_zero, mul_one, List.append_nil, ← Decimal.toList_toString] at hread
          have hminus : text (int (.negSucc n)) = "-" ++ toString (n + 1) := rfl
          rw [hminus, toList_minus, value?, hread, toRat, Int.cast_negSucc]
          rfl
  | double d =>
      have hread := Decimal.magnitude?_write marked_layout (Decimal.shortest d)
      rw [text, toRat]
      cases d.negative with
      | false =>
          rw [if_neg Bool.false_ne_true, if_neg Bool.false_ne_true, String.empty_append]
          exact value?_of_magnitude? hread
      | true =>
          rw [if_pos rfl, if_pos rfl, toList_minus, value?, hread]
          rfl

end Number

end RelQuery
