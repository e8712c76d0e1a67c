import Mathlib
import RelQuery.Value.Number

/-!
# The characters of a number

A number is written into a statement as it is, without quotes around it.  That is safe because of
what it is written with.

* `Number.isTextChar` are the characters: digits, signs, a point, and the mark of an exponent.
* **`numeric_text`** — a number is written with no others.
-/

namespace RelQuery

/-- The characters that numbers are written with. -/
def Number.isTextChar (c : Char) : Bool := c.isDigit || ['-', '+', '.', 'e'].contains c

/-- A text that is written like a number. -/
def Number.Numeric (s : String) : Prop := ∀ c ∈ s.toList, isTextChar c = true

namespace Number

lemma isTextChar_of_isDigit {c : Char} (h : c.isDigit = true) : isTextChar c = true := by
  rw [isTextChar, h, Bool.true_or]

lemma numeric_append {s t : String} (hs : Numeric s) (ht : Numeric t) : Numeric (s ++ t) := by
  intro c hc
  rw [String.toList_append, List.mem_append] at hc
  exact hc.elim (hs c) (ht c)

lemma numeric_ofList {s : String} (hs : Numeric s) {cs : List Char} (h : cs ⊆ s.toList) :
    Numeric (String.ofList cs) := by
  intro c hc
  rw [String.toList_ofList] at hc
  exact hs c (h hc)

lemma numeric_toString (n : Nat) : Numeric (toString n) := by
  intro c hc
  rw [Nat.toString_eq_ofList_toDigits, String.toList_ofList] at hc
  exact isTextChar_of_isDigit (Nat.isDigit_of_mem_toDigits (by omega) (by omega) hc)

lemma numeric_zeros (n : Nat) : Numeric (Decimal.zeros n) := by
  intro c hc
  rw [Decimal.zeros, String.toList_ofList] at hc
  rw [List.eq_of_mem_replicate hc]
  rfl

lemma numeric_of_all {s : String} (h : s.toList.all isTextChar = true) : Numeric s :=
  fun c hc => List.all_eq_true.mp h c hc

end Number

namespace Decimal

open Number

lemma numeric_positional (layout : Layout) (d : Decimal) : Numeric (layout.positional d) := by
  have hdigits := numeric_toString d.digits
  rw [Layout.positional]
  split
  · refine numeric_append (numeric_append hdigits (numeric_zeros _)) ?_
    split <;> exact numeric_of_all rfl
  · dsimp only
    split
    · exact numeric_append (numeric_append (numeric_of_all rfl) (numeric_zeros _)) hdigits
    · refine numeric_append (numeric_append (numeric_ofList hdigits (List.take_subset _ _))
        (numeric_of_all rfl)) (numeric_ofList hdigits (List.drop_subset _ _))

/-- The form with an exponent is numeric where the marks of the exponent are. -/
lemma numeric_scientific {layout : Layout} (hpos : Numeric layout.positiveMark)
    (hneg : Numeric layout.negativeMark) (d : Decimal) (power : Int) :
    Numeric (layout.scientific d power) := by
  have hdigits := numeric_toString d.digits
  have hrest : Numeric (String.ofList ((toString d.digits).toList.drop 1)) :=
    numeric_ofList hdigits (List.drop_subset _ _)
  rw [Layout.scientific]
  refine numeric_append (numeric_append (numeric_append
    (numeric_ofList hdigits (List.take_subset _ _)) ?_) ?_) (numeric_toString _)
  · split
    · exact numeric_of_all rfl
    · exact numeric_append (numeric_of_all rfl) hrest
  · split
    · exact hneg
    · exact hpos

end Decimal

namespace Number

/-- **A number is written with digits, signs, points and exponent marks only.** -/
theorem numeric_text (n : Number) : Numeric n.text := by
  cases n with
  | int i =>
      cases i with
      | ofNat n => exact numeric_toString n
      | negSucc n => exact numeric_append (numeric_of_all rfl) (numeric_toString (n + 1))
  | double d =>
      refine numeric_append ?_ ?_
      · split <;> exact numeric_of_all rfl
      · rw [Decimal.Layout.write]
        split
        · exact Decimal.numeric_positional _ _
        · exact Decimal.numeric_scientific (numeric_of_all rfl) (numeric_of_all rfl) _ _

lemma text_ne_empty (n : Number) : n.text ≠ "" := by
  intro h
  cases n with
  | int i =>
      cases i with
      | ofNat n =>
          have hdigits : toString n = "" := h
          simp at hdigits
      | negSucc n =>
          have hminus : "-" ++ toString (n + 1) = "" := h
          simp at hminus
  | double d =>
      rw [text, String.append_eq_empty_iff, Decimal.Layout.write] at h
      have hwrite := h.2
      split at hwrite
      · rw [Decimal.Layout.positional] at hwrite
        split at hwrite
        · simp at hwrite
        · dsimp only at hwrite
          split at hwrite <;> simp at hwrite
      · rw [Decimal.Layout.scientific] at hwrite
        simp at hwrite

end Number

end RelQuery
