import RelQuery.Text.LetterTable

/-!
# Letters and their case

Names of tables are free text until they are quoted, so the naming convention meets letters of
every script.  The classes and maps here are the Unicode ones; core's `Char.toUpper` and
`Char.isAlpha` know ASCII only.

* `isAlphanumeric`, `isUpper` and `isLower` are the classes.
* `capital` and `small` are the full case maps of a character: some map to several characters.
-/

namespace RelQuery.Text

open LetterTable

/-- Whether a character is a letter or a digit of any script. -/
def isAlphanumeric (c : Char) : Bool :=
  alphanumericRanges.any fun (low, high) => low ≤ c.toNat && c.toNat ≤ high

/-- Whether a character has the uppercase property. -/
def isUpper (c : Char) : Bool :=
  uppercaseRuns.any (·.contains c.toNat)

/-- Whether a character has the lowercase property. -/
def isLower (c : Char) : Bool :=
  lowercaseRuns.any (·.contains c.toNat)

/-- The image of a character under a case map: its expansion if it has one, else its shift, else
the character itself. -/
def mapCase (expansions : List (Nat × List Nat)) (shifts : List Shift) (c : Char) : List Char :=
  match expansions.lookup c.toNat with
  | some image => image.map Char.ofNat
  | none =>
    match shifts.find? (·.contains c.toNat) with
    | some shift => [Char.ofNat (c.toNat + shift.distance).toNat]
    | none => [c]

def capital (c : Char) : List Char :=
  mapCase uppercaseExpansions uppercaseShifts c

def small (c : Char) : List Char :=
  mapCase lowercaseExpansions lowercaseShifts c

/-! ## Small facts -/

/-- Core's letters and digits are ASCII. -/
theorem toNat_lt_of_isAlphanum {c : Char} (h : c.isAlphanum = true) : c.toNat < 128 := by
  change ((decide (c.val ≥ 'A'.val ∧ c.val ≤ 'Z'.val) || (c.val ≥ 'a'.val && c.val ≤ 'z'.val)) ||
    (c.val ≥ '0'.val && c.val ≤ '9'.val)) = true at h
  simp only [Bool.or_eq_true, Bool.and_eq_true, decide_eq_true_eq, UInt32.le_iff_toNat_le,
    ge_iff_le] at h
  have : c.toNat = c.val.toNat := rfl
  have : 'Z'.val.toNat = 90 := rfl
  have : 'z'.val.toNat = 122 := rfl
  have : '9'.val.toNat = 57 := rfl
  omega

end RelQuery.Text
