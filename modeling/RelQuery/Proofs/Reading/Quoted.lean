import Mathlib
import RelQuery.Dialect

/-!
# Reading between quotes

Texts and names reach the database between quotes, with the quotes inside them written twice.  This
is how a database finds the end of such a stretch and what stands in it.

* `Quoting` is the kind of a stretch: the quote around it, and whether backslashes escape in it.
* `Quoting.read?` reads a stretch from behind its first quote, up to its end and no further.
* **`Quoting.read?_flatMap`** — a stretch in which each character is spelled so that it is read back
  is read back as a whole.
* `Dialect.textQuoting` and `Dialect.nameQuoting` are the two kinds, `Dialect.spells_literalChar`
  and `Dialect.spells_doubled` say of the two spellings that they are read back.
-/

namespace RelQuery

/-- How a stretch between quotes is read. -/
structure Quoting where
  /-- The quote on either side; written twice, it stands for itself. -/
  mark : Char
  /-- Whether a backslash gives the character behind it another meaning. -/
  escapes : Bool

namespace Quoting

/-! ## The reader -/

/-- What a backslash and the character behind it stand for.  The two patterns keep the backslash:
they are for the pattern to read. -/
def unescaped (c : Char) : List Char :=
  match c with
  | '0' => ['\x00']
  | 'b' => ['\x08']
  | 't' => ['\t']
  | 'n' => ['\n']
  | 'r' => ['\r']
  | 'Z' => ['\x1a']
  | '%' => ['\\', '%']
  | '_' => ['\\', '_']
  | c => [c]

/-- What stands before the closing quote, and what follows it. -/
def read? (quoting : Quoting) : List Char → Option (List Char × List Char)
  | [] => none
  | c :: cs =>
    if c = quoting.mark then
      match cs with
      | [] => some ([], [])
      | d :: rest =>
        if d = quoting.mark then (quoting.read? rest).map (Prod.map (quoting.mark :: ·) id)
        else some ([], d :: rest)
    else if c = '\\' ∧ quoting.escapes then
      match cs with
      | [] => none
      | d :: rest => (quoting.read? rest).map (Prod.map (unescaped d ++ ·) id)
    else (quoting.read? cs).map (Prod.map (c :: ·) id)

variable {quoting : Quoting}

/-- The closing quote is read off. -/
lemma length_lt_of_read? {cs s rest : List Char} (h : quoting.read? cs = some (s, rest)) :
    rest.length < cs.length := by
  fun_induction read? quoting cs generalizing s with
  | case1 => cases h
  | case2 =>
      cases h
      exact Nat.zero_lt_one
  | case3 more ih =>
      obtain ⟨⟨t, rest'⟩, hread, heq⟩ := Option.map_eq_some_iff.mp h
      cases heq
      exact (ih hread).trans (by simp)
  | case4 d more hd =>
      cases h
      exact Nat.lt_succ_self _
  | case5 c hc hescapes => cases h
  | case6 c hc hescapes d more ih =>
      obtain ⟨⟨t, rest'⟩, hread, heq⟩ := Option.map_eq_some_iff.mp h
      cases heq
      exact (ih hread).trans (by simp)
  | case7 c cs hc hescapes ih =>
      obtain ⟨⟨t, rest'⟩, hread, heq⟩ := Option.map_eq_some_iff.mp h
      cases heq
      exact (ih hread).trans (Nat.lt_succ_self _)

/-! ## Spellings -/

/-- A spelling of the characters of a stretch that is read back, whatever follows. -/
def Spells (quoting : Quoting) (spell : Char → List Char) : Prop :=
  ∀ c rest, quoting.read? (spell c ++ rest) = (quoting.read? rest).map (Prod.map (c :: ·) id)

/-- The quote twice is the quote. -/
lemma read?_doubled (rest : List Char) :
    quoting.read? (quoting.mark :: quoting.mark :: rest)
      = (quoting.read? rest).map (Prod.map (quoting.mark :: ·) id) := by
  simp only [read?, if_true]

/-- A backslash that has no meaning, and any other character but the quote. -/
lemma read?_plain {c : Char} (hmark : c ≠ quoting.mark)
    (hescape : ¬ (c = '\\' ∧ quoting.escapes)) (rest : List Char) :
    quoting.read? (c :: rest) = (quoting.read? rest).map (Prod.map (c :: ·) id) := by
  cases rest <;> simp only [read?, if_neg hmark, if_neg hescape]

/-- A quote with no other behind it ends the stretch. -/
lemma read?_close {rest : List Char} (h : rest.head? ≠ some quoting.mark) :
    quoting.read? (quoting.mark :: rest) = some ([], rest) := by
  cases rest with
  | nil => simp only [read?, if_true]
  | cons d rest =>
      have hd : d ≠ quoting.mark := fun heq => h (by rw [heq, List.head?_cons])
      simp only [read?, if_true, if_neg hd]

/-- **A stretch is read back to its end**, if each of its characters is. -/
theorem read?_flatMap {spell : Char → List Char} (hspell : quoting.Spells spell) (s : List Char)
    {rest : List Char} (h : rest.head? ≠ some quoting.mark) :
    quoting.read? (s.flatMap spell ++ quoting.mark :: rest) = some (s, rest) := by
  induction s with
  | nil => exact read?_close h
  | cons c s ih =>
      rw [List.flatMap_cons, List.append_assoc, hspell, ih]
      rfl

end Quoting

namespace Dialect

/-! ## The two kinds of stretches -/

/-- A text literal: only MySQL has backslash escapes. -/
def textQuoting (dialect : Dialect) : Quoting := ⟨'\x27', dialect = mysql⟩

/-- A quoted name: nothing escapes in it. -/
def nameQuoting (dialect : Dialect) : Quoting := ⟨dialect.quoteChar, false⟩

/-- Text literals are spelled as they are read. -/
lemma spells_literalChar (dialect : Dialect) : dialect.textQuoting.Spells dialect.literalChar := by
  intro c rest
  by_cases hmark : c = '\x27'
  · subst hmark
    exact Quoting.read?_doubled rest
  · by_cases hescape : c = '\\' ∧ dialect = mysql
    · -- where a backslash escapes, a second one behind it is the character that it stands for
      obtain ⟨rfl, rfl⟩ := hescape
      rfl
    · rw [literalChar, if_neg hmark, if_neg hescape]
      exact Quoting.read?_plain hmark (by simpa [textQuoting] using hescape) rest

/-- Names are spelled as they are read. -/
lemma spells_doubled (dialect : Dialect) :
    dialect.nameQuoting.Spells fun c =>
      if c = dialect.quoteChar then [dialect.quoteChar, dialect.quoteChar] else [c] := by
  intro c rest
  by_cases hmark : c = dialect.quoteChar
  · subst hmark
    simp only [if_true]
    exact Quoting.read?_doubled rest
  · simp only [if_neg hmark]
    exact Quoting.read?_plain hmark (by simp [nameQuoting]) rest

end Dialect

end RelQuery
