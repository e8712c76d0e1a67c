/-!
# White space and words

Condition keys, field lists, order terms and table references are written by hand, so they arrive
with stray blanks around them and between their words.  Everything that reads such a text starts
here.

* `isBlank` is the white-space class: the 25 code points of the Unicode property, not only ASCII.
* `trim`, `trimEnd` and `words` cut a text at blanks.
* `pieces` cuts a text at a separator character and keeps empty pieces.
* `keyword` is the form in which multi-word keywords are compared: single spaces, ASCII capitals.
-/

namespace RelQuery.Text

/-! ## The class -/

/-- The white-space code points: tab to carriage return, space, next line, no-break space, and the
separators of the general punctuation block. -/
def blankRanges : List (Nat × Nat) :=
  [(0x09, 0x0D), (0x20, 0x20), (0x85, 0x85), (0xA0, 0xA0), (0x1680, 0x1680), (0x2000, 0x200A),
   (0x2028, 0x2029), (0x202F, 0x202F), (0x205F, 0x205F), (0x3000, 0x3000)]

/-- Whether a character is white space. -/
def isBlank (c : Char) : Bool :=
  blankRanges.any fun (low, high) => low ≤ c.toNat && c.toNat ≤ high

/-! ## Cutting -/

/-- A list without its blanks at the end. -/
def dropBlankEnd (cs : List Char) : List Char :=
  (cs.reverse.dropWhile isBlank).reverse

/-- A text without the blanks at its end. -/
def trimEnd (s : String) : String :=
  String.ofList (dropBlankEnd s.toList)

/-- A text without the blanks at either end. -/
def trim (s : String) : String :=
  String.ofList (dropBlankEnd (s.toList.dropWhile isBlank))

/-- The runs of `cs` between characters that `cut` accepts, the first of them continuing `run`
(kept reversed).  Empty runs are left out. -/
def runsFrom (cut : Char → Bool) (run : List Char) : List Char → List (List Char)
  | [] => if run.isEmpty then [] else [run.reverse]
  | c :: cs =>
    if cut c then
      if run.isEmpty then runsFrom cut [] cs else run.reverse :: runsFrom cut [] cs
    else runsFrom cut (c :: run) cs

/-- The maximal runs of non-blank characters, in order. -/
def words (s : String) : List String :=
  (runsFrom isBlank [] s.toList).map String.ofList

/-- The stretches of `cs` between occurrences of `sep`; never the empty list. -/
def piecesOf (sep : Char) : List Char → List (List Char)
  | [] => [[]]
  | c :: cs =>
    if c = sep then [] :: piecesOf sep cs
    else match piecesOf sep cs with
      | [] => [[c]]
      | piece :: rest => (c :: piece) :: rest

/-- The stretches of a text between occurrences of `sep`, empty ones included. -/
def pieces (sep : Char) (s : String) : List String :=
  (piecesOf sep s.toList).map String.ofList

/-! ## Keywords -/

/-- A text with its ASCII letters as capitals. -/
def upperAscii (s : String) : String := String.ofList (s.toList.map Char.toUpper)

/-- A text with its ASCII letters as small letters. -/
def lowerAscii (s : String) : String := String.ofList (s.toList.map Char.toLower)

/-- Words joined by single spaces, in ASCII capitals: the spelling keywords are compared in. -/
def keyword (s : String) : String := upperAscii (" ".intercalate (words s))

/-- Equality up to the case of ASCII letters. -/
def sameKeyword (s t : String) : Bool := lowerAscii s == lowerAscii t

/-! ## Small facts -/

theorem piecesOf_ne_nil (sep : Char) (cs : List Char) : piecesOf sep cs ≠ [] := by
  cases cs with
  | nil => simp [piecesOf]
  | cons c cs =>
    unfold piecesOf
    split
    · simp
    · split <;> simp

theorem pieces_ne_nil (sep : Char) (s : String) : pieces sep s ≠ [] := by
  simp [pieces, piecesOf_ne_nil]

end RelQuery.Text
