import RelQuery.Proofs.Query.FirstTest
import RelQuery.Proofs.Reading.Quoted
import RelQuery.Proofs.Value.NumberText
import RelQuery.Proofs.Value.Shortest

/-!
# Reading literals

The values of a list are written into the statement itself.  Whatever they hold, a database finds
each of them again, and nothing besides: a text ends where it ends, and a comma or a parenthesis in
a text is part of it.

* `Dialect.readText?` reads a text literal, `Literal.read?` any literal, and `Literal.readList?` the
  literals of a list up to its closing parenthesis.
* `Literal.of` is what the literal of a value is to say: truth values are numbers, lists and objects
  are texts.
* **`Dialect.literals_lossless`** — text literals are read back and so are the lists of a test, and
  a double is recovered by rounding.
-/

namespace RelQuery

/-! ## The readers -/

/-- Read a text literal: what it says, and what follows it. -/
def Dialect.readText? (dialect : Dialect) : List Char → Option (String × List Char)
  | [] => none
  | c :: cs =>
    if c = dialect.textQuoting.mark then
      (dialect.textQuoting.read? cs).map (Prod.map String.ofList id)
    else none

/-- What a literal says. -/
inductive Literal where
  | null
  | number (q : ℚ)
  | text (s : String)
  deriving DecidableEq

namespace Literal

/-- Whether a character goes on with a literal that has no quotes. -/
def isBare (c : Char) : Bool := c.isAlphanum || ['-', '+', '.'].contains c

/-- What a literal without quotes says: it is a number, or the word for nothing. -/
def bare? (word : List Char) : Option Literal :=
  match Numeral.value? word with
  | some q => some (number q)
  | none => if Text.sameKeyword (String.ofList word) "NULL" then some null else none

/-- Read a literal: what it says, and what follows it. -/
def read? (dialect : Dialect) (cs : List Char) : Option (Literal × List Char) :=
  match dialect.readText? cs with
  | some (s, rest) => some (text s, rest)
  | none => (bare? (cs.takeWhile isBare)).map fun literal => (literal, cs.dropWhile isBare)

end Literal

lemma Dialect.length_lt_of_readText? {dialect : Dialect} {cs : List Char} {s : String}
    {rest : List Char} (h : dialect.readText? cs = some (s, rest)) : rest.length < cs.length := by
  cases cs with
  | nil => cases h
  | cons c cs =>
      rw [readText?] at h
      split at h
      case isTrue =>
        obtain ⟨⟨t, rest'⟩, hread, heq⟩ := Option.map_eq_some_iff.mp h
        cases heq
        exact (Quoting.length_lt_of_read? hread).trans (Nat.lt_succ_self _)
      case isFalse => cases h

namespace Literal

variable {dialect : Dialect}

/-- A literal is not empty. -/
lemma length_lt_of_read? {cs : List Char} {literal : Literal} {rest : List Char}
    (h : read? dialect cs = some (literal, rest)) : rest.length < cs.length := by
  rw [read?] at h
  split at h
  case h_1 s rest' hread =>
    cases h
    exact Dialect.length_lt_of_readText? hread
  case h_2 =>
    obtain ⟨literal', hbare, heq⟩ := Option.map_eq_some_iff.mp h
    cases heq
    have hlength := congrArg List.length (List.takeWhile_append_dropWhile (p := isBare) (l := cs))
    rw [List.length_append] at hlength
    have hsome : 0 < (cs.takeWhile isBare).length := by
      rw [List.length_pos_iff]
      intro hempty
      rw [hempty] at hbare
      cases hbare
    omega

/-- Read literals with a comma between any two, up to a closing parenthesis: what they say, and what
follows the parenthesis. -/
def readList? (dialect : Dialect) (cs : List Char) : Option (List Literal × List Char) :=
  match _ : read? dialect (cs.dropWhile Text.isBlank) with
  | none => none
  | some (literal, rest) =>
    match _ : rest.dropWhile Text.isBlank with
    | ',' :: more => (readList? dialect more).map (Prod.map (literal :: ·) id)
    | ')' :: more => some ([literal], more)
    | _ => none
  termination_by cs.length
  decreasing_by
    rename_i hread hrest
    have hliteral := length_lt_of_read? hread
    have hblank := (List.dropWhile_sublist Text.isBlank (l := cs)).length_le
    have hmore := (List.dropWhile_sublist Text.isBlank (l := rest)).length_le
    rw [hrest, List.length_cons] at hmore
    omega

/-- What the literal of a value is to say. -/
def of : Value → Literal
  | .null => null
  | .bool b => number (if b then 1 else 0)
  | .num n => number n.toRat
  | .str s => text s
  | v => text v.text

end Literal

/-! ## Single literals -/

/-- A text literal ends where it ends. -/
lemma Dialect.readText?_textLiteral (dialect : Dialect) (s : String) {rest : List Char}
    (h : rest.head? ≠ some '\x27') :
    dialect.readText? ((dialect.textLiteral s).toList ++ rest) = some (s, rest) := by
  have hread : dialect.textQuoting.read?
      (s.toList.flatMap dialect.literalChar ++ '\x27' :: rest) = some (s.toList, rest) :=
    Quoting.read?_flatMap dialect.spells_literalChar s.toList h
  have htext : (dialect.textLiteral s).toList ++ rest
      = '\x27' :: (s.toList.flatMap dialect.literalChar ++ '\x27' :: rest) := by
    rw [textLiteral, String.toList_ofList, List.cons_append, List.cons_append, List.append_assoc,
      List.singleton_append]
  rw [htext, readText?, textQuoting, if_pos rfl, ← textQuoting, hread, Option.map_some, Prod.map,
    String.ofList_toList]
  rfl

namespace Literal

variable {dialect : Dialect}

/-- A text in quotes, and what it says. -/
lemma read?_textLiteral (dialect : Dialect) (s : String) {rest : List Char}
    (h : rest.head? ≠ some '\x27') :
    read? dialect ((dialect.textLiteral s).toList ++ rest) = some (text s, rest) := by
  rw [read?, dialect.readText?_textLiteral s h]

/-- What is no part of a literal, and no second quote behind one. -/
def Ends (rest : List Char) : Prop := ∀ c ∈ rest.head?, isBare c = false ∧ c ≠ '\x27'

lemma ends_cons {c : Char} (hbare : isBare c = false) (hquote : c ≠ '\x27') (rest : List Char) :
    Ends (c :: rest) := by
  rintro d ⟨⟩
  exact ⟨hbare, hquote⟩

/-- A word without quotes ends where no other of its characters follows. -/
lemma read?_bare {word rest : List Char} {literal : Literal} (hword : bare? word = some literal)
    (hbare : ∀ c ∈ word, isBare c = true) (hends : Ends rest) :
    read? dialect (word ++ rest) = some (literal, rest) := by
  obtain ⟨htake, hdrop⟩ := Numeral.takeWhile_append_of_stop hbare fun c hc => (hends c hc).1
  have htext : dialect.readText? (word ++ rest) = none := by
    cases word with
    | nil => cases hword
    | cons c word =>
        have hc : c ≠ dialect.textQuoting.mark := by
          rintro rfl
          exact absurd (hbare _ List.mem_cons_self) Bool.false_ne_true
        rw [List.cons_append, Dialect.readText?, if_neg hc]
  rw [read?, htext, htake, hdrop, hword]
  rfl

lemma isBare_of_isTextChar {c : Char} (h : Number.isTextChar c = true) : isBare c = true := by
  simp only [Number.isTextChar, isBare, Char.isAlphanum, Bool.or_eq_true, List.contains_cons,
    beq_iff_eq] at h ⊢
  rcases h with h | rfl | rfl | rfl | rfl | h
  · exact .inl (.inr h)
  all_goals simp at *

lemma read?_number (n : Number) {rest : List Char} (hends : Ends rest) :
    read? dialect (n.text.toList ++ rest) = some (number n.toRat, rest) := by
  refine read?_bare ?_ (fun c hc => isBare_of_isTextChar (n.numeric_text c hc)) hends
  rw [bare?, n.value?_text]

/-- **A literal is read back to its end.** -/
lemma read?_literal (dialect : Dialect) (v : Value) {rest : List Char} (hends : Ends rest) :
    read? dialect ((dialect.literal v).toList ++ rest) = some (of v, rest) := by
  have hquote : rest.head? ≠ some '\x27' := fun h => (hends _ h).2 rfl
  cases v with
  | null =>
      have hbare : "NULL".toList.all isBare = true := rfl
      show read? dialect ("NULL".toList ++ rest) = some (null, rest)
      exact read?_bare rfl (List.all_eq_true.mp hbare) hends
  | bool b =>
      cases b
      · exact read?_number (.int 0) hends
      · exact read?_number (.int 1) hends
  | num n => exact read?_number n hends
  | str s => exact read?_textLiteral dialect s hquote
  | arr items => exact read?_textLiteral dialect _ hquote
  | obj members => exact read?_textLiteral dialect _ hquote

/-! ## Lists of literals -/

lemma isBlank_of_isTextChar {c : Char} (h : Number.isTextChar c = true) :
    Text.isBlank c = false := by
  have hrange : '+'.toNat ≤ c.toNat ∧ c.toNat ≤ 'e'.toNat := by
    simp only [Number.isTextChar, Bool.or_eq_true, Char.isDigit_iff_toNat, List.contains_cons,
      beq_iff_eq] at h
    rcases h with h | rfl | rfl | rfl | rfl | h
    · exact ⟨le_trans (by decide) h.1, le_trans h.2 (by decide)⟩
    all_goals simp at *
  simp only [Text.isBlank, Text.blankRanges, List.any_cons, List.any_nil, Bool.or_eq_false_iff,
    Bool.and_eq_false_iff, decide_eq_false_iff_not, and_true, Char.reduceToNat] at hrange ⊢
  omega

lemma exists_toList_literal (dialect : Dialect) (v : Value) :
    ∃ c cs, (dialect.literal v).toList = c :: cs ∧ Text.isBlank c = false := by
  have htext : ∀ s, ∃ c cs, (dialect.textLiteral s).toList = c :: cs ∧ Text.isBlank c = false := by
    intro s
    rw [Dialect.textLiteral, String.toList_ofList]
    exact ⟨_, _, rfl, rfl⟩
  have hnumber : ∀ n : Number, ∃ c cs, n.text.toList = c :: cs ∧ Text.isBlank c = false := by
    intro n
    cases hn : n.text.toList with
    | nil => exact absurd (String.toList_eq_nil_iff.mp hn) n.text_ne_empty
    | cons c cs =>
        have hc : c ∈ n.text.toList := by rw [hn]; exact List.mem_cons_self
        exact ⟨c, cs, rfl, isBlank_of_isTextChar (n.numeric_text c hc)⟩
  cases v with
  | null => exact ⟨'N', ['U', 'L', 'L'], by simp [Dialect.literal], rfl⟩
  | bool b => cases b; exacts [hnumber (.int 0), hnumber (.int 1)]
  | num n => exact hnumber n
  | str s => exact htext s
  | arr items => exact htext _
  | obj members => exact htext _

/-- A literal begins with no blank. -/
lemma dropWhile_literal (v : Value) (rest : List Char) :
    ((dialect.literal v).toList ++ rest).dropWhile Text.isBlank
      = (dialect.literal v).toList ++ rest := by
  obtain ⟨c, cs, hliteral, hc⟩ := exists_toList_literal dialect v
  rw [hliteral, List.cons_append, List.dropWhile_cons_of_neg (by simp [hc])]

lemma readList?_space (cs : List Char) : readList? dialect (' ' :: cs) = readList? dialect cs := by
  rw [readList?, readList?, List.dropWhile_cons_of_pos rfl]

/-- The last literal of a list. -/
lemma readList?_last (v : Value) (rest : List Char) :
    readList? dialect ((dialect.literal v).toList ++ ')' :: rest) = some ([of v], rest) := by
  have hread := read?_literal dialect v (ends_cons rfl (by decide) rest : Ends (')' :: rest))
  rw [readList?, dropWhile_literal, hread]
  rfl

/-- Any other literal of a list. -/
lemma readList?_more (v : Value) (rest : List Char) :
    readList? dialect ((dialect.literal v).toList ++ ',' :: rest)
      = (readList? dialect rest).map (Prod.map (of v :: ·) id) := by
  have hread := read?_literal dialect v (ends_cons rfl (by decide) rest : Ends (',' :: rest))
  rw [readList?, dropWhile_literal, hread]
  rfl

/-- **The literals of a list are read back**, whatever follows its parenthesis. -/
lemma readList?_intercalate : (values : List Value) → values ≠ [] → (rest : List Char) →
    readList? dialect ((", ".intercalate (values.map dialect.literal)).toList ++ ')' :: rest)
      = some (values.map of, rest)
  | [], hne, _ => absurd rfl hne
  | [v], _, rest => by
      rw [List.map_singleton, String.intercalate_singleton]
      exact readList?_last v rest
  | v :: w :: values, _, rest => by
      have hrec := readList?_intercalate (w :: values) (List.cons_ne_nil w values) rest
      rw [List.map_cons, List.map_cons, String.intercalate_cons_cons, ← List.map_cons,
        String.toList_append, String.toList_append, List.append_assoc, List.append_assoc]
      show readList? dialect ((dialect.literal v).toList ++ ',' :: ' ' ::
        ((", ".intercalate ((w :: values).map dialect.literal)).toList ++ ')' :: rest)) = _
      rw [readList?_more, readList?_space, hrec]
      rfl

end Literal

/-! ## Lists of a test -/

/-- A truth value is written as the number that it is bound as. -/
lemma Dialect.literal_normalized (dialect : Dialect) (v : Value) :
    dialect.literal v.normalized = dialect.literal v := by
  cases v with
  | bool b => cases b <;> rfl
  | _ => rfl

/-- **Literals lose nothing and end where they end.**  A text literal is read back, if only no
further quote follows it.  The test that a column is one of some values has nothing to be bound; it
is written with one literal for each value, in their order, and these are read back from between
its parentheses.  The number that the literal of a double says is one that rounds to it. -/
theorem Dialect.literals_lossless (dialect : Dialect) :
    (∀ (s : String) (rest : List Char), rest.head? ≠ some '\x27' →
        dialect.readText? ((dialect.textLiteral s).toList ++ rest) = some (s, rest))
      ∧ (∀ (scope : Scope) (field : String) (column : Identifier) (values : List Value),
        values ≠ [] → scope.columnOf field = .ok column →
        ∃ test named body, scope.compareList field values = .ok test
          ∧ (∀ bindings, test.bind bindings = (named, bindings))
          ∧ named.text dialect = column.text dialect ++ " IN (" ++ body ++ ")"
          ∧ ∀ rest, Literal.readList? dialect (body.toList ++ ')' :: rest)
              = some (values.map Literal.of, rest))
      ∧ ∀ x : Double, x.mantissa < 2 ^ 53 →
        ∃ d : Decimal, Decimal.readsBack x d = true
          ∧ Literal.of (.num (.double x)) = .number (if x.negative then -d.toRat else d.toRat) := by
  refine ⟨fun s rest h => dialect.readText?_textLiteral s h, ?_,
    fun x h => ⟨Decimal.shortest x, Decimal.readsBack_shortest h, rfl⟩⟩
  intro scope field column values hvalues hcolumn
  have hliterals : ((values.map Value.normalized).map Atom.literal).map (Atom.text dialect)
      = values.map dialect.literal := by
    rw [List.map_map, List.map_map]
    exact List.map_congr_left fun v _ => dialect.literal_normalized v
  refine ⟨⟨column, .within, .many ((values.map Value.normalized).map .literal)⟩,
    ⟨column, .within, .many ((values.map Value.normalized).map .literal)⟩,
    ", ".intercalate (values.map dialect.literal), ?_, ?_, ?_, ?_⟩
  · have hempty : values.isEmpty = false := by simpa using hvalues
    rw [Scope.compareList, hcolumn, hempty, List.map_map]
    rfl
  · intro bindings
    show (Comparison.mk column .within (.many
        (((values.map Value.normalized).map Atom.literal).mapM Atom.bind bindings).1),
      (((values.map Value.normalized).map Atom.literal).mapM Atom.bind bindings).2) = _
    rw [Query.mapM_bind_literal]
  · rw [Comparison.text, Side.text, hliterals]
    simp only [String.append_assoc]
    rfl
  · exact fun rest => Literal.readList?_intercalate values hvalues rest

namespace Sample

/-- Values with quotes, commas, parentheses and backslashes in them, and other values. -/
def awkwardValues : List Value :=
  [.str "\\\x27), (", .bool true, .null, .ofInt (-5), .arr [.str "it\x27s"]]

/-- The double that is nearest to a tenth. -/
def tenth : Double := ⟨false, 7205759403792794, -56⟩

end Sample

open Sample in
/-- The same for MySQL, and for values that a careless writer would not keep apart. -/
theorem Dialect.literals_of_awkwardValues :
    [','].head? ≠ some '\x27'
      ∧ mysql.readText? ((mysql.textLiteral "O\x27Hara, (\\").toList ++ [','])
        = some ("O\x27Hara, (\\", [','])
      ∧ awkwardValues ≠ [] ∧ Scope.columnOf {} "name" = .ok ⟨["name"]⟩
      ∧ (∃ test named body, Scope.compareList {} "name" awkwardValues = .ok test
        ∧ (∀ bindings, test.bind bindings = (named, bindings))
        ∧ named.text mysql = "\x60name\x60 IN (" ++ body ++ ")"
        ∧ ∀ rest, Literal.readList? mysql (body.toList ++ ')' :: rest)
          = some ([.text "\\\x27), (", .number 1, .null, .number (-5), .text "[\"it\x27s\"]"],
            rest))
      ∧ tenth.mantissa < 2 ^ 53
      ∧ ∃ d : Decimal, Decimal.readsBack tenth d = true
        ∧ Literal.of (.num (.double tenth)) = .number d.toRat := by
  obtain ⟨htexts, hlists, hdoubles⟩ := literals_lossless mysql
  have hcolumn : Scope.columnOf {} "name" = .ok ⟨["name"]⟩ := rfl
  have hsome : awkwardValues ≠ [] := List.cons_ne_nil _ _
  have htenth : tenth.mantissa < 2 ^ 53 := by norm_num [tenth]
  refine ⟨by decide, htexts _ _ (by decide), hsome, hcolumn, ?_, htenth, hdoubles tenth htenth⟩
  obtain ⟨test, named, body, htest, hbind, htext, hread⟩ := hlists {} "name" _ _ hsome hcolumn
  have hname : Identifier.text mysql ⟨["name"]⟩ = "\x60name\x60" := by cbv
  have hitems : Value.text (.arr [.str "it\x27s"]) = "[\"it\x27s\"]" := by cbv
  rw [hname] at htext
  refine ⟨test, named, body, htest, hbind, htext, fun rest => ?_⟩
  rw [hread, ← hitems]
  simp only [awkwardValues, List.map_cons, List.map_nil, Literal.of, Value.ofInt, Number.toRat,
    if_true]
  rfl

end RelQuery
