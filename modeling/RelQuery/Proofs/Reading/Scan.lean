import RelQuery.Proofs.Bindings.Name
import RelQuery.Proofs.Reading.Word
import RelQuery.Proofs.Value.NumberText

/-!
# Words of a text

A written condition reaches the database as one text.  This is how its words are found again, one
character after the other: a word in capitals is a connective, and anything else goes on as one
comparison up to a closing parenthesis or the next connective, outside of quotes and of the
comparison's own parentheses.

* `Word.scan` is that reading of a text.
* `Comparison.Clear` is a comparison whose names are sound, so that it ends where it ends.
* **`scan_text`** — the words of a written predicate are the words it was written from.
-/

namespace RelQuery

namespace Word

/-! ## Scanning -/

/-- Where a reader stands inside a comparison. -/
inductive Place where
  /-- Outside of quotes. -/
  | bare
  /-- Between two quotes of this kind. -/
  | quoted (q : Char)
  /-- There too, behind a backslash. -/
  | escaped (q : Char)
  deriving DecidableEq

/-- What a reader is inside of. -/
inductive Scanning where
  | gap
  /-- Inside a word in capitals, collected reversed. -/
  | keyword (collected : List Char)
  /-- Inside a comparison, collected reversed, with so many parentheses of its own open. -/
  | comparison (collected : List Char) (depth : Nat) (place : Place)

/-- The characters that open a quoted stretch. -/
def quotes : List Char := ['\x27', '"', '\x60']

/-- Whether a character opens a quoted stretch. -/
def isQuote (c : Char) : Bool := quotes.contains c

/-- The place behind a character.  Only MySQL has backslash escapes, and not in identifiers. -/
def Place.next (dialect : Dialect) (c : Char) : Place → Place
  | bare => if isQuote c then quoted c else bare
  | quoted q =>
    if c = q then bare
    else if c = '\\' ∧ dialect = .mysql ∧ q ≠ '\x60' then escaped q
    else quoted q
  | escaped q => quoted q

/-- The number of open parentheses behind a character. -/
def Place.nesting (c : Char) (depth : Nat) : Place → Nat
  | bare => if c = '(' then depth + 1 else if c = ')' then depth - 1 else depth
  | _ => depth

/-- Whether the next word is `AND` or `OR`. -/
def connectiveAhead (cs : List Char) : Bool :=
  let word := cs.takeWhile (· != ' ')
  word == ['A', 'N', 'D'] || word == ['O', 'R']

/-- Whether a comparison ends before `c`, with `cs` behind it. -/
def endsAt (depth : Nat) (place : Place) (c : Char) (cs : List Char) : Bool :=
  place = .bare && depth == 0 && (c == ')' || c == ' ' && connectiveAhead cs)

/-- A word in capitals. -/
def keywordOf : List Char → Word String
  | ['A', 'N', 'D'] => .and
  | ['O', 'R'] => .or
  | ['N', 'O', 'T'] => .not
  | cs => .comparison (String.ofList cs)

/-- One character between words: the words that it is, and the state after it. -/
def gapStep (dialect : Dialect) (c : Char) : List (Word String) × Scanning :=
  if c = ' ' then ([], .gap)
  else if c = '(' then ([.opening], .gap)
  else if c = ')' then ([.closing], .gap)
  else if c.isUpper then ([], .keyword [c])
  else ([], .comparison [c] 0 (Place.bare.next dialect c))

/-- One character, with `cs` behind it: the words that it completes, and the state after it. -/
def step (dialect : Dialect) (state : Scanning) (c : Char) (cs : List Char) :
    List (Word String) × Scanning :=
  match state with
  | .gap => gapStep dialect c
  | .keyword collected =>
    if c = ' ' then ([keywordOf collected.reverse], .gap) else ([], .keyword (c :: collected))
  | .comparison collected depth place =>
    if endsAt depth place c cs then
      let (words, next) := gapStep dialect c
      (.comparison (String.ofList collected.reverse) :: words, next)
    else ([], .comparison (c :: collected) (place.nesting c depth) (place.next dialect c))

/-- The words that the end of the text completes. -/
def finish : Scanning → List (Word String)
  | .gap => []
  | .keyword collected => [keywordOf collected.reverse]
  | .comparison collected _ _ => [.comparison (String.ofList collected.reverse)]

/-- The words of `cs` from a state on. -/
def scanFrom (dialect : Dialect) (state : Scanning) : List Char → List (Word String)
  | [] => finish state
  | c :: cs =>
    let (words, next) := step dialect state c cs
    words ++ scanFrom dialect next cs

/-- The words of a text. -/
def scan (dialect : Dialect) (text : String) : List (Word String) :=
  scanFrom dialect .gap text.toList

/-- The comparisons in a text, in order. -/
def comparisonsIn (dialect : Dialect) (text : String) : List String :=
  comparisons (scan dialect text)

/-! ## Stretches of a comparison -/

section Stretches

variable {dialect : Dialect} {depth : Nat}

/-- A stretch that a comparison goes on with, and at the end of which nothing is left open. -/
def Carries (dialect : Dialect) (depth : Nat) (cs : List Char) : Prop :=
  ∀ collected rest,
    scanFrom dialect (.comparison collected depth .bare) (cs ++ rest)
      = scanFrom dialect (.comparison (cs.reverse ++ collected) depth .bare) rest

lemma Carries.nil : Carries dialect depth [] := fun _ _ => rfl

lemma Carries.append {as bs : List Char} (has : Carries dialect depth as)
    (hbs : Carries dialect depth bs) : Carries dialect depth (as ++ bs) := by
  intro collected rest
  rw [List.append_assoc, has, hbs, List.reverse_append, List.append_assoc]

lemma scanFrom_comparison {place : Place} {c : Char} {cs : List Char}
    (h : endsAt depth place c cs = false) (collected : List Char) :
    scanFrom dialect (.comparison collected depth place) (c :: cs)
      = scanFrom dialect
          (.comparison (c :: collected) (place.nesting c depth) (place.next dialect c)) cs := by
  rw [scanFrom, step, if_neg (by simp [h])]
  rfl

/-- Whether a character has no meaning of its own to a reader. -/
def isPlain (c : Char) : Bool := !(' ' :: '(' :: ')' :: quotes).contains c

/-- A class of characters that is apart from some others. -/
lemma not_contains_of_class {p : Char → Bool} {ds : List Char}
    (hp : ds.all (fun d => !p d) = true) {c : Char} (hc : p c = true) : ds.contains c = false := by
  by_contra hne
  rw [Bool.not_eq_false, List.contains_iff_mem] at hne
  have hnot := List.all_eq_true.mp hp c hne
  rw [hc] at hnot
  exact Bool.noConfusion hnot

/-- A class of characters without those that have a meaning. -/
lemma isPlain_of_class {p : Char → Bool}
    (hp : (' ' :: '(' :: ')' :: quotes).all (fun d => !p d) = true) {c : Char} (hc : p c = true) :
    isPlain c = true := by
  rw [isPlain, not_contains_of_class hp hc]
  rfl

lemma Carries.of_plain {cs : List Char} (h : ∀ c ∈ cs, isPlain c = true) :
    Carries dialect depth cs := by
  induction cs with
  | nil => exact Carries.nil
  | cons c cs ih =>
      intro collected rest
      have hc := h c List.mem_cons_self
      simp only [isPlain, List.contains_eq_mem, List.mem_cons, Bool.not_eq_true',
        decide_eq_false_iff_not, not_or] at hc
      obtain ⟨hspace, hopen, hclose, hquote⟩ := hc
      rw [List.cons_append, scanFrom_comparison (by simp [endsAt, hspace, hclose]),
        Place.nesting, if_neg hopen, if_neg hclose, Place.next,
        if_neg (by simpa [isQuote] using hquote),
        ih fun d hd => h d (List.mem_cons_of_mem c hd), List.reverse_cons, List.append_assoc]
      rfl

lemma Carries.of_text {s : String} (h : s.toList.all isPlain = true) :
    Carries dialect depth s.toList :=
  Carries.of_plain (List.all_eq_true.mp h)

/-- Characters that do not begin with the letter of a connective. -/
def Opens (cs : List Char) : Prop := ∃ c rest, cs = c :: rest ∧ c ≠ 'A' ∧ c ≠ 'O'

lemma Opens.cons {c : Char} (h : ['A', 'O'].contains c = false) (cs : List Char) :
    Opens (c :: cs) := by
  simp only [List.contains_eq_mem, List.mem_cons, List.not_mem_nil, or_false,
    decide_eq_false_iff_not, not_or] at h
  exact ⟨c, cs, rfl, h.1, h.2⟩

lemma Opens.of_class {p : Char → Bool} (hp : ['A', 'O'].all (fun d => !p d) = true) {c : Char}
    (hc : p c = true) (cs : List Char) : Opens (c :: cs) := by
  simp only [List.all_cons, List.all_nil, Bool.and_true, Bool.and_eq_true, Bool.not_eq_true'] at hp
  refine ⟨c, cs, rfl, ?_, ?_⟩
  · rintro rfl
    exact Bool.noConfusion (hc.symm.trans hp.1)
  · rintro rfl
    exact Bool.noConfusion (hc.symm.trans hp.2)

lemma Opens.append {as : List Char} (h : Opens as) (bs : List Char) : Opens (as ++ bs) := by
  obtain ⟨c, rest, rfl, hand, hor⟩ := h
  exact ⟨c, rest ++ bs, rfl, hand, hor⟩

/-- Behind a space, anything that is not a connective. -/
lemma Carries.space {cs : List Char} (hopens : Opens cs) (h : Carries dialect depth cs) :
    Carries dialect depth (' ' :: cs) := by
  obtain ⟨c, cs, rfl, hand, hor⟩ := hopens
  intro collected rest
  have hahead : connectiveAhead (c :: (cs ++ rest)) = false := by
    by_cases hc : c = ' '
    · simp [connectiveAhead, hc]
    · simp [connectiveAhead, hc, hand, hor]
  rw [List.cons_append, List.cons_append, scanFrom_comparison (by simp [endsAt, hahead])]
  exact (h (' ' :: collected) rest).trans (by rw [List.reverse_cons, List.reverse_cons,
    List.reverse_cons, List.append_assoc _ [' ']]; rfl)

lemma Carries.parens {cs : List Char} (h : Carries dialect (depth + 1) cs) :
    Carries dialect depth ('(' :: (cs ++ [')'])) := by
  intro collected rest
  rw [List.cons_append, scanFrom_comparison (by simp [endsAt])]
  show scanFrom dialect (.comparison ('(' :: collected) (depth + 1) .bare) _ = _
  rw [List.append_assoc, h, List.cons_append, List.nil_append,
    scanFrom_comparison (by simp [endsAt])]
  show scanFrom dialect (.comparison (')' :: _) depth .bare) _ = _
  simp

/-- Inside quotes a reader stops at nothing but the quote. -/
lemma scanFrom_quoted (q : Char) (c : Char) (collected rest : List Char) :
    scanFrom dialect (.comparison collected depth (.quoted q)) (c :: rest)
      = scanFrom dialect (.comparison (c :: collected) depth ((Place.quoted q).next dialect c))
          rest :=
  scanFrom_comparison (by simp [endsAt]) collected

lemma scanFrom_escaped (q : Char) (c : Char) (collected rest : List Char) :
    scanFrom dialect (.comparison collected depth (.escaped q)) (c :: rest)
      = scanFrom dialect (.comparison (c :: collected) depth (.quoted q)) rest :=
  scanFrom_comparison (by simp [endsAt]) collected

/-- A stretch between quotes, if what stands for each character leads back between them. -/
lemma Carries.quoted {q : Char} (hq : isQuote q = true) {spell : Char → List Char}
    (hspell : ∀ c collected rest,
      scanFrom dialect (.comparison collected depth (.quoted q)) (spell c ++ rest)
        = scanFrom dialect (.comparison ((spell c).reverse ++ collected) depth (.quoted q)) rest)
    (cs : List Char) : Carries dialect depth (q :: cs.flatMap spell ++ [q]) := by
  have hbody : ∀ (cs collected rest : List Char),
      scanFrom dialect (.comparison collected depth (.quoted q)) (cs.flatMap spell ++ rest)
        = scanFrom dialect (.comparison ((cs.flatMap spell).reverse ++ collected) depth (.quoted q))
            rest := by
    intro cs
    induction cs with
    | nil => exact fun _ _ => rfl
    | cons c cs ih =>
        intro collected rest
        rw [List.flatMap_cons, List.append_assoc, hspell, ih, List.reverse_append,
          List.append_assoc]
  have hopen : q ≠ ' ' ∧ q ≠ '(' ∧ q ≠ ')' := by
    refine ⟨?_, ?_, ?_⟩ <;> rintro rfl <;> exact Bool.noConfusion hq
  intro collected rest
  rw [List.cons_append, List.cons_append,
    scanFrom_comparison (by simp [endsAt, hopen.1, hopen.2.2]), Place.nesting, if_neg hopen.2.1,
    if_neg hopen.2.2, Place.next, if_pos hq, List.append_assoc, hbody, List.cons_append,
    List.nil_append, scanFrom_quoted, Place.next, if_pos rfl]
  simp

end Stretches

end Word

/-! ## Comparisons as stretches -/

open Word

variable {dialect : Dialect} {depth : Nat}

lemma Dialect.carries_quote (part : String) :
    Carries dialect depth (dialect.quote part).toList := by
  have hq : isQuote dialect.quoteChar = true := by cases dialect <;> rfl
  have hescape : ¬ (dialect = .mysql ∧ dialect.quoteChar ≠ '\x60') := by
    rintro ⟨rfl, hne⟩
    exact hne rfl
  rw [Dialect.toList_quote]
  refine Carries.quoted hq (fun c collected rest => ?_) part.toList
  split
  · next hc =>
      rw [List.cons_append, List.cons_append, List.nil_append, scanFrom_quoted, Place.next,
        if_pos rfl, scanFrom_comparison, Place.next, if_pos hq]
      · have hopen : dialect.quoteChar ≠ '(' ∧ dialect.quoteChar ≠ ')' := by
          cases dialect <;> simp [Dialect.quoteChar]
        rw [Place.nesting, if_neg hopen.1, if_neg hopen.2]
        rfl
      · cases dialect <;> simp [endsAt, Dialect.quoteChar]
  · next hc =>
      rw [List.singleton_append, scanFrom_quoted, Place.next, if_neg hc,
        if_neg fun h => hescape h.2]
      rfl

lemma Dialect.carries_textLiteral (s : String) :
    Carries dialect depth (dialect.textLiteral s).toList := by
  rw [Dialect.textLiteral, String.toList_ofList]
  refine Carries.quoted rfl (fun c collected rest => ?_) s.toList
  rw [Dialect.literalChar]
  split
  · next hc =>
      rw [hc, List.cons_append, List.cons_append, List.nil_append, scanFrom_quoted, Place.next,
        if_pos rfl, scanFrom_comparison (by simp [endsAt])]
      rfl
  · next hc =>
      split
      · next hescape =>
          rw [hescape.1, hescape.2, List.cons_append, List.cons_append, List.nil_append,
            scanFrom_quoted, Place.next, if_neg (by simp), if_pos ⟨rfl, rfl, by simp⟩,
            scanFrom_escaped]
          rfl
      · next hescape =>
          rw [List.singleton_append, scanFrom_quoted, Place.next, if_neg hc,
            if_neg fun h => hescape ⟨h.1, h.2.1⟩]
          rfl

lemma Dialect.carries_literal (v : Value) : Carries dialect depth (dialect.literal v).toList := by
  cases v with
  | null => exact Carries.of_text (s := "NULL") rfl
  | bool b =>
      cases b
      · exact Carries.of_text (s := "0") rfl
      · exact Carries.of_text (s := "1") rfl
  | num n =>
      exact Carries.of_plain fun c hc => isPlain_of_class rfl (Number.numeric_text n c hc)
  | str s => exact carries_textLiteral s
  | arr items => exact carries_textLiteral _
  | obj members => exact carries_textLiteral _

lemma Identifier.carries_text (identifier : Identifier) :
    Carries dialect depth (identifier.text dialect).toList := by
  have hpart : ∀ part, Carries dialect depth (partText dialect part).toList := by
    intro part
    rw [partText]
    split
    · exact Carries.of_text rfl
    · exact Dialect.carries_quote part
  obtain ⟨parts⟩ := identifier
  show Carries dialect depth (".".intercalate (parts.map (partText dialect))).toList
  induction parts with
  | nil => exact Carries.nil
  | cons part parts ih =>
      cases parts with
      | nil => simpa using hpart part
      | cons next parts =>
          rw [List.map_cons, List.map_cons, String.intercalate_cons_cons, String.toList_append,
            String.toList_append]
          rw [List.map_cons] at ih
          exact ((hpart part).append (Carries.of_text rfl)).append ih

end RelQuery
