import RelQuery.Proofs.Reading.Scan

/-!
# Reading what was written

A predicate is written word by word.  Its text can be read back, because each comparison ends where
it should and each connective stands alone between two spaces.

* `Mark.Readable` says that words are in an order in which they can be told apart.
* **`scan_text`** — the words of a written predicate are the words it was written from.
* **`truth?_scan_text`** — so a database reads the text as the predicate is meant.
-/

namespace RelQuery

open Word

variable {dialect : Dialect} {depth : Nat}

/-! ## Comparisons -/

/-- Whether a comparison can begin with a character. -/
def Word.isStart (c : Char) : Bool := ('*' :: quotes).contains c

/-- An identifier begins with a quote or is a star. -/
lemma Identifier.exists_text (dialect : Dialect) {identifier : Identifier}
    (h : identifier.parts ≠ []) :
    ∃ c cs, (identifier.text dialect).toList = c :: cs ∧ isStart c = true := by
  have hquote : isStart dialect.quoteChar = true := by cases dialect <;> rfl
  have hpart : ∀ part, ∃ c cs, (partText dialect part).toList = c :: cs ∧ isStart c = true := by
    intro part
    rw [partText]
    split
    · exact ⟨'*', [], rfl, rfl⟩
    · exact ⟨dialect.quoteChar, _, dialect.toList_quote part, hquote⟩
  obtain ⟨parts⟩ := identifier
  obtain ⟨part, parts, rfl⟩ := List.exists_cons_of_ne_nil h
  obtain ⟨c, cs, hcs, hc⟩ := hpart part
  cases parts with
  | nil => exact ⟨c, cs, by simpa [Identifier.text] using hcs, hc⟩
  | cons next parts =>
      refine ⟨c, cs ++ (".".toList ++ (".".intercalate
        ((next :: parts).map (partText dialect))).toList), ?_, hc⟩
      rw [Identifier.text, List.map_cons, List.map_cons, String.intercalate_cons_cons,
        String.toList_append, String.toList_append, hcs, List.append_assoc, List.cons_append]

lemma Dialect.opens_textLiteral (s : String) : Opens (dialect.textLiteral s).toList := by
  rw [Dialect.textLiteral, String.toList_ofList]
  exact Opens.cons rfl _

lemma Dialect.opens_literal (v : Value) : Opens (dialect.literal v).toList := by
  cases v with
  | null =>
      show Opens "NULL".toList
      exact Opens.cons rfl ['U', 'L', 'L']
  | bool b =>
      cases b
      · show Opens "0".toList
        exact Opens.cons rfl []
      · show Opens "1".toList
        exact Opens.cons rfl []
  | num n =>
      cases htext : n.text.toList with
      | nil => exact absurd (String.toList_eq_nil_iff.mp htext) n.text_ne_empty
      | cons c cs =>
          have hc : Number.isTextChar c = true :=
            n.numeric_text c (by rw [htext]; exact List.mem_cons_self)
          show Opens n.text.toList
          rw [htext]
          exact Opens.of_class rfl hc cs
  | str s => exact opens_textLiteral s
  | arr items => exact opens_textLiteral _
  | obj members => exact opens_textLiteral _

/-- An atom with a sound name is a stretch of its own. -/
lemma Atom.opens_and_carries_text (dialect : Dialect) (depth : Nat) {a : Atom String}
    (h : a.Clear Bindings.Plain) :
    Opens (a.text dialect).toList ∧ Carries dialect depth (a.text dialect).toList := by
  cases a with
  | column c =>
      obtain ⟨d, cs, hcs, hd⟩ := Identifier.exists_text dialect h
      refine ⟨?_, c.carries_text⟩
      rw [Atom.text, hcs]
      exact Opens.of_class rfl hd cs
  | literal v => exact ⟨Dialect.opens_literal v, Dialect.carries_literal v⟩
  | param name =>
      rw [Atom.text, String.toList_append]
      refine ⟨Opens.cons rfl name.toList, ?_⟩
      exact (Carries.of_text rfl).append
        (Carries.of_plain fun c hc => isPlain_of_class rfl (h.isNameChar c hc))

lemma Atom.opens_and_carries_texts (dialect : Dialect) (depth : Nat) :
    (items : List (Atom String)) → (∀ a ∈ items, a.Clear Bindings.Plain) →
    (items ≠ [] → Opens (", ".intercalate (items.map (Atom.text dialect))).toList)
      ∧ Carries dialect depth (", ".intercalate (items.map (Atom.text dialect))).toList
  | [], _ => ⟨fun hne => absurd rfl hne, Carries.nil⟩
  | [a], h => by
      have ha := opens_and_carries_text dialect depth (h a List.mem_cons_self)
      rw [List.map_singleton, String.intercalate_singleton]
      exact ⟨fun _ => ha.1, ha.2⟩
  | a :: b :: items, h => by
      have ha := opens_and_carries_text dialect depth (h a List.mem_cons_self)
      have hrest := opens_and_carries_texts dialect depth (b :: items)
        fun c hc => h c (List.mem_cons_of_mem a hc)
      rw [List.map_cons] at hrest
      rw [List.map_cons, List.map_cons, String.intercalate_cons_cons, String.toList_append,
        String.toList_append, List.append_assoc]
      refine ⟨fun _ => ha.1.append _, ha.2.append ?_⟩
      exact (Carries.of_text (s := ",") rfl).append
        (Carries.space (hrest.1 (List.cons_ne_nil b items)) hrest.2)

lemma Side.opens_and_carries_text (dialect : Dialect) (depth : Nat) {side : Side String}
    (h : side.Clear Bindings.Plain) :
    Opens (side.text dialect).toList ∧ Carries dialect depth (side.text dialect).toList := by
  cases side with
  | one a => exact Atom.opens_and_carries_text dialect depth h
  | many items =>
      rw [Side.text, String.toList_append, String.toList_append]
      refine ⟨Opens.cons rfl _, ?_⟩
      exact (Atom.opens_and_carries_texts dialect (depth + 1) items h).2.parens

lemma Operator.opens_and_carries_sql (dialect : Dialect) (depth : Nat) (op : Operator) :
    Opens op.sql.toList ∧ Carries dialect depth op.sql.toList := by
  have hword : ∀ c cs, ['A', 'O'].contains c = false → (c :: cs).all isPlain = true →
      Opens (c :: cs) ∧ Carries dialect depth (c :: cs) := fun c cs hc hplain =>
    ⟨Opens.cons hc cs, Carries.of_plain (List.all_eq_true.mp hplain)⟩
  have htwo : ∀ {as bs}, Opens as ∧ Carries dialect depth as →
      Opens bs ∧ Carries dialect depth bs →
      Opens (as ++ ' ' :: bs) ∧ Carries dialect depth (as ++ ' ' :: bs) := fun has hbs =>
    ⟨has.1.append _, has.2.append (Carries.space hbs.1 hbs.2)⟩
  have hnot := hword 'N' ['O', 'T'] rfl rfl
  have hlike := hword 'L' ['I', 'K', 'E'] rfl rfl
  have his := hword 'I' ['S'] rfl rfl
  cases op with
  | eq => exact hword '=' [] rfl rfl
  | ne => exact hword '!' ['='] rfl rfl
  | lt => exact hword '<' [] rfl rfl
  | gt => exact hword '>' [] rfl rfl
  | le => exact hword '<' ['='] rfl rfl
  | ge => exact hword '>' ['='] rfl rfl
  | like => exact hlike
  | notLike => exact htwo hnot hlike
  | within => exact hword 'I' ['N'] rfl rfl
  | is => exact his
  | isNot => exact htwo his hnot
  | regexp => exact hword 'R' ['E', 'G', 'E', 'X', 'P'] rfl rfl

namespace Comparison

lemma exists_text (dialect : Dialect) {c : Comparison String} (h : c.column.parts ≠ []) :
    ∃ d cs, (c.text dialect).toList = d :: cs ∧ isStart d = true := by
  obtain ⟨d, cs, hcs, hd⟩ := Identifier.exists_text dialect h
  refine ⟨d, cs ++ (" " ++ (c.op.sql ++ (" " ++ c.side.text dialect))).toList, ?_, hd⟩
  rw [text, String.append_assoc, String.append_assoc, String.append_assoc, String.toList_append,
    hcs, List.cons_append]

lemma carries_text {c : Comparison String} (h : c.side.Clear Bindings.Plain) :
    Carries dialect depth (c.text dialect).toList := by
  obtain ⟨hop, hop'⟩ := c.op.opens_and_carries_sql dialect depth
  obtain ⟨hside, hside'⟩ := Side.opens_and_carries_text dialect depth h
  rw [text, String.append_assoc, String.append_assoc, String.append_assoc, String.toList_append,
    String.toList_append, String.toList_append, String.toList_append]
  exact c.column.carries_text.append
    (Carries.space (hop.append _) (hop'.append (Carries.space hside hside')))

/-- What may stand behind a comparison. -/
def Stops (rest : List Char) : Prop :=
  rest = [] ∨ (∃ cs, rest = ')' :: cs) ∨ ∃ cs, rest = ' ' :: cs ∧ connectiveAhead cs = true

/-- A comparison ends where something stops it. -/
lemma scanFrom_of_stops {rest : List Char} (h : Stops rest) (collected : List Char) :
    scanFrom dialect (.comparison collected 0 .bare) rest
      = .comparison (String.ofList collected.reverse) :: scanFrom dialect .gap rest := by
  rcases h with rfl | ⟨cs, rfl⟩ | ⟨cs, rfl, hahead⟩
  · rfl
  · rfl
  · rw [scanFrom, step, if_pos (by simp [endsAt, hahead])]
    rfl

/-- **A sound comparison is read as one word.** -/
theorem scanFrom_text {c : Comparison String} (h : c.Clear Bindings.Plain) {rest : List Char}
    (hrest : Stops rest) :
    scanFrom dialect .gap ((c.text dialect).toList ++ rest)
      = .comparison (c.text dialect) :: scanFrom dialect .gap rest := by
  obtain ⟨d, cs, hcs, hd⟩ := exists_text dialect h.1
  -- a comparison begins like one that has been going on without a character
  have hbegin : ∀ cs, scanFrom dialect .gap (d :: cs)
      = scanFrom dialect (.comparison [] 0 .bare) (d :: cs) := by
    intro cs
    simp only [isStart, quotes, List.contains_eq_mem, List.mem_cons, List.not_mem_nil, or_false,
      decide_eq_true_eq] at hd
    rcases hd with rfl | rfl | rfl | rfl <;> rfl
  have hcarries := (carries_text h.2 : Carries dialect 0 (c.text dialect).toList) [] rest
  rw [hcs, List.cons_append] at hcarries
  rw [hcs, List.cons_append, hbegin, hcarries, scanFrom_of_stops hrest, List.append_nil,
    List.reverse_reverse, ← hcs, String.ofList_toList]

end Comparison

/-! ## Rows of words -/

/-- Words in an order in which they can be told apart.  Where an operand is due (`due`) stands one,
or what may come before it; elsewhere a connective, or the end of a group or of everything. -/
def Mark.Readable : (due : Bool) → List Mark → Prop
  | true, .opening :: marks => Readable true marks
  | true, .not :: marks => Readable true marks
  | true, .test c :: marks => c.Clear Bindings.Plain ∧ Readable false marks
  | false, .and :: marks => Readable true marks
  | false, .or :: marks => Readable true marks
  | false, .closing :: marks => Readable false marks
  | false, [] => True
  | _, _ => False

namespace Term

lemma readable_connector_first (c : Connector) {marks : List Mark} (h : Mark.Readable true marks) :
    Mark.Readable true (c.marks true ++ marks) := by
  cases c <;> exact h

lemma readable_connector (c : Connector) {marks : List Mark} (h : Mark.Readable true marks) :
    Mark.Readable false (c.marks false ++ marks) := by
  cases c <;> exact h

mutual

lemma readable_marks : (term : Term String) → term.Solid →
    (∀ c ∈ term.comparisons, c.Clear Bindings.Plain) → (marks : List Mark) →
    Mark.Readable false marks → Mark.Readable true (term.marks ++ marks)
  | .test c, _, hclear, _, h => ⟨hclear c List.mem_cons_self, h⟩
  | .chain links, ⟨hne, hall⟩, hclear, marks, h => by
      rw [Term.marks]
      split
      · rw [List.cons_append, List.append_assoc]
        exact readable_linkMarks_first links hne hall hclear _ h
      · exact readable_linkMarks_first links hne hall hclear marks h

/-- The words of the links of a group are what stands inside one. -/
lemma readable_linkMarks_first : (links : List (Connector × Term String)) → links ≠ [] →
    AllSolid links → (∀ c ∈ linkComparisons links, c.Clear Bindings.Plain) →
    (marks : List Mark) → Mark.Readable false marks →
    Mark.Readable true (linkMarks true links ++ marks)
  | [], hne, _, _, _, _ => absurd rfl hne
  | (c, term) :: links, _, ⟨hterm, hlinks⟩, hclear, marks, h => by
      rw [linkMarks, List.append_assoc, List.append_assoc]
      refine readable_connector_first c (readable_marks term hterm ?_ _
        (readable_linkMarks links hlinks ?_ marks h))
      · exact fun d hd => hclear d (List.mem_append_left _ hd)
      · exact fun d hd => hclear d (List.mem_append_right _ hd)

/-- The words of further links go on behind an operand. -/
lemma readable_linkMarks : (links : List (Connector × Term String)) → AllSolid links →
    (∀ c ∈ linkComparisons links, c.Clear Bindings.Plain) → (marks : List Mark) →
    Mark.Readable false marks → Mark.Readable false (linkMarks false links ++ marks)
  | [], _, _, _, h => h
  | (c, term) :: links, ⟨hterm, hlinks⟩, hclear, marks, h => by
      rw [linkMarks, List.append_assoc, List.append_assoc]
      refine readable_connector c (readable_marks term hterm ?_ _
        (readable_linkMarks links hlinks ?_ marks h))
      · exact fun d hd => hclear d (List.mem_append_left _ hd)
      · exact fun d hd => hclear d (List.mem_append_right _ hd)

end

end Term

namespace Mark

@[simp] lemma toList_text_opening : (text dialect opening).toList = ['('] := by rw [text]; rfl

@[simp] lemma toList_text_closing : (text dialect closing).toList = [')'] := by rw [text]; rfl

@[simp] lemma toList_text_and : (text dialect and).toList = ['A', 'N', 'D'] := by rw [text]; rfl

@[simp] lemma toList_text_or : (text dialect or).toList = ['O', 'R'] := by rw [text]; rfl

@[simp] lemma toList_text_not : (text dialect not).toList = ['N', 'O', 'T'] := by rw [text]; rfl

/-- Connectives and negations stand apart from what follows. -/
lemma gap_of_ne_closing {mark next : Mark} (hmark : mark ≠ opening) (hnext : next ≠ closing) :
    mark.gap next = " " := by
  cases mark <;> cases next <;> first | rfl | exact absurd rfl hmark | exact absurd rfl hnext

lemma exists_toList_spell_closing (dialect : Dialect) (marks : List Mark) :
    ∃ cs, (spell dialect (closing :: marks)).toList = ')' :: cs := by
  cases marks with
  | nil => exact ⟨[], toList_text_closing⟩
  | cons next marks =>
      refine ⟨(closing.gap next).toList ++ (spell dialect (next :: marks)).toList, ?_⟩
      rw [spell, String.toList_append, String.toList_append, List.append_assoc,
        toList_text_closing, List.singleton_append]

lemma toList_spell_of_readable (mark : Mark) {marks : List Mark} (hmark : mark ≠ opening)
    (h : Readable true marks) :
    (spell dialect (mark :: marks)).toList
      = (mark.text dialect).toList ++ ' ' :: (spell dialect marks).toList := by
  cases marks with
  | nil => exact h.elim
  | cons next marks =>
      have hnext : next ≠ closing := by
        rintro rfl
        exact h.elim
      rw [spell, gap_of_ne_closing hmark hnext, String.toList_append, String.toList_append,
        List.append_assoc]
      rfl

/-- What is behind an operand begins like the end of a group or like a connective. -/
lemma exists_toList_spell_of_readable (dialect : Dialect) (mark : Mark) {marks : List Mark}
    (hmark : mark ≠ opening) (h : Readable false marks) :
    ∃ rest, (spell dialect (mark :: marks)).toList = (mark.text dialect).toList ++ rest
      ∧ Comparison.Stops rest
      ∧ scanFrom dialect .gap rest = scanFrom dialect .gap (spell dialect marks).toList := by
  cases marks with
  | nil => exact ⟨[], (List.append_nil _).symm, Or.inl rfl, rfl⟩
  | cons next marks =>
      have hspell : (spell dialect (mark :: next :: marks)).toList
          = (mark.text dialect).toList
            ++ ((mark.gap next).toList ++ (spell dialect (next :: marks)).toList) := by
        rw [spell, String.toList_append, String.toList_append, List.append_assoc]
      cases next with
      | closing =>
          have hgap : mark.gap closing = "" := by cases mark <;> rfl
          rw [hgap] at hspell
          exact ⟨_, hspell, Or.inr (Or.inl (exists_toList_spell_closing dialect marks)), rfl⟩
      | and =>
          have hahead : connectiveAhead (spell dialect (and :: marks)).toList = true := by
            rw [toList_spell_of_readable and (by simp) h, toList_text_and]
            rfl
          rw [gap_of_ne_closing hmark (by simp)] at hspell
          exact ⟨_, hspell, Or.inr (Or.inr ⟨_, rfl, hahead⟩), rfl⟩
      | or =>
          have hahead : connectiveAhead (spell dialect (or :: marks)).toList = true := by
            rw [toList_spell_of_readable or (by simp) h, toList_text_or]
            rfl
          rw [gap_of_ne_closing hmark (by simp)] at hspell
          exact ⟨_, hspell, Or.inr (Or.inr ⟨_, rfl, hahead⟩), rfl⟩
      | opening => exact h.elim
      | not => exact h.elim
      | test c => exact h.elim

/-- Words that can be told apart are read as they were written. -/
lemma scanFrom_spell : (due : Bool) → (marks : List Mark) → Readable due marks →
    scanFrom dialect .gap (spell dialect marks).toList
      = marks.map fun mark => mark.word.map (Comparison.text dialect)
  | false, [], _ => rfl
  | true, .opening :: marks, h => by
      have hspell : (spell dialect (opening :: marks)).toList
          = '(' :: (spell dialect marks).toList := by
        cases marks with
        | nil => exact h.elim
        | cons next marks =>
            rw [spell, String.toList_append, String.toList_append, toList_text_opening]
            rfl
      rw [hspell, List.map_cons, ← scanFrom_spell true marks h]
      rfl
  | true, .not :: marks, h => by
      have hmarks : Readable true marks := h
      rw [toList_spell_of_readable not (by simp) hmarks, toList_text_not, List.map_cons,
        ← scanFrom_spell true marks hmarks]
      rfl
  | true, .test c :: marks, ⟨hclear, h⟩ => by
      obtain ⟨rest, hspell, hstops, hrest⟩ := exists_toList_spell_of_readable dialect (test c)
        (by simp) h
      rw [hspell, Mark.text, Comparison.scanFrom_text hclear hstops, hrest, List.map_cons,
        scanFrom_spell false marks h]
      rfl
  | false, .and :: marks, h => by
      rw [toList_spell_of_readable and (by simp) h, toList_text_and, List.map_cons,
        ← scanFrom_spell true marks h]
      rfl
  | false, .or :: marks, h => by
      rw [toList_spell_of_readable or (by simp) h, toList_text_or, List.map_cons,
        ← scanFrom_spell true marks h]
      rfl
  | false, .closing :: marks, h => by
      have hmarks : Readable false marks := h
      obtain ⟨rest, hspell, -, hrest⟩ := exists_toList_spell_of_readable dialect closing
        (by simp) hmarks
      rw [hspell, toList_text_closing, List.map_cons, ← scanFrom_spell false marks hmarks,
        ← hrest]
      rfl
  | true, [], h => h.elim
  | true, .and :: _, h => h.elim
  | true, .or :: _, h => h.elim
  | true, .closing :: _, h => h.elim
  | false, .opening :: _, h => h.elim
  | false, .not :: _, h => h.elim
  | false, .test _ :: _, h => h.elim

/-- What begins with an operand is not empty and does not begin like a connective. -/
lemma opens_spell {marks : List Mark} (h : Readable true marks) :
    Opens (spell dialect marks).toList := by
  cases marks with
  | nil => exact h.elim
  | cons mark marks =>
      have hspell : ∃ rest, (spell dialect (mark :: marks)).toList
          = (mark.text dialect).toList ++ rest := by
        cases marks with
        | nil => exact ⟨[], (List.append_nil _).symm⟩
        | cons next marks =>
            refine ⟨(mark.gap next).toList ++ (spell dialect (next :: marks)).toList, ?_⟩
            rw [spell, String.toList_append, String.toList_append, List.append_assoc]
      obtain ⟨rest, hspell⟩ := hspell
      rw [hspell]
      refine Opens.append ?_ rest
      cases mark with
      | opening =>
          rw [toList_text_opening]
          exact Opens.cons rfl []
      | not =>
          rw [toList_text_not]
          exact Opens.cons rfl ['O', 'T']
      | test c =>
          obtain ⟨d, cs, hcs, hd⟩ := Comparison.exists_text dialect h.1.1
          rw [Mark.text, hcs]
          exact Opens.of_class rfl hd cs
      | and => exact h.elim
      | or => exact h.elim
      | closing => exact h.elim

end Mark

/-! ## Predicates -/

namespace Predicate

/-- The words of a predicate with a link can be told apart. -/
lemma readable_marks {p : Predicate String} (hsolid : p.Solid)
    (hclear : ∀ c ∈ p.comparisons, c.Clear Bindings.Plain) (hne : p.links ≠ []) :
    Mark.Readable true p.marks := by
  have h := Term.readable_linkMarks_first p.links hne hsolid hclear [] trivial
  rwa [List.append_nil] at h

/-- **The words of a written predicate are those it was written from.** -/
theorem scan_text {p : Predicate String} (hsolid : p.Solid)
    (hclear : ∀ c ∈ p.comparisons, c.Clear Bindings.Plain) :
    scan dialect (p.text dialect) = p.words.map (Word.map (Comparison.text dialect)) := by
  rw [scan, text, words, List.map_map]
  by_cases hne : p.links = []
  · rw [marks, hne]
    rfl
  · exact Mark.scanFrom_spell true p.marks (readable_marks hsolid hclear hne)

/-- **A database reads the text of a predicate as it is meant**, under every assignment. -/
theorem truth?_scan_text {p : Predicate String} (hsolid : p.Solid)
    (hclear : ∀ c ∈ p.comparisons, c.Clear Bindings.Plain) (hne : p.links ≠ [])
    (truths : List Bool) :
    truth? (assign (scan dialect (p.text dialect)) truths) = some (p.holds truths) := by
  rw [scan_text hsolid hclear, assign_map, truth?_words hsolid hne]

/-- The comparisons in the text are those of the predicate. -/
lemma comparisonsIn_text {p : Predicate String} (hsolid : p.Solid)
    (hclear : ∀ c ∈ p.comparisons, c.Clear Bindings.Plain) :
    comparisonsIn dialect (p.text dialect) = p.comparisons.map (Comparison.text dialect) := by
  rw [comparisonsIn, scan_text hsolid hclear, comparisons_map, comparisons_words]

/-- The text of a predicate with a link begins with an operand. -/
lemma opens_text {p : Predicate String} (hsolid : p.Solid)
    (hclear : ∀ c ∈ p.comparisons, c.Clear Bindings.Plain) (hne : p.links ≠ []) :
    Opens (p.text dialect).toList :=
  Mark.opens_spell (readable_marks hsolid hclear hne)

/-- A predicate is written as nothing exactly when it has no link. -/
lemma text_eq_empty_iff {p : Predicate String} (hsolid : p.Solid)
    (hclear : ∀ c ∈ p.comparisons, c.Clear Bindings.Plain) :
    p.text dialect = "" ↔ p.links = [] := by
  constructor
  · intro hempty
    by_contra hne
    have hopens : Opens (p.text dialect).toList := opens_text hsolid hclear hne
    obtain ⟨c, cs, hcs, -⟩ := hopens
    rw [hempty] at hcs
    exact List.cons_ne_nil c cs hcs.symm
  · intro hnil
    rw [text, marks, hnil]
    rfl

end Predicate

end RelQuery
