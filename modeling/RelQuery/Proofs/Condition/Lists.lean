import RelQuery.Proofs.Condition.Places

/-!
# The lists of `IN`

A database takes `IN` with a list in parentheses only.  The operator can come to a comparison in
four ways: from the clause, from the end of the key, as the key of a clause below a forced key, and
from a list without an operator.  Whichever it is, a list stands behind it unless the value is null,
which is written by itself, or the comparison is with another column.

* `Word.behindIn?` is what stands behind the `IN` of a comparison.
* `Counterpart.listed` says what is written as a list there.
* **`Conditions.lists_of_compile`** — behind each `IN` of a compiled condition stands a list with
  something in it, exactly if that is so.
-/

namespace RelQuery

/-! ## Comparisons with `IN` -/

/-- What stands behind the `IN` of a comparison.  A name has no blank in it, so the first one is
where the operator begins. -/
def Word.behindIn? (text : String) : Option String :=
  let behind := text.toList.dropWhile fun c => c ≠ ' '
  if " IN ".toList.isPrefixOf behind then some (String.ofList (behind.drop 4)) else none

/-- A list in parentheses with something in it. -/
def Dialect.IsList (dialect : Dialect) (operand : String) : Prop :=
  ∃ atoms : List (Atom String), atoms ≠ []
    ∧ operand = "(" ++ ", ".intercalate (atoms.map (Atom.text dialect)) ++ ")"

/-- The operator that a counterpart is compared by. -/
def Counterpart.operator : Counterpart → Operator
  | value op _ => op
  | column op _ => op
  | values _ => .within

/-- Whether a counterpart is written as a list behind an `IN`. -/
def Counterpart.listed : Counterpart → Bool
  | value _ v => !v.isNull
  | column _ _ => false
  | values _ => true

/-! ## Written comparisons -/

namespace Identifier

lemma IsWord.not_mem_partText {part : String} (h : IsWord part) (dialect : Dialect) :
    ' ' ∉ (partText dialect part).toList := by
  have hquote : ' ' ≠ dialect.quoteChar := by cases dialect <;> decide
  rw [partText]
  split
  · decide
  · rw [Dialect.toList_quote]
    simp only [List.cons_append, List.mem_cons, List.mem_append, List.mem_flatMap, not_or]
    refine ⟨hquote, ?_, hquote, List.not_mem_nil⟩
    rintro ⟨c, hc, hmem⟩
    split at hmem
    · simp [hquote] at hmem
    · rw [List.mem_singleton] at hmem
      exact h.not_mem (c := ' ') rfl (hmem ▸ hc)

/-- A name is written without blanks. -/
lemma Dotted.not_mem_text {parts : List String} (h : Dotted parts) (dialect : Dialect) :
    ' ' ∉ (text dialect ⟨parts⟩).toList := by
  rw [text]
  induction h with
  | all =>
      rw [List.map_singleton, String.intercalate_singleton]
      show ' ' ∉ "*".toList
      decide
  | word h =>
      rw [List.map_singleton, String.intercalate_singleton]
      exact h.not_mem_partText dialect
  | @more part parts h hparts ih =>
      obtain ⟨next, parts, rfl⟩ := List.exists_cons_of_ne_nil hparts.ne_nil
      rw [List.map_cons, List.map_cons, String.intercalate_cons_cons, String.toList_append,
        String.toList_append]
      simp only [List.mem_append, not_or]
      exact ⟨⟨h.not_mem_partText dialect, by decide⟩, ih⟩

end Identifier

/-- Behind the `IN` of a comparison stands its right-hand side, and other operators are no `IN`. -/
lemma Word.behindIn?_text {dialect : Dialect} {c : Comparison String}
    (h : Identifier.Dotted c.column.parts) :
    behindIn? (c.text dialect)
      = if c.op = .within then some (c.side.text dialect) else none := by
  have hbehind : (c.text dialect).toList.dropWhile (fun d => d ≠ ' ')
      = ' ' :: (c.op.sql.toList ++ ' ' :: (c.side.text dialect).toList) := by
    have hname : ∀ d ∈ (c.column.text dialect).toList, decide (d ≠ ' ') = true := by
      intro d hd
      rw [decide_eq_true_eq]
      rintro rfl
      exact h.not_mem_text dialect hd
    have htext : (c.text dialect).toList = (c.column.text dialect).toList
        ++ ' ' :: (c.op.sql.toList ++ ' ' :: (c.side.text dialect).toList) := by
      simp [Comparison.text]
    rw [htext, List.dropWhile_append_of_pos hname]
    rfl
  rw [behindIn?, hbehind]
  cases c.op with
  | within => simp [Operator.sql]
  | eq | ne | lt | gt | le | ge | like | notLike | is | isNot | regexp => rfl

/-- Null by itself and a column are no lists. -/
lemma Side.not_isList {dialect : Dialect} {a : Atom String}
    (h : a = .literal .null ∨ ∃ c : Identifier, c.parts ≠ [] ∧ a = .column c) :
    ¬ dialect.IsList ((Side.one a).text dialect) := by
  rintro ⟨atoms, -, htext⟩
  have hfirst := congrArg (fun s => s.toList.head?) htext
  have hopen : ("(" ++ ", ".intercalate (atoms.map (Atom.text dialect)) ++ ")").toList.head?
      = some '(' := by
    rw [String.toList_append, String.toList_append]
    rfl
  simp only [hopen] at hfirst
  rcases h with rfl | ⟨c, hc, rfl⟩
  · simp [Side.text, Atom.text, Dialect.literal] at hfirst
  · obtain ⟨d, ds, hds, hd⟩ := Identifier.exists_text dialect hc
    rw [Side.text, Atom.text, hds] at hfirst
    obtain rfl := Option.some.inj hfirst
    cases hd

/-! ## Compiled comparisons -/

/-- What stands behind an `IN`, before the parameters are named: a list with something in it for a
counterpart that is listed, null or a column for any other. -/
def Side.Fits (side : Side Slot) (listed : Bool) : Prop :=
  if listed then ∃ items, items ≠ [] ∧ side = .many items
  else ∃ a, side = .one a ∧ (a = .literal .null ∨ ∃ c : Identifier, c.parts ≠ [] ∧ a = .column c)

lemma Scope.fits_of_compare {scope : Scope} {field : String} {counterpart : Counterpart}
    {c : Comparison Slot} (h : scope.compare field counterpart = .ok c) :
    (c.op = .within ↔ counterpart.operator = .within)
      ∧ (c.op = .within → c.side.Fits counterpart.listed) := by
  cases counterpart with
  | value op v =>
      rw [Counterpart.listed]
      obtain ⟨column, -, ⟨hnull, rfl⟩ | ⟨hnull, a, -, rfl⟩⟩ := compareValue_cases h
      · refine ⟨?_, fun _ => hnull ▸ ⟨_, rfl, .inl rfl⟩⟩
        show nullOperator op = .within ↔ op = .within
        cases op <;> simp [nullOperator]
      · refine ⟨Iff.rfl, fun hop => hnull ▸ ⟨[a], List.cons_ne_nil _ _, ?_⟩⟩
        show sideOf op a = .many [a]
        rw [sideOf, if_pos hop]
  | column op name =>
      obtain ⟨column, other, -, hother, rfl⟩ := compareColumn_cases h
      exact ⟨Iff.rfl, fun _ => ⟨_, rfl, .inr ⟨other, parts_ne_nil_of_parse hother, rfl⟩⟩⟩
  | values items =>
      obtain ⟨column, values, -, hne, rfl⟩ := compareList_cases h
      exact ⟨Iff.rfl, fun _ => ⟨_, by simpa using hne, rfl⟩⟩

lemma Scope.dotted_of_columnOf {scope : Scope} {field : String} {column : Identifier}
    (h : scope.columnOf field = .ok column) : Identifier.Dotted column.parts := by
  rw [columnOf] at h
  split at h
  · exact ((Identifier.parse_eq_ok_iff _ _).mp h).1
  · unfold Identifier.column at h
    split at h <;> exact ((Identifier.parse_eq_ok_iff _ _).mp h).1

/-- Naming the parameters makes a list of a list, and of nothing else. -/
lemma Side.Fits.isList_text_iff {side : Side Slot} {listed : Bool} (h : side.Fits listed)
    (dialect : Dialect) (start : Bindings) :
    dialect.IsList ((side.bind start).1.text dialect) ↔ listed = true := by
  cases listed with
  | true =>
      obtain ⟨items, hne, rfl⟩ := h
      refine iff_of_true ⟨(items.mapM Atom.bind start).1, ?_, rfl⟩ rfl
      obtain ⟨a, items, rfl⟩ := List.exists_cons_of_ne_nil hne
      rw [List.mapM_cons]
      exact List.cons_ne_nil _ _
  | false =>
      obtain ⟨a, rfl, ha⟩ := h
      refine iff_of_false ?_ Bool.false_ne_true
      rcases ha with rfl | ⟨c, hc, rfl⟩
      · exact Side.not_isList (.inl rfl)
      · exact Side.not_isList (.inr ⟨c, hc, rfl⟩)

/-- **Behind each `IN` of a compiled condition stands a list in parentheses with something in it,
exactly if a list or a value other than null is compared with it there.**  Null by itself is written
as it is, and so is a column. -/
theorem Conditions.lists_of_compile {c : Conditions} {dialect : Dialect} {scope : Scope}
    {start bindings : Bindings} {sql : String}
    (h : c.compile dialect scope start = .ok (sql, bindings)) :
    List.Forall₂ (fun text origin =>
        ((Word.behindIn? text).isSome = true ↔ origin.counterpart.operator = .within)
        ∧ ∀ operand, Word.behindIn? text = some operand →
          (dialect.IsList operand ↔ origin.counterpart.listed = true))
      (Word.comparisonsIn dialect sql) (scope.origins [] c.entries) := by
  refine (yields_of_compile h).imp ?_
  rintro text origin ⟨comparison, earlier, ⟨field, -, hcompare⟩, rfl⟩
  obtain ⟨hop, hfits⟩ := Scope.fits_of_compare hcompare
  have hbehind : Word.behindIn? ((comparison.bind earlier).1.text dialect)
      = if comparison.op = .within then some ((comparison.side.bind earlier).1.text dialect)
        else none :=
    Word.behindIn?_text (Scope.dotted_of_columnOf (Scope.columnOf_of_compare hcompare))
  rw [hbehind, ← hop]
  by_cases hin : comparison.op = .within
  · rw [if_pos hin]
    refine ⟨iff_of_true rfl hin, fun operand hoperand => ?_⟩
    obtain rfl := Option.some.inj hoperand
    exact (hfits hin).isList_text_iff dialect earlier
  · rw [if_neg hin]
    exact ⟨iff_of_false Bool.false_ne_true hin, fun operand hoperand => by cases hoperand⟩

/-- `IN` from all four sides, with nothing but null, a value, an empty list, and another list: a
list stands behind each but the first. -/
theorem Conditions.lists_of_compile_null :
    let forced := [Entry.clause "IN" none (.list [])]
    let c : Conditions := ⟨[.clause "a" (some .within) (.scalar .null),
      .clause "b in" none (.scalar (.ofNat 1)), .clause "c" none (.nested forced),
      .clause "d" none (.list [.str "x", .null])]⟩
    ∃ sql bindings, c.compile .mysql {} .empty = .ok (sql, bindings)
      ∧ (Scope.origins {} [] c.entries).map (fun origin => origin.counterpart.operator)
        = [.within, .within, .within, .within]
      ∧ (Scope.origins {} [] c.entries).map (fun origin => origin.counterpart.listed)
        = [false, true, true, true]
      ∧ ∃ text rest, Word.comparisonsIn .mysql sql = text :: rest
        ∧ (∃ operand, Word.behindIn? text = some operand ∧ ¬ Dialect.mysql.IsList operand)
        ∧ ∀ text ∈ rest, ∃ operand, Word.behindIn? text = some operand
          ∧ Dialect.mysql.IsList operand := by
  intro forced c
  obtain ⟨sql, bindings, h⟩ : ∃ sql bindings,
      c.compile .mysql {} .empty = .ok (sql, bindings) := ⟨_, _, rfl⟩
  have horigins : Scope.origins {} [] c.entries
      = [⟨⟨[], "a"⟩, .value .within .null⟩, ⟨⟨[], "b in"⟩, .value .within (.ofNat 1)⟩,
        ⟨⟨[.nested "c"], "IN"⟩, .values []⟩, ⟨⟨[], "d"⟩, .values [.str "x", .null]⟩] := rfl
  have hlists := lists_of_compile h
  rw [horigins] at hlists ⊢
  refine ⟨sql, bindings, h, rfl, rfl, ?_⟩
  generalize Word.comparisonsIn .mysql sql = texts at hlists ⊢
  obtain _ | ⟨⟨hin, hlist⟩, _ | ⟨hb, _ | ⟨hc, _ | ⟨hd, _ | _⟩⟩⟩⟩ := hlists
  refine ⟨_, _, rfl, ?_, ?_⟩
  · obtain ⟨operand, hoperand⟩ := Option.isSome_iff_exists.mp (hin.mpr rfl)
    exact ⟨operand, hoperand, mt (hlist operand hoperand).mp Bool.false_ne_true⟩
  · have hasList : ∀ {text : String} {counterpart : Counterpart},
        ((Word.behindIn? text).isSome = true ↔ counterpart.operator = .within)
        ∧ (∀ operand, Word.behindIn? text = some operand →
          (Dialect.mysql.IsList operand ↔ counterpart.listed = true)) →
        counterpart.operator = .within → counterpart.listed = true →
        ∃ operand, Word.behindIn? text = some operand ∧ Dialect.mysql.IsList operand := by
      intro text counterpart hfits hop hlisted
      obtain ⟨operand, hoperand⟩ := Option.isSome_iff_exists.mp (hfits.1.mpr hop)
      exact ⟨operand, hoperand, (hfits.2 operand hoperand).mpr hlisted⟩
    intro text htext
    simp only [List.mem_cons, List.not_mem_nil, or_false] at htext
    rcases htext with rfl | rfl | rfl
    · exact hasList hb rfl rfl
    · exact hasList hc rfl rfl
    · exact hasList hd rfl rfl

end RelQuery
